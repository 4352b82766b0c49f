import SwarmCraft.Daemon.Tick

/-!
# A daemon of several worlds

`handle_request` finds the files of a world by the world id of the record at hand. Every handler
works on the files of one world, the one its request names, except that of a recovery epoch: it
checks the record against the files of the record's world and stores the certificate under the
world of the ballot in it.
-/

namespace SwarmCraft

open Checked Effect

/-! ## Requests -/

/-- The requests that are answered without a durable write. -/
inductive Inquiry where
  | hello
  | helloChallenge
  | helloProof
  | ping (nonce : Nat)
  | worldDescriptor (worldId : WorldId)
  | missingBlobs (worldId : WorldId) (snapshotNumber : Nat) (hashes : List Hash32)
  | replicaAck (worldId : WorldId) (complete : Bool)
  | discoveryPublic
  | discoveryResolve
  | friendPresence
  | discoveryFreshnessContext
  | discoveryFreshnessVote
  deriving DecidableEq

/-- The answers to them; a missing blob is asked for from its start. -/
inductive InquiryAnswer where
  | pong (nonce : Nat)
  | worldDescriptor (descriptor : Option WorldDescriptorV1)
  | missingBlobs (missing : List Hash32)
  | replicaAckAccepted
  | error (code message : String)
  deriving DecidableEq

/-- Every request that reaches `handle_request`. -/
inductive DaemonRequest where
  | world (request : WireRequest)
  | worldConfig (config : WorldConfigV1)
  | inquiry (inquiry : Inquiry)
  deriving DecidableEq

/-- The files of each world, with what the daemon remembers of it. The store of a remembered node
is the one of the files. -/
structure Household where
  files : (world : WorldId) → WorldFiles world
  memory : WorldId → Node

section Handlers

variable (C : Crypto)

/-- `handle_request` on an inquiry; a member it authorizes twice is authorized once here. -/
def Inquiry.answer (sender : PeerId) (stores : WorldId → Store) :
    Inquiry → Except DaemonError InquiryAnswer
  | .ping nonce => pure (.pong nonce)
  | .worldDescriptor worldId => do
    authorizeMember C worldId sender (stores worldId)
    pure (.worldDescriptor (optional (loadWorldDescriptor worldId (stores worldId))))
  | .missingBlobs worldId snapshotNumber hashes => do
    authorizeMember C worldId sender (stores worldId)
    let manifest ← required ((stores worldId).snapshots.find? fun manifest =>
      decide (manifest.snapshotNumber = snapshotNumber)) (.storage (.snapshotNotFound snapshotNumber))
    pure (.missingBlobs (hashes.filterMap fun hash =>
      (findDescriptor manifest hash).map BlobDescriptor.hash))
  | .replicaAck worldId complete => do
    authorizeMember C worldId sender (stores worldId)
    guardMessage (complete = true) "incomplete replica acknowledgement rejected"
    pure .replicaAckAccepted
  | .discoveryPublic | .discoveryResolve | .friendPresence | .discoveryFreshnessContext
  | .discoveryFreshnessVote =>
    pure (.error "DISCOVERY_ENDPOINT_REQUIRED"
      "discovery requests are handled by the discovery service")
  | .hello | .helloChallenge | .helloProof =>
    .error (.message
      "application handshake requests are handled by the network authentication layer")

/-- `authorize_world_config_current_authority`. -/
def authorizeWorldConfigCurrentAuthority (sender : PeerId) (config : WorldConfigV1)
    (store : Store) : Except DaemonError Unit := do
  guardMessage (sender = config.authorityPeerId)
    "world config sender does not match its signed authority"
  match loadEpochRecord config.worldId store with
  | .ok epoch =>
    guardMessage (config.authorityPeerId = epoch.authorityPeerId ∧
        config.authorityPublicKey = epoch.authorityPublicKey)
      "world config is not signed by the current accepted authority"
  | .error _ => do
    let membership ← ofStorage (loadMembershipRecord config.worldId store)
    ofCore (verifyMembershipSignature C membership)
    guardMessage (config.authorityPeerId = membership.authorityPeerId ∧
        config.authorityPublicKey = membership.authorityPublicKey)
      "world config is not signed by the bootstrap authority"

/-- The checks of `WorldConfig`; the fingerprint hashes the canonical compatibility manifest. -/
def worldConfigChecks (fingerprint : RuntimeCompatibilityManifestV1 → Hash32) (sender : PeerId)
    (config : WorldConfigV1) (store : Store) : Except DaemonError Unit := do
  ofCore (verifyWorldConfigSignature C config)
  let metadata ← ofStorage (loadWorld C config.worldId store)
  let descriptor ← ofStorage (loadWorldDescriptor config.worldId store)
  guardMessage (fingerprint config.compatibility = metadata.genesis.compatibilityFingerprint ∧
      fingerprint config.compatibility = descriptor.compatibilityFingerprint)
    "world config compatibility fingerprint does not match canonical genesis"
  authorizeMember C config.worldId sender store
  authorizeMember C config.worldId config.authorityPeerId store
  guardMessage (sender = config.authorityPeerId)
    "world config must be sent by its signed authority"
  authorizeWorldConfigCurrentAuthority C sender config store

/-- `handle_request`, `WorldConfig`. -/
def handleWorldConfig (fingerprint : RuntimeCompatibilityManifestV1 → Hash32) (sender : PeerId)
    (config : WorldConfigV1) (files : WorldFiles config.worldId) :
    Except DaemonError (WorldFiles config.worldId) := do
  authorizeMember C config.worldId sender files.store
  worldConfigChecks C fingerprint sender config files.store
  ofStorage (saveWorldConfig C config files)

/-- The checks of `RecoveryEpoch`, all on the files of the record's world; the answer is whether
the record is the accepted one already. -/
def recoveryEpochKnown (sender : PeerId) (record : EpochRecordV1)
    (certificate : RecoveryCertificateV1) (store : Store) : Except DaemonError Bool := do
  authorizeMember C record.worldId sender store
  recoveryEpochChecks C sender record certificate store
  if optional (loadEpochRecord record.worldId store) = some record then pure true
  else do
    newRecoveryEpochChecks C record certificate store
    pure false

/-- What `RecoveryEpoch` does after the certificate is stored. -/
def settleRecoveryEpoch (channel : Channel) (record : EpochRecordV1) (known : Bool) :
    Daemon Unit := do
  if known = true then do
    leaveSleep C record
    respond channel (.epochAccepted record.epochNumber record.fencingToken)
  else do
    save [.storedEpoch record] (saveEpochRecord record)
    leaveSleep C record
    updateRuntime fun runtime => { runtime with inboundLease := none }
    respond channel (.epochAccepted record.epochNumber record.fencingToken)

end Handlers

/-! ## Several worlds -/

namespace Household

/-- What the daemon has of a world. -/
def node (house : Household) (world : WorldId) : Node :=
  { house.memory world with store := (house.files world).store }

/-- The world with another store. -/
def store (house : Household) (world : WorldId) (store : Store) : Household :=
  { house with files := Function.update house.files world ((house.files world).withStore store) }

/-- An action on the files of one world; the daemon goes on whether it fails or not. -/
def run (house : Household) (world : WorldId) (action : Daemon Unit) : Household :=
  let node := (action (Exec.start (house.node world))).2.node
  { house.store world node.store with memory := Function.update house.memory world node }

variable (C : Crypto)

/-- `handle_request`, `RecoveryEpoch`, where the certificate is stored under the world of its
ballot. -/
def handleRecoveryEpoch (house : Household) (channel : Channel) (record : EpochRecordV1)
    (certificate : RecoveryCertificateV1) : Household :=
  match recoveryEpochKnown C channel.requester record certificate
      (house.node record.worldId).store with
  | .error _ => house
  | .ok known =>
    match saveRecoveryCertificate C certificate (house.node certificate.ballot.worldId).store with
    | .error _ => house
    | .ok stored =>
      (house.store certificate.ballot.worldId stored).run record.worldId
        (settleRecoveryEpoch C channel record known)

/-- `handle_request`. -/
def handleRequest (fingerprint : RuntimeCompatibilityManifestV1 → Hash32) (identity : PeerIdentity)
    (now : Nat) (house : Household) (sender : PeerId) (number : Nat) : DaemonRequest → Household
  | .world (.recoveryEpoch record certificate) =>
    house.handleRecoveryEpoch C ⟨identity.peerId C, sender, number⟩ record certificate
  | .world request =>
    house.run request.world (SwarmCraft.handleRequest C ⟨request.world, identity, now⟩
      ⟨identity.peerId C, sender, number⟩ request)
  | .worldConfig config =>
    match handleWorldConfig C fingerprint sender config (house.files config.worldId) with
    | .error _ => house
    | .ok files => { house with files := Function.update house.files config.worldId files }
  | .inquiry _ => house

/-! ## What an action leaves alone -/

variable {C} {house : Household} {world other : WorldId} {action : Daemon Unit}

theorem files_store_of_ne (hne : other ≠ world) (kept : Store) :
    (house.store world kept).files other = house.files other := by
  simp only [store, Function.update_of_ne hne]

theorem files_run_of_ne (hne : other ≠ world) :
    (house.run world action).files other = house.files other :=
  files_store_of_ne hne _

/-- An action that leaves the store alone. -/
theorem files_run_of_same
    (hsame : (action (Exec.start (house.node world))).2.node.store = (house.files world).store) :
    (house.run world action).files = house.files := by
  simp only [run, store, hsame, WorldFiles.withStore_self, Function.update_eq_self]

end Household

end SwarmCraft
