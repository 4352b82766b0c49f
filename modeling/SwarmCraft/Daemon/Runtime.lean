import SwarmCraft.Storage.World

/-!
# Daemon state, wire messages, handler actions and checks

The volatile state of one daemon for one world and the messages of its control plane; of blobs a
chunk only says whether what it completes verifies. A handler changes the node, queues packets and
leaves a trail of the durable states it passed through; a crash keeps one of those and loses
everything else. The event log is not part of the code: it records what a peer signed,
acknowledged and accepted, and the state in which it did.

The read-only functions that decide whether a request, a response or a tick may act
look at the durable store, at the daemon's memory and at the clock, in the order
in which the source does.
-/

namespace SwarmCraft

/-! ## Constants -/

/-- `AUTHORITY_LEASE_DURATION_MS`. -/
def authorityLeaseDurationMs : Nat := 5000

/-- `RECOVERY_SETTLE_DELAY`, in milliseconds. -/
def recoverySettleDelay : Nat := 2000

/-- `STATUS_FRESHNESS`, in milliseconds. -/
def statusFreshness : Nat := 3000

/-! ## Wire messages -/

/-- Whether the local machine can run the server. -/
inductive HostRuntimeReadinessV1 where
  | ready
  | missingConfiguration
  | eulaRequired
  | missingJava
  | missingServerJar
  | missingSwarmCraftMod
  | unverified
  | incompatible
  deriving DecidableEq

/-- Whether the local server mods match the world. -/
inductive ServerModsReadinessV1 where
  | ready
  | missing
  | incompatible
  | unverified
  deriving DecidableEq

/-- What a device can do for a world right now. -/
structure HostCapabilityV1 where
  worldId : WorldId
  compatibilityFingerprint : Hash32
  runtime : HostRuntimeReadinessV1
  serverMods : ServerModsReadinessV1
  conflictFree : Bool
  recoveryQuorumWithoutAuthority : Bool
  deriving DecidableEq

/-- The requests that touch the control plane of a world. -/
inductive WireRequest where
  | worldStatus (worldId : WorldId)
  | hostCapability (worldId : WorldId)
  | joinRequest (request : JoinRequestV1)
  | leaveRequest (request : LeaveRequestV1)
  | snapshotManifest (manifest : SnapshotManifestV1)
  /-- A piece of a blob; `intact` says whether the bytes it completes verify. -/
  | blobChunk (worldId : WorldId) (hash : Hash32) (encoding : BlobEncoding)
      (finished intact : Bool)
  | membershipProposal (proposal : MembershipProposalV1)
  | membershipCommit (certificate : MembershipCertificateV1)
  | membership (record : MembershipRecordV1)
  | epoch (record : EpochRecordV1)
  | recoveryBallot (ballot : RecoveryBallotV1)
  | recoveryEpoch (record : EpochRecordV1) (certificate : RecoveryCertificateV1)
  | authorityTransfer (transfer : AuthorityTransferV1)
  | leaseGrant (lease : AuthorityLeaseGrantV1)
  | sleep (record : SleepRecordV1)
  | soloBranch (branch : SoloBranchV1)
  deriving DecidableEq

/-- The responses to those requests. -/
inductive WireResponse where
  | worldStatus (status : Option WorldStatusV1)
  | hostCapability (capability : Option HostCapabilityV1)
  | joinAccepted (membershipSequence : Nat)
  | leaveAccepted (membershipSequence : Nat)
  | manifestAccepted (snapshotNumber : Nat) (missing : List Hash32)
  | blobChunkAccepted (hash : Hash32)
  | membershipVote (vote : MembershipVoteV1)
  | membershipCommitAccepted (sequence : Nat)
  | membershipAccepted (sequence : Nat)
  | epochAccepted (epoch fencingToken : Nat)
  | recoveryVote (vote : RecoveryVoteV1)
  | recoveryRejected (highestRound : Nat) (reason : String)
  | transferAccepted
  | leaseAccepted (epoch fencingToken : Nat)
  | sleepAccepted (epoch fencingToken : Nat)
  | soloBranchAccepted
  | error (code message : String)
  deriving DecidableEq

/-- `WireRequest::membership_world_id`: the world whose membership the sender must have. -/
def WireRequest.membershipWorldId : WireRequest → Option WorldId
  | .worldStatus worldId => some worldId
  | .hostCapability worldId => some worldId
  | .joinRequest _ => none
  | .leaveRequest request => some request.worldId
  | .snapshotManifest manifest => some manifest.worldId
  | .blobChunk worldId _ _ _ _ => some worldId
  | .membershipProposal _ => none
  | .membershipCommit _ => none
  | .membership record => some record.worldId
  | .epoch record => some record.worldId
  | .recoveryBallot ballot => some ballot.worldId
  | .recoveryEpoch record _ => some record.worldId
  | .authorityTransfer transfer => some transfer.worldId
  | .leaseGrant lease => some lease.worldId
  | .sleep record => some record.worldId
  | .soloBranch branch => some branch.worldId

/-- The world whose directory a request is about. -/
def WireRequest.world : WireRequest → WorldId
  | .joinRequest request => request.worldId
  | .membershipProposal proposal => proposal.proposed.worldId
  | .membershipCommit certificate => certificate.proposal.proposed.worldId
  | .worldStatus worldId => worldId
  | .hostCapability worldId => worldId
  | .leaveRequest request => request.worldId
  | .snapshotManifest manifest => manifest.worldId
  | .blobChunk worldId _ _ _ _ => worldId
  | .membership record => record.worldId
  | .epoch record => record.worldId
  | .recoveryBallot ballot => ballot.worldId
  | .recoveryEpoch record _ => record.worldId
  | .authorityTransfer transfer => transfer.worldId
  | .leaseGrant lease => lease.worldId
  | .sleep record => record.worldId
  | .soloBranch branch => branch.worldId

/-- A request or the response to one. -/
inductive Body where
  | request (request : WireRequest)
  | response (response : WireResponse)
  deriving DecidableEq

/-- A message between two authenticated peers; a response carries the number of its request. -/
structure Packet where
  src : PeerId
  dst : PeerId
  number : Nat
  body : Body
  deriving DecidableEq

/-! ## Volatile state -/

/-- What the daemon remembers about a request it sent. -/
inductive OutboundContext where
  | manifest (snapshotNumber : Nat)
  | lease (peer : PeerId) (generation : AuthorityGeneration)
  | recoveryBallot (peer : PeerId) (ballotHash : Hash32)
  | membershipProposal (peer : PeerId) (proposalHash : Hash32)
  | membershipCommit (peer : PeerId) (sequence : Nat)
  | epoch (peer : PeerId) (generation : AuthorityGeneration)
  | status (peer : PeerId)
  | hostCapability (peer : PeerId)
  deriving DecidableEq

/-- The peer that a remembered request was sent to. -/
def OutboundContext.peer : OutboundContext → Option PeerId
  | .manifest _ => none
  | .lease peer _ => some peer
  | .recoveryBallot peer _ => some peer
  | .membershipProposal peer _ => some peer
  | .membershipCommit peer _ => some peer
  | .epoch peer _ => some peer
  | .status peer => some peer
  | .hostCapability peer => some peer

/-- A lease acknowledgement and when it arrived. -/
structure LeaseAck where
  generation : AuthorityGeneration
  observedAt : Nat
  deriving DecidableEq

/-- The lease this peer granted last and when it runs out. -/
structure InboundLease where
  generation : AuthorityGeneration
  expiresAt : Nat
  deriving DecidableEq

/-- A reported status and when it arrived. -/
structure ObservedStatus where
  status : WorldStatusV1
  observedAt : Nat
  deriving DecidableEq

/-- A reported host capability and when it arrived. -/
structure ObservedCapability where
  capability : HostCapabilityV1
  observedAt : Nat
  deriving DecidableEq

/-- `LeaseRuntime`, for one world. -/
structure LeaseRuntime where
  authenticatedPeers : List PeerId
  leaseAcks : PeerId → Option LeaseAck
  recoveryBallot : Option RecoveryBallotV1
  recoveryVotes : List (PeerId × RecoveryVoteV1)
  membershipVotes : List (PeerId × MembershipVoteV1)
  recoveryRoundFloor : Option Nat
  epochAcks : PeerId → Option AuthorityGeneration
  permitHeartbeat : Option Nat
  inboundLease : Option InboundLease
  peerStatus : PeerId → Option ObservedStatus
  peerCapability : PeerId → Option ObservedCapability
  recoveryNotBefore : Option Nat
  recoveryReplicationSent : List PeerId

/-- `LeaseRuntime::default()`. -/
def LeaseRuntime.default : LeaseRuntime where
  authenticatedPeers := []
  leaseAcks := fun _ => none
  recoveryBallot := none
  recoveryVotes := []
  membershipVotes := []
  recoveryRoundFloor := none
  epochAcks := fun _ => none
  permitHeartbeat := none
  inboundLease := none
  peerStatus := fun _ => none
  peerCapability := fun _ => none
  recoveryNotBefore := none
  recoveryReplicationSent := []

/-- What the machine around the daemon looks like; the daemon only reads it. -/
structure LocalHost where
  /-- The result of `local_host_capability`, without the quorum flag. -/
  capability : Option HostCapabilityV1
  /-- `unix_millis`. -/
  unixMillis : Nat
  /-- `background_seeding_enabled`. -/
  backgroundSeeding : Bool
  deriving DecidableEq

/-- One peer: its durable store, its daemon's memory and its machine. -/
structure Node where
  store : Store
  runtime : LeaseRuntime
  /-- The requests that were not answered yet. -/
  outbound : List (Nat × OutboundContext)
  /-- The number of the next request. -/
  nextRequest : Nat
  /-- The manifest whose blobs are being received. -/
  pendingManifest : Option SnapshotManifestV1
  host : LocalHost

/-! ## Actions -/

open Checked Effect

variable {α β : Type} {text : String} {f : Store → Except StorageError Store} {store : Store}

/-- Failures of the daemon. -/
inductive DaemonError where
  | message (text : String)
  | core (error : CoreError)
  | protocol (error : ProtocolError)
  | storage (error : StorageError)
  | generation (error : GenerationError)
  | recoveryCertificate (error : RecoveryCertificateError)
  | membership (error : MembershipConsensusError)
  | soloHistory (error : SoloHistoryError)
  deriving DecidableEq

/-- What a peer did, for the record of a run. -/
inductive Event where
  /-- It released a recovery vote; `wake` says that a sleep record stood in for the lease window. -/
  | votedRecovery (ballot : RecoveryBallotV1) (vote : RecoveryVoteV1) (wake : Bool)
  /-- It released a membership vote. -/
  | votedMembership (proposal : MembershipProposalV1) (vote : MembershipVoteV1)
  /-- It durably accepted an epoch record. -/
  | storedEpoch (record : EpochRecordV1)
  /-- It acknowledged a lease of its accepted generation to the authority. -/
  | acceptedLease (generation : AuthorityGeneration) (authority : PeerId)
  /-- An acknowledgement of a lease reached the authority. -/
  | confirmedLease (peer : PeerId) (generation : AuthorityGeneration)
  /-- It refreshed its own permit for a generation. -/
  | refreshedPermit (generation : AuthorityGeneration)
  deriving DecidableEq

variable {events : List Event}

/-- An event with the node it happened at, as it was just before. -/
structure Entry where
  node : Node
  event : Event

/-- The state a handler runs in. -/
structure Exec where
  node : Node
  /-- The packets queued so far, oldest first. -/
  outbox : List Packet
  /-- The events of this run of the handler, oldest first. -/
  log : List Entry
  /-- The durable states passed through, each with the events up to it. -/
  trail : List (Store × List Entry)

variable {e t : Exec}

/-- A handler. -/
abbrev Daemon (α : Type) : Type := Action DaemonError Exec α

/-- Start a handler on a node. -/
def Exec.start (node : Node) : Exec := ⟨node, [], [], []⟩

/-- The durable store. -/
def readStore : Daemon Store := fun e => (.ok e.node.store, e)

/-- The daemon's memory. -/
def readRuntime : Daemon LeaseRuntime := fun e => (.ok e.node.runtime, e)

/-- The machine around the daemon. -/
def readHost : Daemon LocalHost := fun e => (.ok e.node.host, e)

/-- The manifest whose blobs are being received. -/
def readPendingManifest : Daemon (Option SnapshotManifestV1) := fun e =>
  (.ok e.node.pendingManifest, e)

/-- A check of the daemon. -/
def check {α : Type} (x : Except DaemonError α) : Daemon α := lift x

@[simp] theorem run_check {x : Except DaemonError α} {a : α} :
    check x e = (.ok a, t) ↔ x = .ok a ∧ e = t :=
  run_lift

/-- An action after a check that passes. -/
theorem check_bind {x : Except DaemonError α} {k : α → Daemon β} {a : α}
    (h : x = .ok a) : (check x >>= k) e = k a e :=
  bind_of_run (run_check.mpr ⟨h, rfl⟩)

/-- Fail with a message unless the condition holds. -/
def guardMessage (p : Prop) [Decidable p] (text : String) : Except DaemonError Unit :=
  ensure p (.message text)

/-- A storage operation inside a check. -/
def ofStorage {α : Type} (x : Except StorageError α) : Except DaemonError α := x.mapError .storage

/-- A signature operation inside a check. -/
def ofCore {α : Type} (x : Except CoreError α) : Except DaemonError α := x.mapError .core

/-- A semantic check inside a check. -/
def ofProtocol {α : Type} (x : Except ProtocolError α) : Except DaemonError α :=
  x.mapError .protocol

/-- A failed computation reported under another message, as `context` does. -/
def context {ε α : Type} (x : Except ε α) (text : String) : Except DaemonError α :=
  x.mapError fun _ => .message text

/-- A check against a message passes when its condition holds. -/
@[simp] theorem guardMessage_eq_ok {p : Prop} [Decidable p] {u : Unit} :
    guardMessage p text = .ok u ↔ p := by
  simp [guardMessage]

/-- A storage operation inside a check passes when it does. -/
@[simp] theorem ofStorage_eq_ok {x : Except StorageError α} {a : α} :
    ofStorage x = .ok a ↔ x = .ok a := by
  simp [ofStorage]

/-- A signature operation inside a check passes when it does. -/
@[simp] theorem ofCore_eq_ok {x : Except CoreError α} {a : α} : ofCore x = .ok a ↔ x = .ok a := by
  simp [ofCore]

/-- A semantic check inside a check passes when it does. -/
@[simp] theorem ofProtocol_eq_ok {x : Except ProtocolError α} {a : α} :
    ofProtocol x = .ok a ↔ x = .ok a := by
  simp [ofProtocol]

/-- A computation reported under another message passes when it does. -/
@[simp] theorem context_eq_ok {ε : Type} {x : Except ε α} {a : α} :
    context x text = .ok a ↔ x = .ok a := by
  simp [context]

/-- The log after some events. -/
def Exec.logged (e : Exec) (events : List Event) : List Entry := e.log ++ events.map (Entry.mk e.node)

/-- The state after a durable write that leaves `store` and records `events`. -/
def Exec.written (e : Exec) (store : Store) (events : List Event) : Exec :=
  { e with
    node := { e.node with store := store }
    log := e.logged events
    trail := e.trail ++ [(store, e.logged events)] }

/-- A durable write that cannot be refused. -/
def write (f : Store → Store) : Daemon Unit := modifyState fun e => e.written (f e.node.store) []

/-- A durable write that the storage layer may refuse, with the events it stands for. -/
def save (events : List Event) (f : Store → Except StorageError Store) : Daemon Unit := fun e =>
  match f e.node.store with
  | .ok store => (.ok (), e.written store events)
  | .error error => (.error (.storage error), e)

@[simp] theorem run_save {v : Unit} :
    save events f e = (.ok v, t) ↔ ∃ store, f e.node.store = .ok store ∧
      e.written store events = t := by
  unfold save
  cases f e.node.store <;> simp

/-- An action after a save that succeeds. -/
theorem save_bind {k : Unit → Daemon β} (h : f e.node.store = .ok store) :
    (save events f >>= k) e = k () (e.written store events) :=
  bind_of_run (a := ()) (run_save.mpr ⟨store, h, rfl⟩)

@[simp] theorem run_readStore : readStore e = (.ok store, t) ↔ e.node.store = store ∧ e = t := by
  simp [readStore]

/-- A durable write that answers; the events it stands for may depend on the answer. -/
def saveAnswer {α : Type} (events : α → Store → List Event)
    (f : Store → Except StorageError (α × Store)) : Daemon α := fun e =>
  match f e.node.store with
  | .ok (answer, store) => (.ok answer, e.written store (events answer store))
  | .error error => (.error (.storage error), e)

/-- Record an event that needs no durable write of its own. -/
def record (event : Event) : Daemon Unit := modifyState fun e => { e with log := e.logged [event] }

/-- Change the daemon's memory. -/
def updateRuntime (f : LeaseRuntime → LeaseRuntime) : Daemon Unit :=
  modifyState fun e => { e with node := { e.node with runtime := f e.node.runtime } }

/-- Change the daemon's memory and record the event it stands for. -/
def learn (event : Event) (f : LeaseRuntime → LeaseRuntime) : Daemon Unit :=
  modifyState fun e => { e with
    node := { e.node with runtime := f e.node.runtime }
    log := e.logged [event] }

/-- Change the manifest whose blobs are being received. -/
def setPendingManifest (manifest : Option SnapshotManifestV1) : Daemon Unit :=
  modifyState fun e => { e with node := { e.node with pendingManifest := manifest } }

/-- `send_request` to a peer, remembering its context where the daemon does. -/
def sendRequest (self peer : PeerId) (request : WireRequest) (remember : Option OutboundContext) :
    Daemon Unit :=
  modifyState fun e =>
    { e with
      outbox := e.outbox ++ [⟨self, peer, e.node.nextRequest, .request request⟩]
      node := { e.node with
        nextRequest := e.node.nextRequest + 1
        outbound := match remember with
          | some context => (e.node.nextRequest, context) :: e.node.outbound
          | none => e.node.outbound } }

/-- The address of a response: the local peer, the requester and the number of the request. -/
structure Channel where
  self : PeerId
  requester : PeerId
  number : Nat
  deriving DecidableEq

/-- `respond`. -/
def respond (channel : Channel) (response : WireResponse) : Daemon Unit :=
  modifyState fun e =>
    { e with outbox := e.outbox ++
        [⟨channel.self, channel.requester, channel.number, .response response⟩] }

/-- `clear_permit`. -/
def clearPermit : Daemon Unit := write fun store => { store with permit := none }

/-- A request with this context is still waiting for its response. -/
def requestPending (context : OutboundContext) : Daemon Bool := fun e =>
  (.ok (e.node.outbound.any fun entry => decide (entry.2 = context)), e)

/-- Send a request unless one with the same context is still unanswered. -/
def sendUnlessPending (self peer : PeerId) (request : WireRequest) (context : OutboundContext) :
    Daemon Unit := do
  let pending ← requestPending context
  onlyIf (pending = false) (sendRequest self peer request (some context))

/-! ## Checks -/

/-- Where a handler runs: the world it is about, the local identity and the clock. -/
structure Site where
  world : WorldId
  identity : PeerIdentity
  /-- `Instant::now`, in milliseconds. -/
  now : Nat
  deriving DecidableEq

variable (C : Crypto)

/-- The local peer. -/
def Site.peer (site : Site) : PeerId := site.identity.peerId C

/-! ## Membership of a world -/

/-- `authorized_descriptor_member`. -/
def authorizedDescriptorMember (descriptor : WorldDescriptorV1) (peer : PeerId) :
    Except DaemonError WorldMemberV1 := do
  let member ← required (descriptor.member peer)
    (.message "peer is not an authorized member of this world")
  guardMessage (C.peerIdFromPublicKey member.publicKey = peer)
    "world membership public key does not match peer identity"
  guardMessage (member.banned = false) "peer is banned from this world"
  pure member

/-- `authorize_member`. -/
def authorizeMember (world : WorldId) (peer : PeerId) (store : Store) :
    Except DaemonError Unit := do
  let descriptor ← ofStorage (loadWorldDescriptor world store)
  let _ ← authorizedDescriptorMember C descriptor peer
  pure ()

/-- The members that are not banned. -/
def WorldDescriptorV1.active (descriptor : WorldDescriptorV1) : List WorldMemberV1 :=
  descriptor.members.filter fun member => !member.banned

/-- `ensure_no_membership_prepare`. -/
def ensureNoMembershipPrepare (world : WorldId) (store : Store) : Except DaemonError Unit :=
  guardMessage (optional (loadMembershipPromise C world store) = none)
    "authority/recovery transition is fenced by a durable membership prepare"

/-- `proposal_member`. -/
def proposalMember (proposal : MembershipProposalV1) (peer : PeerId) : Option WorldMemberV1 :=
  (proposal.previous.members ++ proposal.proposed.members).find? fun member =>
    decide (member.peerId = peer) && !member.banned

/-- The member of a record with a peer id. -/
def MembershipRecordV1.find (record : MembershipRecordV1) (peer : PeerId) : Option WorldMemberV1 :=
  record.members.find? fun member => decide (member.peerId = peer)

/-- `validate_membership_proposal_for_local`. -/
def validateMembershipProposalForLocal (site : Site) (host : LocalHost)
    (proposal : MembershipProposalV1) (store : Store) : Except DaemonError Unit := do
  let world := proposal.proposed.worldId
  let localMember ← required (proposalMember proposal (site.peer C))
    (.message "local peer is not an active voter in either membership configuration")
  guardMessage (localMember.publicKey = site.identity.publicKey)
    "local peer key does not match the membership proposal"
  match loadMembershipRecord world store with
  | .ok current => do
    ofCore (verifyMembershipSignature C current)
    guardMessage (current.recordHash C = proposal.previous.recordHash C)
      "membership proposal does not extend the locally committed configuration"
  | .error _ => do
    let join ← context (loadPendingJoin C world store)
      "new membership voter has neither committed membership nor a pending join"
    ofCore (verifyJoinRequestSignature C join)
    ofCore (verifyInviteSignature C join.invite)
    guardMessage (host.unixMillis ≤ join.invite.expiresUnixMs)
      "pending join invite expired before membership commit"
    guardMessage (join.joiningMember.peerId = site.peer C ∧
        join.joiningMember.publicKey = site.identity.publicKey ∧
        proposal.proposed.find (site.peer C) = some join.joiningMember ∧
        join.invite.inviterPeerId = proposal.previous.authorityPeerId ∧
        join.invite.inviterPublicKey = proposal.previous.authorityPublicKey)
      "membership proposal does not match the locally staged join"

/-- `validate_membership_certificate_signatures`. -/
def validateMembershipCertificateSignatures (certificate : MembershipCertificateV1) :
    Except DaemonError Unit := do
  ofCore (verifyMembershipSignature C certificate.proposal.previous)
  ofCore (verifyMembershipSignature C certificate.proposal.proposed)
  (validateMembershipCertificateShape C certificate).mapError .membership
  certificate.votes.forM fun vote => ofCore (verifyMembershipVoteSignature C vote)

/-- The committed configuration is one of the two of the certificate, or there is none yet and
the proposal fits the staged join. -/
def extendsCommittedConfiguration (site : Site) (host : LocalHost)
    (proposal : MembershipProposalV1) (store : Store) : Except DaemonError Unit :=
  match loadMembershipRecord proposal.proposed.worldId store with
  | .ok current => do
    ofCore (verifyMembershipSignature C current)
    guardMessage (current = proposal.proposed ∨
        current.recordHash C = proposal.previous.recordHash C)
      "membership certificate does not extend the locally committed configuration"
  | .error _ => validateMembershipProposalForLocal C site host proposal store

/-- `validate_membership_certificate_for_local`. -/
def validateMembershipCertificateForLocal (site : Site) (host : LocalHost)
    (certificate : MembershipCertificateV1) (store : Store) : Except DaemonError Unit := do
  validateMembershipCertificateSignatures C certificate
  let proposal := certificate.proposal
  extendsCommittedConfiguration C site host proposal store
  onSome (optional (loadMembershipPromise C proposal.proposed.worldId store)) fun promise =>
    guardMessage (promise.proposal.proposalHash C = proposal.proposalHash C)
      "membership certificate conflicts with this peer's durable prepare"

/-! ## Epochs, recovery and transfers -/

/-- The generation after the accepted one. -/
def nextGeneration (record : EpochRecordV1) (text : String) :
    Except DaemonError AuthorityGeneration :=
  context record.generation.checkedNext text

/-- `authorize_epoch`. -/
def authorizeEpoch (sender : PeerId) (record : EpochRecordV1) (store : Store) :
    Except DaemonError Unit := do
  ofProtocol record.validateSemantics
  authorizeMember C record.worldId sender store
  authorizeMember C record.worldId record.authorityPeerId store
  let descriptor ← ofStorage (loadWorldDescriptor record.worldId store)
  let authority ← required (descriptor.member record.authorityPeerId)
    (.message "epoch authority is not a member")
  guardMessage (authority.banned = false ∧ authority.authorityEligible = true ∧
      authority.publicKey = record.authorityPublicKey)
    "epoch authority is not eligible or key does not match membership"
  ofCore (verifySignature C record.authorityPeerId record.authorityPublicKey record.signingBytes
    record.signature)
  let latest ← required (← ofStorage (latestSnapshot store))
    (.message "cannot accept an authority epoch without a base snapshot")
  guardMessage (latest.stateRoot = record.baseStateHash)
    "epoch base state hash does not match the latest verified snapshot"

/-- `validate_recovery_epoch`. -/
def validateRecoveryEpoch (sender : PeerId) (record : EpochRecordV1)
    (certificate : RecoveryCertificateV1) (store : Store) : Except DaemonError Unit := do
  guardMessage (record.mode = .recovery) "recovery certificate attached to a non-recovery epoch"
  authorizeEpoch C sender record store
  let ballot := certificate.ballot
  ofCore (verifyRecoveryBallotSignature C ballot)
  guardMessage (sender = ballot.candidatePeerId ∧
      record.authorityPeerId = ballot.candidatePeerId ∧
      record.authorityPublicKey = ballot.candidatePublicKey ∧
      record.epochNumber = ballot.targetEpoch ∧
      record.fencingToken = ballot.targetFencingToken ∧
      record.baseStateHash = ballot.baseStateHash)
    "recovery epoch does not match its signed ballot"
  let latest ← required (← ofStorage (latestSnapshot store))
    (.message "recovery epoch has no canonical base snapshot")
  guardMessage (latest.manifestHash C = ballot.baseSnapshotHash ∧
      latest.stateRoot = ballot.baseStateHash)
    "recovery certificate canonical base does not match local verified history"
  let membership ← ofStorage (loadMembershipRecord record.worldId store)
  ofCore (verifyMembershipSignature C membership)
  guardMessage (membership.recordHash C = ballot.membershipHash)
    "recovery certificate membership hash is stale"
  (validateRecoveryCertificateShape C certificate membership.activeIds).mapError
    .recoveryCertificate
  certificate.votes.forM fun vote => ofCore (verifyRecoveryVoteSignature C vote)

/-- `solo_mode_allowed`; a configuration that cannot be read does not allow it. -/
def soloModeAllowed (store : Store) : Bool := store.soloPolicy.getD false

/-- `validate_non_recovery_epoch_transition`. -/
def validateNonRecoveryEpochTransition (current next : EpochRecordV1) (store : Store) :
    Except DaemonError Unit := do
  guardMessage (next.mode ≠ .recovery) "recovery transition requires a quorum certificate"
  if next.authorityPeerId = current.authorityPeerId then do
    guardMessage (next.authorityPublicKey = current.authorityPublicKey)
      "same authority peer cannot change its canonical public key"
    onlyIf (next.mode = .solo) do
      guardMessage (soloModeAllowed store = true)
        "solo advancement is disabled by the signed world configuration"
      let descriptor ← ofStorage (loadWorldDescriptor next.worldId store)
      guardMessage (descriptor.active.length ≤ 1)
        "multi-member worlds cannot enter writable solo mode without a committed clean relinquishment"
  else do
    let transfer ← context (loadTransferRecord next.worldId store)
      "authority change requires a persisted authority transfer"
    guardMessage (transfer.phase = .committed ∧
        transfer.fromPeerId = current.authorityPeerId ∧
        transfer.toPeerId = next.authorityPeerId ∧
        transfer.nextEpoch = next.epochNumber ∧
        transfer.nextFencingToken = next.fencingToken)
      "epoch authority change does not match the committed transfer"

/-- The participant that signs a phase of a transfer. -/
def AuthorityTransferV1.expectedSigner (transfer : AuthorityTransferV1) : PeerId :=
  match transfer.phase with
  | .prepared | .committed => transfer.fromPeerId
  | .accepted => transfer.toPeerId

/-- The only steps from one stored phase to the next. -/
def TransferPhase.continues (previous next : TransferPhase) : Bool :=
  match previous, next with
  | .prepared, .accepted => true
  | .accepted, .committed => true
  | _, _ => false

/-- Two phases belong to one transfer. -/
def AuthorityTransferV1.sameTransfer (a b : AuthorityTransferV1) : Bool :=
  decide (a.fromPeerId = b.fromPeerId)
    && decide (a.toPeerId = b.toPeerId)
    && decide (a.baseSnapshotHash = b.baseSnapshotHash)
    && decide (a.nextEpoch = b.nextEpoch)
    && decide (a.nextFencingToken = b.nextFencingToken)

/-- `validate_transfer`. -/
def validateTransfer (transfer : AuthorityTransferV1) (store : Store) :
    Except DaemonError Unit := do
  let descriptor ← ofStorage (loadWorldDescriptor transfer.worldId store)
  let source ← required (descriptor.member transfer.fromPeerId)
    (.message "transfer source is not a world member")
  let target ← required (descriptor.member transfer.toPeerId)
    (.message "transfer target is not a world member")
  guardMessage (source.banned = false ∧ target.banned = false ∧ target.authorityEligible = true)
    "transfer participants are banned or target is not authority eligible"
  guardMessage (transfer.signerPeerId = transfer.expectedSigner)
    "transfer phase was signed by the wrong participant"
  let signer ← required (descriptor.member transfer.signerPeerId)
    (.message "transfer signer is not a member")
  guardMessage (signer.publicKey = transfer.signerPublicKey)
    "transfer signer key does not match membership"
  let latest ← required (← ofStorage (latestSnapshot store))
    (.message "cannot transfer authority without a snapshot")
  guardMessage (latest.manifestHash C = transfer.baseSnapshotHash)
    "transfer does not reference the exact latest snapshot"
  onSome (optional (loadEpochRecord transfer.worldId store)) fun epoch => do
    let expected ← nextGeneration epoch "accepted authority generation is exhausted"
    guardMessage (transfer.nextEpoch = expected.epoch ∧
        transfer.nextFencingToken = expected.fencingToken)
      "transfer generation does not advance the accepted epoch exactly once"
  match loadTransferRecord transfer.worldId store with
  | .ok previous =>
    guardMessage (previous.phase.continues transfer.phase = true ∧
        previous.sameTransfer transfer = true)
      "authority transfer does not continue the persisted transfer state"
  | .error _ =>
    guardMessage (transfer.phase = .prepared)
      "authority transfer must begin in the prepared phase"

/-! ## Snapshots, sleep and invitations -/

/-- `authorize_manifest`. -/
def authorizeManifest (sender : PeerId) (manifest : SnapshotManifestV1) (store : Store) :
    Except DaemonError Unit := do
  let _ ← ofStorage (loadWorld C manifest.worldId store)
  authorizeMember C manifest.worldId sender store
  let descriptor ← ofStorage (loadWorldDescriptor manifest.worldId store)
  let authority ← required (descriptor.member manifest.authorityPeerId)
    (.message "snapshot authority is not an authorized world member")
  guardMessage (authority.banned = false ∧ authority.authorityEligible = true ∧
      authority.publicKey = manifest.authorityPublicKey)
    "snapshot authority is not eligible or public key does not match membership"
  ofCore (verifySnapshotSignature C manifest)
  ofStorage (validateReplicaHistory C manifest store)
  onSome (optional (loadEpochRecord manifest.worldId store)) fun epoch =>
    guardMessage (manifest.epoch = epoch.epochNumber ∧
        manifest.authorityPeerId = epoch.authorityPeerId ∧
        manifest.authorityPublicKey = epoch.authorityPublicKey)
      "snapshot does not belong to the accepted authority epoch"

/-- `find_descriptor`. -/
def findDescriptor (manifest : SnapshotManifestV1) (hash : Hash32) : Option BlobDescriptor :=
  (manifest.entries.find? fun entry => decide (entry.blob.hash = hash)).map SnapshotEntry.blob

/-- `load_sleep_record_fail_closed`: only a missing file counts as awake. -/
def loadSleepRecordFailClosed (world : WorldId) (store : Store) :
    Except DaemonError (Option SleepRecordV1) :=
  if store.sleep.exists then do
    let record ← ofStorage (loadSleepRecord world store)
    ofCore (verifySleepRecordSignature C record)
    pure (some record)
  else pure none

/-- `validate_sleep_recovery_base`. -/
def validateSleepRecoveryBase (record : SleepRecordV1) (epoch : EpochRecordV1)
    (latest : SnapshotManifestV1) : Except DaemonError Unit := do
  ofCore (verifySleepRecordSignature C record)
  guardMessage (record.worldId = epoch.worldId ∧
      record.epoch = epoch.epochNumber ∧
      record.fencingToken = epoch.fencingToken ∧
      record.authorityPeerId = epoch.authorityPeerId ∧
      record.authorityPublicKey = epoch.authorityPublicKey ∧
      record.latestSnapshotHash = latest.manifestHash C)
    "sleep boundary does not match the accepted generation and exact canonical snapshot"

/-- `MAX_INVITE_LIFETIME_MS`. -/
def maxInviteLifetimeMs : Nat := 24 * 60 * 60000

/-- `validate_invite_expiry`. -/
def validateInviteExpiry (expiresUnixMs nowUnixMs : Nat) : Except DaemonError Unit := do
  guardMessage (nowUnixMs < expiresUnixMs) "invite expired"
  guardMessage (nowUnixMs + maxInviteLifetimeMs ≤ u64Max)
    "invite lifetime overflows the timestamp range"
  guardMessage (expiresUnixMs ≤ nowUnixMs + maxInviteLifetimeMs)
    "invite expiry exceeds the maximum 1440-minute bearer lifetime"

/-! ## Readiness and the recovery window -/

/-- `host_capability_ready`. -/
def hostCapabilityReady (capability : HostCapabilityV1) (world : WorldId) (fingerprint : Hash32) :
    Bool :=
  decide (capability.worldId = world)
    && decide (capability.compatibilityFingerprint = fingerprint)
    && decide (capability.runtime = .ready)
    && decide (capability.serverMods = .ready)
    && capability.conflictFree

/-- The peer has an authenticated connection. -/
def LeaseRuntime.connected (runtime : LeaseRuntime) (peer : PeerId) : Bool :=
  runtime.authenticatedPeers.contains peer

/-- The peer's status, if it is fresh. -/
def LeaseRuntime.freshStatus (runtime : LeaseRuntime) (peer : PeerId) (now : Nat) :
    Option WorldStatusV1 :=
  ((runtime.peerStatus peer).filter fun observed =>
    decide (now - observed.observedAt ≤ statusFreshness)).map ObservedStatus.status

/-- The peer's host capability, if it is fresh. -/
def LeaseRuntime.freshCapability (runtime : LeaseRuntime) (peer : PeerId) (now : Nat) :
    Option HostCapabilityV1 :=
  ((runtime.peerCapability peer).filter fun observed =>
    decide (now - observed.observedAt ≤ statusFreshness)).map ObservedCapability.capability

/-- `observed_host_candidate_ready`. -/
def observedHostCandidateReady (runtime : LeaseRuntime) (world : WorldId) (peer : PeerId)
    (fingerprint : Hash32) (now : Nat) : Bool :=
  runtime.connected peer
    && (runtime.freshCapability peer now).any fun capability =>
      hostCapabilityReady capability world fingerprint

/-- `status_matches_canonical`: a peer reports exactly the local epoch and snapshot. -/
def statusMatchesCanonical (status : WorldStatusV1) (descriptor : WorldDescriptorV1)
    (epoch : EpochRecordV1) (latest : SnapshotManifestV1) : Bool :=
  decide (status.worldId = descriptor.worldId)
    && decide (status.epoch = epoch.epochNumber)
    && decide (status.sequence = latest.sequence)
    && decide (status.latestSnapshot = some (latest.manifestHash C))
    && decide (status.stateHash = some latest.stateRoot)
    && decide (status.compatibilityFingerprint = descriptor.compatibilityFingerprint)

/-- `recovery_window_open`: the last lease of the generation ran out long enough ago. -/
def recoveryWindowOpen (runtime : LeaseRuntime) (generation : AuthorityGeneration) (now : Nat) :
    Bool :=
  let deadline := runtime.recoveryNotBefore.any fun deadline => decide (deadline ≤ now)
  match runtime.inboundLease with
  | some lease =>
    if generation < lease.generation then false
    else if lease.generation = generation then decide (lease.expiresAt + recoverySettleDelay ≤ now)
    else deadline
  | none => deadline

/-- `surviving_recovery_quorum`, over the readiness observations of the other members. -/
def survivingRecoveryQuorum (descriptor : WorldDescriptorV1) (epoch : EpochRecordV1)
    (latest : SnapshotManifestV1) (localPeer : PeerId) (runtime : LeaseRuntime) (now : Nat) : Bool :=
  match descriptor.member localPeer with
  | none => false
  | some member =>
    let survivors := descriptor.active.filter fun other =>
      decide (other.peerId ≠ localPeer) && decide (other.peerId ≠ epoch.authorityPeerId)
        && runtime.connected other.peerId
        && (runtime.freshStatus other.peerId now).any fun status =>
          statusMatchesCanonical C status descriptor epoch latest
    decide (localPeer ≠ epoch.authorityPeerId) && !member.banned && member.authorityEligible
      && hasQuorum descriptor.active.length (1 + survivors.length)

/-- `local_recovery_quorum_without_authority`. -/
def localRecoveryQuorumWithoutAuthority (site : Site) (runtime : LeaseRuntime) (store : Store) :
    Except DaemonError Bool :=
  match loadWorldDescriptor site.world store, loadEpochRecord site.world store with
  | .ok descriptor, .ok epoch => do
    match ← ofStorage (latestSnapshot store) with
    | none => pure false
    | some latest =>
      pure (survivingRecoveryQuorum C descriptor epoch latest (site.peer C) runtime site.now)
  | _, _ => pure false

/-- `local_host_capability`. -/
def localHostCapability (host : LocalHost) (recoveryQuorumWithoutAuthority : Bool) :
    Option HostCapabilityV1 :=
  host.capability.map fun capability =>
    { capability with recoveryQuorumWithoutAuthority := recoveryQuorumWithoutAuthority }

/-- `world_status`. -/
def worldStatus (site : Site) (store : Store) : Except DaemonError (Option WorldStatusV1) :=
  match loadWorld C site.world store with
  | .error _ => pure none
  | .ok metadata => do
    let latest ← ofStorage (latestSnapshot store)
    let eligible := (optional (loadWorldDescriptor site.world store)).any fun descriptor =>
      (descriptor.member (site.peer C)).any fun member =>
        member.authorityEligible && !member.banned
    pure (some {
      worldId := site.world
      epoch := match loadEpochRecord site.world store with
        | .ok record => record.epochNumber
        | .error _ => (latest.map SnapshotManifestV1.epoch).getD 0
      sequence := (latest.map SnapshotManifestV1.sequence).getD 0
      latestSnapshot := latest.map fun manifest => manifest.manifestHash C
      stateHash := latest.map SnapshotManifestV1.stateRoot
      compatibilityFingerprint := metadata.genesis.compatibilityFingerprint
      authorityEligible := eligible })

/-- `validate_generation_response`. -/
def validateGenerationResponse (generation : AuthorityGeneration) (epoch fencingToken : Nat)
    (kind : String) : Except DaemonError Unit :=
  guardMessage (epoch = generation.epoch ∧ fencingToken = generation.fencingToken)
    s!"{kind} acknowledgement generation mismatch"

end SwarmCraft
