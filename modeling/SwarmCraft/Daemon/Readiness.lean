import SwarmCraft.Daemon.Tick
import Mathlib.Algebra.Group.Nat.Defs

/-!
# The shutdown report of a host

Before each tick the daemon publishes whether its machine can be switched off: it is safe
when another member is current, can run the world and says of itself that it would still
find a recovery quorum without the host.
-/

namespace SwarmCraft

open Checked Effect

variable (C : Crypto)

/-- `HostReadinessState`. -/
inductive HostReadinessState where
  | safe
  | sleeping
  | worldWillStop
  | syncing
  | blockedByRuntime
  | blockedByMods
  | blockedByQuorum
  | degradedSafety
  | conflict
  | notCurrentHost
  | unknown
  deriving DecidableEq

/-- `PeerReadinessObservation`. -/
structure PeerReadinessObservation where
  peerId : PeerId
  reachable : Bool
  status : Option WorldStatusV1
  capability : Option HostCapabilityV1
  deriving DecidableEq

/-- `HostPeerReadiness`. -/
structure HostPeerReadiness where
  peerId : PeerId
  reachable : Bool
  currentState : Bool
  authorityEligible : Bool
  capabilityFresh : Bool
  runtime : HostRuntimeReadinessV1
  serverMods : ServerModsReadinessV1
  conflictFree : Bool
  recoveryQuorumWithoutAuthority : Bool
  deriving DecidableEq

/-- `HostReadinessReport`. -/
structure HostReadinessReport where
  worldId : WorldId
  generatedUnixMs : Nat
  localPeerId : PeerId
  currentHostPeerId : Option PeerId
  state : HostReadinessState
  safeToShutdown : Bool
  successorPeerId : Option PeerId
  handoffCandidatePeerId : Option PeerId
  worldDataReplicated : Bool
  detail : String
  peers : List HostPeerReadiness
  deriving DecidableEq

/-- The `Display` of a peer id: 64 hexadecimal digits after its prefix. -/
def PeerId.text (peer : PeerId) : String :=
  "scpeer:" ++ String.ofList ((List.range 64).reverse.map fun place =>
    Nat.digitChar (peer.bytes / 16 ^ place % 16))

/-- `peer_readiness_observations`. -/
def peerReadinessObservations (descriptor : WorldDescriptorV1) (localPeer : PeerId)
    (runtime : LeaseRuntime) (now : Nat) : List PeerReadinessObservation :=
  (descriptor.members.filter fun member =>
    decide (member.peerId ≠ localPeer) && !member.banned).map fun member =>
      { peerId := member.peerId
        reachable := runtime.connected member.peerId
        status := runtime.freshStatus member.peerId now
        capability := runtime.freshCapability member.peerId now }

/-- The capability is about this world as it is set up here. -/
def capabilityMatches (descriptor : WorldDescriptorV1) (capability : HostCapabilityV1) : Bool :=
  decide (capability.worldId = descriptor.worldId)
    && decide (capability.compatibilityFingerprint = descriptor.compatibilityFingerprint)

/-- The body of the loop of `evaluate_host_readiness`: what is known about one member. -/
def hostPeerReadiness (descriptor : WorldDescriptorV1) (epoch : EpochRecordV1)
    (latest : SnapshotManifestV1) (observations : List PeerReadinessObservation)
    (member : WorldMemberV1) : HostPeerReadiness :=
  let observation := observations.find? fun value => decide (value.peerId = member.peerId)
  let status := observation.bind PeerReadinessObservation.status
  let capability := observation.bind PeerReadinessObservation.capability
  { peerId := member.peerId
    reachable := observation.any PeerReadinessObservation.reachable
    currentState := status.any fun status =>
      statusMatchesCanonical C status descriptor epoch latest
    authorityEligible := member.authorityEligible && status.any WorldStatusV1.authorityEligible
    capabilityFresh := capability.isSome
    runtime := match capability with
      | some value => if capabilityMatches descriptor value then value.runtime else .incompatible
      | none => .unverified
    serverMods := match capability with
      | some value => if capabilityMatches descriptor value then value.serverMods else .incompatible
      | none => .unverified
    conflictFree := capability.any fun value =>
      capabilityMatches descriptor value && value.conflictFree
    recoveryQuorumWithoutAuthority := capability.any fun value =>
      capabilityMatches descriptor value && value.recoveryQuorumWithoutAuthority }

/-- The members that the report lists, by the text of their ids. -/
def hostPeers (localPeer : PeerId) (descriptor : WorldDescriptorV1) (epoch : EpochRecordV1)
    (latest : SnapshotManifestV1) (observations : List PeerReadinessObservation) :
    List HostPeerReadiness :=
  ((descriptor.members.filter fun member =>
    decide (member.peerId ≠ localPeer) && !member.banned).map
      (hostPeerReadiness C descriptor epoch latest observations)).insertionSort
        fun left right => left.peerId.text ≤ right.peerId.text

/-- The member is reachable, current and may become the authority. -/
def HostPeerReadiness.eligibleCurrent (peer : HostPeerReadiness) : Bool :=
  peer.reachable && peer.currentState && peer.authorityEligible

/-- The member could run the world. -/
def HostPeerReadiness.canHost (peer : HostPeerReadiness) : Bool :=
  decide (peer.runtime = .ready) && decide (peer.serverMods = .ready) && peer.conflictFree

/-- The verdict of a report: what it says besides the facts it lists. -/
structure HostReadinessVerdict where
  state : HostReadinessState
  safeToShutdown : Bool
  successorPeerId : Option PeerId
  handoffCandidatePeerId : Option PeerId
  detail : String
  deriving DecidableEq

/-- A verdict that the machine has to stay on. -/
def HostReadinessVerdict.refuse (state : HostReadinessState) (detail : String) :
    HostReadinessVerdict :=
  ⟨state, false, none, none, detail⟩

/-- The verdict of `evaluate_host_readiness` when no member can take over. -/
def blockedVerdict (peers : List HostPeerReadiness) : HostReadinessVerdict :=
  let eligible := peers.filter HostPeerReadiness.eligibleCurrent
  if eligible.any fun peer => decide (peer.runtime ≠ .ready) then
    .refuse .blockedByRuntime ("Another current replica is authority-eligible, but no successor " ++
      "has a verified compatible Minecraft/Fabric runtime on that machine.")
  else if eligible.any fun peer => decide (peer.serverMods ≠ .ready) then
    .refuse .blockedByMods ("Another current replica can host in principle, but its required " ++
      "server-mod set is missing, incompatible, or not yet verified.")
  else if eligible.any fun peer => !peer.conflictFree then
    .refuse .degradedSafety ("A possible successor reports unresolved history safety state and " ++
      "is not eligible for a green shutdown decision.")
  else if peers.any fun peer => peer.reachable && !peer.currentState then
    .refuse .syncing ("Wait before shutting down. At least one reachable peer has not yet proven " ++
      "it holds the exact current canonical snapshot.")
  else if peers.any HostPeerReadiness.currentState then
    .refuse .worldWillStop ("No other reachable, authority-eligible device is ready to keep " ++
      "hosting. A current replica exists, but storage replication alone does not make it a host.")
  else
    .refuse .worldWillStop ("No other reachable device currently proves it can keep this world " ++
      "online. Shutting down this computer will make the world unavailable.")

/-- The verdict of `evaluate_host_readiness` at the current host. -/
def hostVerdict (peers : List HostPeerReadiness) : HostReadinessVerdict :=
  match peers.find? fun peer =>
      peer.eligibleCurrent && peer.canHost && peer.recoveryQuorumWithoutAuthority with
  | some successor =>
    ⟨.safe, true, some successor.peerId, some successor.peerId,
      s!"Safe to shut down. {successor.peerId.text} has the current world state, a verified " ++
      "compatible runtime and mods, and can still form the recovery quorum after this host " ++
      "disappears."⟩
  | none =>
    match peers.find? fun peer => peer.eligibleCurrent && peer.canHost with
    | some candidate =>
      ⟨.blockedByQuorum, false, none, some candidate.peerId,
        s!"{candidate.peerId.text} is ready to host, but automatic recovery would not retain " ++
        "quorum after this computer disappears. Transfer hosting before shutdown."⟩
    | none => blockedVerdict peers

/-- The verdict of `evaluate_host_readiness`. -/
def readinessVerdict (localPeer : PeerId) (epoch : EpochRecordV1) (hasConflicts : Bool)
    (peers : List HostPeerReadiness) : HostReadinessVerdict :=
  if localPeer ≠ epoch.authorityPeerId then
    .refuse .notCurrentHost ("This device is not the current host. SwarmCraft has not proven " ++
      "that removing this quorum member is safe, so shutdown readiness is intentionally " ++
      "fail-closed.")
  else if hasConflicts then
    .refuse .conflict ("Conflicting world history is preserved on this device. Resolve the " ++
      "conflict before relying on automatic host takeover.")
  else if epoch.mode = .solo then
    .refuse .degradedSafety ("This world is running with solo authority history. Wait for quorum " ++
      "reconciliation before treating another replica as a safe automatic successor.")
  else hostVerdict peers

/-- `evaluate_host_readiness`. -/
def evaluateHostReadiness (localPeer : PeerId) (descriptor : WorldDescriptorV1)
    (epoch : EpochRecordV1) (latest : SnapshotManifestV1) (hasConflicts : Bool)
    (observations : List PeerReadinessObservation) (unixMillis : Nat) : HostReadinessReport :=
  let peers := hostPeers C localPeer descriptor epoch latest observations
  let verdict := readinessVerdict localPeer epoch hasConflicts peers
  { worldId := descriptor.worldId
    generatedUnixMs := unixMillis
    localPeerId := localPeer
    currentHostPeerId := some epoch.authorityPeerId
    state := verdict.state
    safeToShutdown := verdict.safeToShutdown
    successorPeerId := verdict.successorPeerId
    handoffCandidatePeerId := verdict.handoffCandidatePeerId
    worldDataReplicated := peers.any HostPeerReadiness.currentState
    detail := verdict.detail
    peers := peers }

/-- `unknown_report`. -/
def unknownReport (world : WorldId) (localPeer : PeerId) (currentHost : Option PeerId)
    (detail : String) (unixMillis : Nat) : HostReadinessReport where
  worldId := world
  generatedUnixMs := unixMillis
  localPeerId := localPeer
  currentHostPeerId := currentHost
  state := .unknown
  safeToShutdown := false
  successorPeerId := none
  handoffCandidatePeerId := none
  worldDataReplicated := false
  detail := detail
  peers := []

/-- The report on a world that sleeps. -/
def sleepingReport (world : WorldId) (localPeer : PeerId) (epoch : EpochRecordV1)
    (observations : List PeerReadinessObservation) (unixMillis : Nat) : HostReadinessReport where
  worldId := world
  generatedUnixMs := unixMillis
  localPeerId := localPeer
  currentHostPeerId := some epoch.authorityPeerId
  state := .sleeping
  safeToShutdown := true
  successorPeerId := none
  handoffCandidatePeerId := none
  worldDataReplicated := observations.any fun peer => peer.status.isSome
  detail := "This world is already durably sleeping. Powering off this device will not " ++
    "interrupt a running Minecraft server."
  peers := []

/-- `evaluate_from_storage`; `display` is how an error reads. -/
def evaluateFromStorage (display : DaemonError → String) (store : Store) (localPeer : PeerId)
    (world : WorldId) (observations : List PeerReadinessObservation) (unixMillis : Nat) :
    Except DaemonError HostReadinessReport :=
  match loadWorldDescriptor world store with
  | .error error => pure (unknownReport world localPeer none
      ("World membership is unavailable: " ++ display (.storage error)) unixMillis)
  | .ok descriptor =>
    match loadEpochRecord world store with
    | .error error => pure (unknownReport world localPeer none
        ("Authority state is unavailable: " ++ display (.storage error)) unixMillis)
    | .ok epoch =>
      if (optional (loadSleepRecord world store)).isSome then
        pure (sleepingReport world localPeer epoch observations unixMillis)
      else do
        match ← ofStorage (latestSnapshot store) with
        | none => pure (unknownReport world localPeer (some epoch.authorityPeerId)
            "No canonical snapshot is available." unixMillis)
        | some latest =>
          match verifySnapshot C store latest with
          | .error error => pure (unknownReport world localPeer (some epoch.authorityPeerId)
              ("The latest snapshot could not be verified: " ++ display (.storage error)) unixMillis)
          | .ok _ =>
            match verifySnapshotSignature C latest with
            | .error error => pure (unknownReport world localPeer (some epoch.authorityPeerId)
                ("The latest snapshot signature could not be verified: " ++ display (.core error))
                unixMillis)
            | .ok _ => pure (evaluateHostReadiness C localPeer descriptor epoch latest
                (!store.soloConflicts.isEmpty) observations unixMillis)

variable (site : Site) (display : DaemonError → String)

/-- The report of `publish_host_readiness_snapshot`. -/
def hostReadinessSnapshot : Daemon HostReadinessReport := do
  let store ← readStore
  let runtime ← readRuntime
  let host ← readHost
  let observations := match loadWorldDescriptor site.world store with
    | .ok descriptor => peerReadinessObservations descriptor (site.peer C) runtime site.now
    | .error _ => []
  check (evaluateFromStorage C display store (site.peer C) site.world observations host.unixMillis)

/-- The beginning of `maintain_authority_leases` for the stored world, up to the report. -/
def publishedReport : Daemon HostReadinessReport := do
  recoverCommittedMembership C site
  hostReadinessSnapshot C site display

end SwarmCraft
