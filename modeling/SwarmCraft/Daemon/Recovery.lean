import SwarmCraft.Daemon.Membership

/-!
# Recovery ballots, epoch records and leases

The handlers that vote for a recovery ballot and that accept epoch records, and those of solo
histories. A follower grants the accepted authority a lease; the authority keeps its server
permit alive while a quorum of fresh grants stands behind it.
-/

namespace SwarmCraft

open Checked Effect

variable (C : Crypto) (site : Site)

/-! ## Voting -/

/-- The votes that leave a peer with an answer of `promise_recovery_ballot`: the stored one. -/
def recoveryVotesReleased (wake : Bool) (result : RecoveryPromiseResult) (store : Store) :
    List Event :=
  match result, store.recoveryPromise with
  | .rejected _, _ => []
  | _, .present promise => [.votedRecovery promise.ballot promise.vote wake]
  | _, _ => []

/-- `promise_recovery_ballot` of the local vote. -/
def promiseBallot (ballot : RecoveryBallotV1) (vote : RecoveryVoteV1) (wake : Bool) :
    Daemon RecoveryPromiseResult :=
  saveAnswer (recoveryVotesReleased wake) (promiseRecoveryBallot C ballot vote)

/-- The local vote for a ballot. -/
def recoveryVoteFor (ballot : RecoveryBallotV1) : Except DaemonError RecoveryVoteV1 :=
  ofCore (signRecoveryVote C site.identity {
    protocolVersion := protocolVersionV1
    worldId := ballot.worldId
    ballotHash := ballot.ballotHash C
    baseEpoch := ballot.baseEpoch
    targetEpoch := ballot.targetEpoch
    round := ballot.round
    candidatePeerId := ballot.candidatePeerId
    voterPeerId := site.peer C
    voterPublicKey := site.identity.publicKey
    signature := .empty })

/-- The candidate is a member that may become authority. -/
def recoveryCandidateChecks (ballot : RecoveryBallotV1) (store : Store) :
    Except DaemonError WorldDescriptorV1 := do
  let descriptor ← ofStorage (loadWorldDescriptor ballot.worldId store)
  let candidate ← required (descriptor.member ballot.candidatePeerId)
    (.message "recovery candidate is not a member")
  guardMessage (candidate.banned = false ∧ candidate.authorityEligible = true ∧
      candidate.publicKey = ballot.candidatePublicKey)
    "recovery candidate is not authority eligible or its key does not match membership"
  pure descriptor

/-- The ballot targets the generation after the accepted one. -/
def ballotGenerationChecks (ballot : RecoveryBallotV1) (store : Store) :
    Except DaemonError EpochRecordV1 := do
  let current ← ofStorage (loadEpochRecord ballot.worldId store)
  let expected ← nextGeneration current "accepted authority generation is exhausted"
  guardMessage (ballot.baseEpoch = current.epochNumber ∧
      ballot.baseFencingToken = current.fencingToken ∧
      ballot.targetEpoch = expected.epoch ∧
      ballot.targetFencingToken = expected.fencingToken)
    "recovery ballot does not target the next accepted generation"
  pure current

/-- The ballot is based on the canonical head. -/
def ballotSnapshotChecks (ballot : RecoveryBallotV1) (store : Store) :
    Except DaemonError SnapshotManifestV1 := do
  let latest ← required (← ofStorage (latestSnapshot store))
    (.message "recovery ballot has no canonical base snapshot")
  ofStorage (verifySnapshot C store latest)
  ofCore (verifySnapshotSignature C latest)
  guardMessage (latest.manifestHash C = ballot.baseSnapshotHash ∧
      latest.stateRoot = ballot.baseStateHash)
    "recovery ballot canonical base does not match the latest verified snapshot"
  pure latest

/-- Whether the world sleeps exactly on the base of a recovery. -/
def wakeBoundary (world : WorldId) (current : EpochRecordV1) (latest : SnapshotManifestV1)
    (store : Store) : Except DaemonError Bool := do
  match ← loadSleepRecordFailClosed C world store with
  | some record => do
    validateSleepRecoveryBase C record current latest
    pure true
  | none => pure false

/-- A voter that is not waking a sleeping world waits for the lease to run out. -/
def leaseExpiredChecks (current : EpochRecordV1) (runtime : LeaseRuntime) :
    Except DaemonError Unit := do
  guardMessage (runtime.connected current.authorityPeerId = false)
    "cannot vote for recovery while the accepted authority is connected"
  guardMessage (recoveryWindowOpen runtime current.generation site.now = true)
    "cannot vote for recovery before the accepted authority lease expires"

/-- The candidate reported exactly the base it asks votes for, and that it can host. -/
def candidateStatusChecks (ballot : RecoveryBallotV1) (descriptor : WorldDescriptorV1)
    (latest : SnapshotManifestV1) (runtime : LeaseRuntime) : Except DaemonError Unit := do
  let status ← required (runtime.freshStatus ballot.candidatePeerId site.now)
    (.message "recovery candidate is missing fresh authenticated canonical status")
  guardMessage (status.worldId = ballot.worldId ∧
      status.epoch = ballot.baseEpoch ∧
      status.sequence = latest.sequence ∧
      status.latestSnapshot = some ballot.baseSnapshotHash ∧
      status.stateHash = some ballot.baseStateHash ∧
      status.compatibilityFingerprint = descriptor.compatibilityFingerprint)
    "recovery candidate status does not match the exact canonical base"
  guardMessage (observedHostCandidateReady runtime ballot.worldId ballot.candidatePeerId
      descriptor.compatibilityFingerprint site.now = true)
    "recovery candidate lacks fresh runtime, mod, and conflict-free host capability"

/-- The ballot was made over the stored membership record. -/
def ballotMembershipChecks (ballot : RecoveryBallotV1) (store : Store) :
    Except DaemonError Unit := do
  let membership ← ofStorage (loadMembershipRecord ballot.worldId store)
  ofCore (verifyMembershipSignature C membership)
  guardMessage (membership.recordHash C = ballot.membershipHash)
    "recovery ballot membership hash is stale"

/-- The checks of `RecoveryBallot`; the answer is whether the vote wakes a sleeping world. -/
def recoveryBallotChecks (sender : PeerId) (ballot : RecoveryBallotV1) (runtime : LeaseRuntime)
    (store : Store) : Except DaemonError Bool := do
  ensureNoMembershipPrepare C ballot.worldId store
  guardMessage (sender = ballot.candidatePeerId)
    "recovery ballot sender is not the signed candidate"
  ofCore (verifyRecoveryBallotSignature C ballot)
  let descriptor ← recoveryCandidateChecks ballot store
  let current ← ballotGenerationChecks ballot store
  let latest ← ballotSnapshotChecks C ballot store
  let wake ← wakeBoundary C ballot.worldId current latest store
  onlyIf (wake = false) (leaseExpiredChecks site current runtime)
  candidateStatusChecks site ballot descriptor latest runtime
  ballotMembershipChecks C ballot store
  pure wake

/-- `handle_request`, `RecoveryBallot`. -/
def handleRecoveryBallot (channel : Channel) (ballot : RecoveryBallotV1) : Daemon Unit := do
  let store ← readStore
  let runtime ← readRuntime
  let wake ← check (recoveryBallotChecks C site channel.requester ballot runtime store)
  let vote ← check (recoveryVoteFor C site ballot)
  let result ← promiseBallot C ballot vote wake
  match result with
  | .rejected highestRound =>
    respond channel (.recoveryRejected highestRound
      "durable recovery promise rejects stale or conflicting ballot")
  | _ => do
    let store ← readStore
    let durable ← check (ofStorage (loadRecoveryPromise C ballot.worldId store))
    respond channel (.recoveryVote durable.vote)

/-! ## Accepting epoch records -/

/-- A record directly extends the accepted one. -/
def extendsEpoch (record current : EpochRecordV1) (text : String) : Except DaemonError Unit := do
  let expected ← nextGeneration current "accepted authority generation is exhausted"
  guardMessage (record.epochNumber = expected.epoch ∧
      record.fencingToken = expected.fencingToken ∧
      record.previousEpochHash = some (epochRecordHash C current)) text

/-- The certificate is not older than the local promise, nor in conflict with it. -/
def certificateFitsPromise (certificate : RecoveryCertificateV1)
    (promise : DurableRecoveryPromiseV1) : Except DaemonError Unit := do
  guardMessage (promise.ballot.round ≤ certificate.ballot.round)
    "certified recovery epoch is stale relative to a newer durable promise"
  onlyIf (promise.ballot.round = certificate.ballot.round) <|
    guardMessage (promise.ballot.ballotHash C = certificate.ballot.ballotHash C)
      "certified recovery epoch conflicts with this peer's durable same-round promise"

/-- The checks of `RecoveryEpoch` before the idempotent answer. -/
def recoveryEpochChecks (sender : PeerId) (record : EpochRecordV1)
    (certificate : RecoveryCertificateV1) (store : Store) : Except DaemonError Unit := do
  ensureNoMembershipPrepare C record.worldId store
  validateRecoveryEpoch C sender record certificate store

/-- The checks of `RecoveryEpoch` on a record that is not the accepted one yet. -/
def newRecoveryEpochChecks (record : EpochRecordV1) (certificate : RecoveryCertificateV1)
    (store : Store) : Except DaemonError Unit := do
  onSome (optional (loadEpochRecord record.worldId store)) fun current =>
    extendsEpoch C record current
      "certified recovery epoch does not directly extend the accepted epoch"
  onSome (optional (loadRecoveryPromise C record.worldId store))
    (certificateFitsPromise C certificate)

/-- The writes that follow an accepted recovery record. -/
def leaveSleep (record : EpochRecordV1) : Daemon Unit := do
  write clearSleepRecord
  write clearWorldWakeRequest
  write (clearRecoveryPromiseAfterEpochAdvance C record.worldId record.epochNumber)

/-- `handle_request`, `RecoveryEpoch`. -/
def handleRecoveryEpoch (channel : Channel) (record : EpochRecordV1)
    (certificate : RecoveryCertificateV1) : Daemon Unit := do
  let store ← readStore
  check (recoveryEpochChecks C channel.requester record certificate store)
  if optional (loadEpochRecord record.worldId store) = some record then do
    save [] (saveRecoveryCertificate C certificate)
    leaveSleep C record
    respond channel (.epochAccepted record.epochNumber record.fencingToken)
  else do
    check (newRecoveryEpochChecks C record certificate store)
    save [] (saveRecoveryCertificate C certificate)
    save [.storedEpoch record] (saveEpochRecord record)
    leaveSleep C record
    updateRuntime fun runtime => { runtime with inboundLease := none }
    respond channel (.epochAccepted record.epochNumber record.fencingToken)

/-- The checks of `Epoch` before the idempotent answer. -/
def epochChecks (sender : PeerId) (record : EpochRecordV1) (store : Store) :
    Except DaemonError Unit := do
  ensureNoMembershipPrepare C record.worldId store
  guardMessage (record.mode ≠ .recovery) "recovery epoch requires a durable quorum certificate"
  authorizeEpoch C sender record store

/-- The checks of `Epoch` on a record that is not the accepted one yet. They look at no recovery
promise. -/
def newEpochChecks (record : EpochRecordV1) (store : Store) : Except DaemonError Unit :=
  match loadEpochRecord record.worldId store with
  | .ok current => do
    extendsEpoch C record current
      "epoch and fencing token must advance exactly once from the accepted epoch"
    validateNonRecoveryEpochTransition current record store
  | .error _ => do
    let latest ← ofStorage (latestSnapshot store)
    onSome latest fun latest =>
      guardMessage (latest.epoch ≤ record.epochNumber ∧ record.fencingToken ≠ 0)
        "epoch record is older than the local canonical snapshot"

/-- `handle_request`, `Epoch`. -/
def handleEpoch (channel : Channel) (record : EpochRecordV1) : Daemon Unit := do
  let store ← readStore
  check (epochChecks C channel.requester record store)
  if optional (loadEpochRecord record.worldId store) = some record then
    respond channel (.epochAccepted record.epochNumber record.fencingToken)
  else do
    check (newEpochChecks C record store)
    save [.storedEpoch record] (saveEpochRecord record)
    write clearSleepRecord
    respond channel (.epochAccepted record.epochNumber record.fencingToken)

/-! ## Transfers and sleep -/

/-- The checks of `AuthorityTransfer`. -/
def authorityTransferChecks (transfer : AuthorityTransferV1) (store : Store) :
    Except DaemonError Unit := do
  ensureNoMembershipPrepare C transfer.worldId store
  ofCore (verifyTransferSignature C transfer)
  authorizeMember C transfer.worldId transfer.signerPeerId store
  validateTransfer C transfer store

/-- `handle_request`, `AuthorityTransfer`. -/
def handleAuthorityTransfer (channel : Channel) (transfer : AuthorityTransferV1) :
    Daemon Unit := do
  let store ← readStore
  check (authorityTransferChecks C transfer store)
  save [] (saveTransferRecord transfer)
  respond channel .transferAccepted

/-- The checks of `Sleep`. -/
def sleepChecks (sender : PeerId) (record : SleepRecordV1) (store : Store) :
    Except DaemonError Unit := do
  ensureNoMembershipPrepare C record.worldId store
  guardMessage (sender = record.authorityPeerId) "sleep sender is not the signed authority"
  ofCore (verifySleepRecordSignature C record)
  authorizeMember C record.worldId record.authorityPeerId store
  let descriptor ← ofStorage (loadWorldDescriptor record.worldId store)
  let member ← required (descriptor.member record.authorityPeerId)
    (.message "sleep authority is not a member")
  guardMessage (member.publicKey = record.authorityPublicKey ∧ member.authorityEligible = true ∧
      member.banned = false) "sleep authority is not eligible or key does not match membership"
  let epoch ← ofStorage (loadEpochRecord record.worldId store)
  guardMessage (record.epoch = epoch.epochNumber ∧
      record.fencingToken = epoch.fencingToken ∧
      record.authorityPeerId = epoch.authorityPeerId)
    "sleep record does not match the accepted authority generation"
  let latest ← required (← ofStorage (latestSnapshot store))
    (.message "cannot sleep a world without a snapshot")
  guardMessage (latest.manifestHash C = record.latestSnapshotHash)
    "sleep record does not reference the exact latest snapshot"

/-- `handle_request`, `Sleep`. -/
def handleSleep (channel : Channel) (record : SleepRecordV1) : Daemon Unit := do
  let store ← readStore
  check (sleepChecks C channel.requester record store)
  save [] (saveSleepRecord record)
  respond channel (.sleepAccepted record.epoch record.fencingToken)

/-! ## Solo histories -/

/-- The checks of `SoloBranch`. -/
def soloBranchChecks (sender : PeerId) (branch : SoloBranchV1) (store : Store) :
    Except DaemonError Unit := do
  ofCore (verifySoloBranchSignature C branch)
  authorizeMember C branch.worldId sender store
  authorizeMember C branch.worldId branch.authorityPeerId store
  guardMessage (sender = branch.authorityPeerId) "solo branch must be sent by its signed authority"

/-- How a received branch relates to the stored one; without one it is adopted. -/
def soloReconciliation (branch : SoloBranchV1) (store : Store) :
    Except DaemonError SoloReconciliation :=
  match loadSoloBranch branch.worldId store with
  | .ok here => (reconcileSoloHistory here branch).mapError .soloHistory
  | .error _ => pure .adoptRemote

/-- `handle_request`, `SoloBranch`. -/
def handleSoloBranch (channel : Channel) (branch : SoloBranchV1) : Daemon Unit := do
  let store ← readStore
  check (soloBranchChecks C channel.requester branch store)
  match ← check (soloReconciliation branch store) with
  | .conflict => do
    onSome (optional (loadSoloBranch branch.worldId store)) fun here =>
      save [] (preserveSoloConflict C here)
    save [] (preserveSoloConflict C branch)
    respond channel (.error "SOLO_HISTORY_CONFLICT"
      "independently advanced solo histories were preserved; manual resolution is required")
  | .adoptRemote => do
    save [] (saveSoloBranch branch)
    respond channel .soloBranchAccepted
  | _ => respond channel .soloBranchAccepted

/-! ## Granting leases -/

/-- The checks of `LeaseGrant`; the answer is the accepted generation. They look at no recovery
promise. -/
def leaseGrantChecks (sender : PeerId) (lease : AuthorityLeaseGrantV1) (store : Store) :
    Except DaemonError AuthorityGeneration := do
  ensureNoMembershipPrepare C lease.worldId store
  ofCore (verifyLeaseSignature C lease)
  guardMessage (sender = lease.authorityPeerId) "lease sender is not the signed authority"
  authorizeMember C lease.worldId lease.authorityPeerId store
  let descriptor ← ofStorage (loadWorldDescriptor lease.worldId store)
  let member ← required (descriptor.member lease.authorityPeerId)
    (.message "lease authority is not a member")
  guardMessage (member.authorityEligible = true ∧ member.banned = false ∧
      member.publicKey = lease.authorityPublicKey)
    "lease authority is not eligible or key does not match membership"
  guardMessage (lease.leaseDurationMs = authorityLeaseDurationMs)
    "lease duration does not match the authority policy"
  let epoch ← ofStorage (loadEpochRecord lease.worldId store)
  guardMessage ((⟨lease.epoch, lease.fencingToken⟩ : AuthorityGeneration) = epoch.generation)
    "future authority generations require a recovery ballot, not a lease reservation"
  guardMessage (lease.authorityPeerId = epoch.authorityPeerId ∧
      lease.authorityPublicKey = epoch.authorityPublicKey)
    "lease does not match the accepted authority epoch"
  pure epoch.generation

/-- Remember a granted lease and hold recovery back until it has run out. -/
def LeaseRuntime.granted (runtime : LeaseRuntime) (generation : AuthorityGeneration)
    (expiresAt : Nat) : LeaseRuntime :=
  { runtime with
    inboundLease := some ⟨generation, expiresAt⟩
    recoveryNotBefore := some (expiresAt + recoverySettleDelay) }

/-- `handle_request`, `LeaseGrant`. -/
def handleLeaseGrant (channel : Channel) (lease : AuthorityLeaseGrantV1) : Daemon Unit := do
  let store ← readStore
  let generation ← check (leaseGrantChecks C channel.requester lease store)
  updateRuntime fun runtime => runtime.granted generation (site.now + lease.leaseDurationMs)
  record (.acceptedLease generation lease.authorityPeerId)
  respond channel (.leaseAccepted lease.epoch lease.fencingToken)

/-! ## Acting as authority -/

/-- The local authority and what it knows about its own world. -/
structure LocalAuthority where
  descriptor : WorldDescriptorV1
  epoch : EpochRecordV1
  deriving DecidableEq

/-- The other active members that are connected and pass a test. -/
def confirmedMembers (descriptor : WorldDescriptorV1) (runtime : LeaseRuntime)
    (confirmed : PeerId → Bool) : List WorldMemberV1 :=
  descriptor.active.filter fun member =>
    decide (member.peerId ≠ site.peer C) && runtime.connected member.peerId
      && confirmed member.peerId

/-- A lease acknowledgement of the generation that is younger than the lease. -/
def LeaseRuntime.leaseFresh (runtime : LeaseRuntime) (generation : AuthorityGeneration) (now : Nat)
    (peer : PeerId) : Bool :=
  (runtime.leaseAcks peer).any fun ack =>
    decide (ack.generation = generation) && decide (now - ack.observedAt < authorityLeaseDurationMs)

/-- The quorum of fresh lease acknowledgements of `maintain_local_authority`. -/
def leaseQuorum (descriptor : WorldDescriptorV1) (generation : AuthorityGeneration)
    (runtime : LeaseRuntime) : Bool :=
  hasQuorum descriptor.active.length
    (1 + (confirmedMembers C site descriptor runtime (runtime.leaseFresh generation site.now)).length)

/-- The quorum of acknowledgements of the recovery record of `maintain_recovery_epoch_quorum`. -/
def recoveryEpochQuorum (descriptor : WorldDescriptorV1) (generation : AuthorityGeneration)
    (runtime : LeaseRuntime) : Bool :=
  hasQuorum descriptor.active.length
    (1 + (confirmedMembers C site descriptor runtime fun peer =>
      decide (runtime.epochAcks peer = some generation)).length)

/-- Act for each connected active member other than the local peer. -/
def forConnectedMembers (descriptor : WorldDescriptorV1) (act : PeerId → Daemon Unit) :
    Daemon Unit := do
  let runtime ← readRuntime
  runtime.authenticatedPeers.forM fun peer =>
    onSome (descriptor.member peer) fun member =>
      onlyIf (member.banned = false ∧ peer ≠ site.peer C) (act peer)

/-- The stored certificate belongs to the recovery generation. -/
def recoveryCertificateChecks (authority : LocalAuthority) (store : Store) :
    Except DaemonError RecoveryCertificateV1 := do
  let certificate ← context (loadRecoveryCertificate authority.descriptor.worldId store)
    "accepted recovery epoch is missing its durable quorum certificate"
  guardMessage (certificate.ballot.targetEpoch = authority.epoch.epochNumber ∧
      certificate.ballot.targetFencingToken = authority.epoch.fencingToken ∧
      certificate.ballot.candidatePeerId = site.peer C)
    "durable recovery certificate does not match the accepted recovery generation"
  pure certificate

/-- `maintain_recovery_epoch_quorum`. -/
def maintainRecoveryEpochQuorum (authority : LocalAuthority) : Daemon Bool := do
  let store ← readStore
  let runtime ← readRuntime
  let certificate ← check (recoveryCertificateChecks C site authority store)
  let generation := authority.epoch.generation
  forConnectedMembers C site authority.descriptor fun peer =>
    onlyIf (runtime.epochAcks peer ≠ some generation)
      (sendUnlessPending (site.peer C) peer (.recoveryEpoch authority.epoch certificate)
        (.epoch peer generation))
  pure (recoveryEpochQuorum C site authority.descriptor generation runtime)

/-- `signed_lease`; the nonce is not modelled. -/
def signedLease (world : WorldId) (generation : AuthorityGeneration) :
    Except DaemonError AuthorityLeaseGrantV1 :=
  ofCore (signLease C site.identity {
    protocolVersion := protocolVersionV1
    worldId := world
    epoch := generation.epoch
    fencingToken := generation.fencingToken
    leaseDurationMs := authorityLeaseDurationMs
    authorityPeerId := site.peer C
    authorityPublicKey := site.identity.publicKey
    nonce := 0
    signature := .empty })

/-- Sign an epoch record as the local authority. -/
def signEpoch (record : EpochRecordV1) : EpochRecordV1 :=
  { record with signature := C.sign site.identity.publicKey record.signingBytes }

/-- The record that ends solo mode, by `promote_solo_to_quorum`. -/
def soloToQuorumRecord (authority : LocalAuthority) (store : Store) :
    Except DaemonError EpochRecordV1 := do
  let latest ← required (← ofStorage (latestSnapshot store))
    (.message "cannot restore quorum without a solo head snapshot")
  let next ← nextGeneration authority.epoch
    "authority generation exhausted while restoring quorum"
  pure (signEpoch C site {
    protocolVersion := protocolVersionV1
    worldId := authority.descriptor.worldId
    epochNumber := next.epoch
    previousEpochHash := some (epochRecordHash C authority.epoch)
    baseStateHash := latest.stateRoot
    authorityPeerId := site.peer C
    authorityPublicKey := site.identity.publicKey
    mode := .quorum
    fencingToken := next.fencingToken
    reason := "quorum restored after explicit solo history replication"
    signature := .empty })

/-- `promote_solo_to_quorum`. -/
def promoteSoloToQuorum (authority : LocalAuthority) : Daemon Unit := do
  let store ← readStore
  let next ← check (soloToQuorumRecord C site authority store)
  save [.storedEpoch next] (saveEpochRecord next)
  forConnectedMembers C site authority.descriptor fun peer =>
    sendRequest (site.peer C) peer (.epoch next) (some (.epoch peer next.generation))

/-- The branch that `refresh_solo_branch` saves, where the head has moved. -/
def refreshedSoloBranch (epoch : EpochRecordV1) (store : Store) :
    Except DaemonError (Option SoloBranchV1) := do
  let latest ← required (← ofStorage (latestSnapshot store)) (.message "solo epoch has no snapshot")
  ofCore (verifySnapshotSignature C latest)
  let branch ← context (loadSoloBranch epoch.worldId store)
    "solo epoch is missing durable branch ancestry"
  ofCore (verifySoloBranchSignature C branch)
  guardMessage (branch.authorityPeerId = site.peer C ∧ branch.worldId = epoch.worldId)
    "solo branch authority does not match the local accepted authority"
  if branch.headSnapshotHash = latest.manifestHash C ∧ branch.stateHash = latest.stateRoot then
    pure none
  else do
    let refreshed ← ofCore (signSoloBranch C site.identity { branch with
      headSnapshotHash := latest.manifestHash C
      headEpoch := epoch.epochNumber
      headSequence := latest.sequence
      stateHash := latest.stateRoot })
    pure (some refreshed)

/-- `refresh_solo_branch`. -/
def refreshSoloBranch (epoch : EpochRecordV1) : Daemon Unit :=
  onlyIf (epoch.mode = .solo) do
    let store ← readStore
    let branch ← check (refreshedSoloBranch C site epoch store)
    onSome branch fun branch => save [] (saveSoloBranch branch)

/-- The heartbeat after the next refresh. -/
def LeaseRuntime.nextHeartbeat (runtime : LeaseRuntime) : Nat :=
  min (runtime.permitHeartbeat.getD 0 + 1) u64Max

/-- The permit-refresh branch of `maintain_local_authority`. -/
def refreshPermit (generation : AuthorityGeneration) : Daemon Unit := do
  let runtime ← readRuntime
  updateRuntime fun runtime => { runtime with permitHeartbeat := some runtime.nextHeartbeat }
  write fun store => { store with permit := some ⟨generation, runtime.nextHeartbeat⟩ }
  record (.refreshedPermit generation)

/-- Keep the permit while the quorum stands; without it, drop the permit and look around. -/
def settlePermit (authority : LocalAuthority) (quorum : Bool) : Daemon Unit :=
  if quorum then refreshPermit authority.epoch.generation
  else do
    clearPermit
    requestWorldStatuses C site authority.descriptor

/-- `maintain_local_authority` after the recovery quorum is confirmed. -/
def maintainLeases (authority : LocalAuthority) : Daemon Unit := do
  let generation := authority.epoch.generation
  let lease ← check (signedLease C site authority.descriptor.worldId generation)
  forConnectedMembers C site authority.descriptor fun peer =>
    sendUnlessPending (site.peer C) peer (.leaseGrant lease) (.lease peer generation)
  let runtime ← readRuntime
  let quorum := leaseQuorum C site authority.descriptor generation runtime
  if quorum = true ∧ authority.epoch.mode = .solo then do
    refreshSoloBranch C site authority.epoch
    promoteSoloToQuorum C site authority
    clearPermit
  else do
    settlePermit C site authority quorum
    write (clearRecoveryPromiseAfterEpochAdvance C authority.descriptor.worldId
      authority.epoch.epochNumber)

/-- `maintain_local_authority`. -/
def maintainLocalAuthority (authority : LocalAuthority) : Daemon Unit := do
  if authority.epoch.mode = .recovery then do
    let confirmed ← maintainRecoveryEpochQuorum C site authority
    if confirmed then maintainLeases C site authority else clearPermit
  else maintainLeases C site authority

end SwarmCraft
