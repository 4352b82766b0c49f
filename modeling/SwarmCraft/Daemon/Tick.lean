import SwarmCraft.Daemon.Recovery

/-!
# The succession, the tick and the event loop

A member that may succeed a silent authority looks for a quorum on its own base,
elects a candidate, and drives a recovery ballot if it is elected itself.
`maintain_authority_leases` runs all of this for the stored world.
-/

namespace SwarmCraft

open Checked Effect Function

variable (C : Crypto) (site : Site)

/-! ## Driving a recovery ballot -/

/-- `RecoveryAttempt`. -/
structure RecoveryAttempt where
  descriptor : WorldDescriptorV1
  previous : EpochRecordV1
  latest : SnapshotManifestV1
  visiblePeers : List PeerId
  generation : AuthorityGeneration
  wake : Bool
  deriving DecidableEq

/-- The active ballot is still for this base and candidate and not below the round floor. -/
def activeBallotUsable (attempt : RecoveryAttempt) (membershipHash : Hash32) (floor : Nat)
    (ballot : RecoveryBallotV1) : Bool :=
  decide (ballot.baseEpoch = attempt.previous.epochNumber)
    && decide (ballot.baseFencingToken = attempt.previous.fencingToken)
    && decide (ballot.targetEpoch = attempt.generation.epoch)
    && decide (ballot.targetFencingToken = attempt.generation.fencingToken)
    && decide (ballot.candidatePeerId = site.peer C)
    && decide (ballot.baseSnapshotHash = attempt.latest.manifestHash C)
    && decide (ballot.baseStateHash = attempt.latest.stateRoot)
    && decide (ballot.membershipHash = membershipHash)
    && decide (floor ≤ ballot.round)

/-- The highest round the candidate knows of. -/
def recoveryFloor (world : WorldId) (runtime : LeaseRuntime) (store : Store) : Nat :=
  max (runtime.recoveryRoundFloor.getD 0) (promisedRound C world store)

/-- The membership record a recovery is based on. -/
def recoveryMembership (world : WorldId) (store : Store) :
    Except DaemonError MembershipRecordV1 := do
  let membership ← ofStorage (loadMembershipRecord world store)
  ofCore (verifyMembershipSignature C membership)
  pure membership

/-- The candidate's own ballot in the round above the floor. -/
def candidateBallot (attempt : RecoveryAttempt) (membershipHash : Hash32) (floor : Nat) :
    Except DaemonError RecoveryBallotV1 := do
  let round ← required (checkedSucc floor) (.message "recovery round counter exhausted")
  ofCore (signRecoveryBallot C site.identity {
    protocolVersion := protocolVersionV1
    worldId := attempt.descriptor.worldId
    baseEpoch := attempt.previous.epochNumber
    baseFencingToken := attempt.previous.fencingToken
    targetEpoch := attempt.generation.epoch
    targetFencingToken := attempt.generation.fencingToken
    round := max round 1
    candidatePeerId := site.peer C
    candidatePublicKey := site.identity.publicKey
    baseSnapshotHash := attempt.latest.manifestHash C
    baseStateHash := attempt.latest.stateRoot
    membershipHash := membershipHash
    signature := .empty })

/-- Make a promised ballot the active one, with the stored vote as its first vote. -/
def activateBallot (ballot : RecoveryBallotV1) : Daemon Bool := do
  let store ← readStore
  let durable ← check (ofStorage (loadRecoveryPromise C ballot.worldId store))
  updateRuntime fun runtime => { runtime with
    recoveryVotes := [(site.peer C, durable.vote)]
    recoveryBallot := some ballot }
  pure true

/-- Promise the candidate's own ballot and make it the active one; a rejection raises the floor
and ends the attempt. -/
def openBallot (attempt : RecoveryAttempt) (membershipHash : Hash32) (floor : Nat) :
    Daemon Bool := do
  let ballot ← check (candidateBallot C site attempt membershipHash floor)
  let vote ← check (recoveryVoteFor C site ballot)
  let result ← promiseBallot C ballot vote attempt.wake
  match result with
  | .rejected highestRound => do
    updateRuntime fun runtime => { runtime with recoveryRoundFloor := some highestRound }
    pure false
  | _ => activateBallot C site ballot

/-- The first half of `drive_recovery_ballot`: keep the active ballot if it is usable. -/
def ensureActiveBallot (attempt : RecoveryAttempt) : Daemon Bool := do
  let store ← readStore
  let runtime ← readRuntime
  let membership ← check (recoveryMembership C attempt.descriptor.worldId store)
  let floor := recoveryFloor C attempt.descriptor.worldId runtime store
  if runtime.recoveryBallot.any (activeBallotUsable C site attempt (membership.recordHash C) floor)
  then pure true
  else openBallot C site attempt (membership.recordHash C) floor

/-- Act for each connected peer that is visible on the base. -/
def forVisiblePeers (attempt : RecoveryAttempt) (act : PeerId → Daemon Unit) : Daemon Unit := do
  let runtime ← readRuntime
  runtime.authenticatedPeers.forM fun peer =>
    onlyIf (peer ≠ site.peer C ∧ peer ∈ attempt.visiblePeers) (act peer)

/-- The certificate made of the collected votes, once they are a quorum. -/
def recoveryCertificateFrom (attempt : RecoveryAttempt) (ballot : RecoveryBallotV1)
    (runtime : LeaseRuntime) : Except DaemonError (Option RecoveryCertificateV1) :=
  let members := attempt.descriptor.active.map WorldMemberV1.peerId
  let votes := (runtime.recoveryVotes.map Prod.snd).filter fun vote => vote.matchesBallot C ballot
  if hasQuorum members.length votes.length then do
    (validateRecoveryCertificateShape C ⟨ballot, votes⟩ members).mapError .recoveryCertificate
    votes.forM fun vote => ofCore (verifyRecoveryVoteSignature C vote)
    pure (some ⟨ballot, votes⟩)
  else pure none

/-- The record of `promote_recovery_epoch`. -/
def recoveryEpochRecord (attempt : RecoveryAttempt) : Except DaemonError EpochRecordV1 := do
  let next ← nextGeneration attempt.previous
    "authority generation exhausted during recovery promotion"
  pure (signEpoch C site {
    protocolVersion := protocolVersionV1
    worldId := attempt.previous.worldId
    epochNumber := next.epoch
    previousEpochHash := some (epochRecordHash C attempt.previous)
    baseStateHash := attempt.latest.stateRoot
    authorityPeerId := site.peer C
    authorityPublicKey := site.identity.publicKey
    mode := .recovery
    fencingToken := next.fencingToken
    reason := if attempt.wake then "quorum wake from exact durable sleep boundary"
      else "automatic crash recovery after durable quorum ballot"
    signature := .empty })

/-- Forget the votes and acknowledgements of the generation that ended. -/
def LeaseRuntime.promoted (runtime : LeaseRuntime) : LeaseRuntime :=
  { runtime with
    leaseAcks := fun _ => none
    epochAcks := fun _ => none
    inboundLease := none
    recoveryReplicationSent := []
    recoveryBallot := none
    recoveryVotes := [] }

/-- The second half of `drive_recovery_ballot`: the certificate is durable before the epoch. -/
def installRecovery (attempt : RecoveryAttempt) (certificate : RecoveryCertificateV1) :
    Daemon Unit := do
  save [] (saveRecoveryCertificate C certificate)
  let next ← check (recoveryEpochRecord C site attempt)
  save [.storedEpoch next] (saveEpochRecord next)
  onlyIf (attempt.wake = true) do
    write clearSleepRecord
    write clearWorldWakeRequest
  write (clearRecoveryPromiseAfterEpochAdvance C attempt.descriptor.worldId next.epochNumber)
  updateRuntime LeaseRuntime.promoted
  forVisiblePeers C site attempt fun peer =>
    sendRequest (site.peer C) peer (.recoveryEpoch next certificate)
      (some (.epoch peer attempt.generation))

/-- `drive_recovery_ballot`. -/
def driveRecoveryBallot (attempt : RecoveryAttempt) : Daemon Unit := do
  let ready ← ensureActiveBallot C site attempt
  onlyIf (ready = true) do
    let runtime ← readRuntime
    let ballot ← check (required runtime.recoveryBallot
      (.message "active recovery ballot disappeared"))
    forVisiblePeers C site attempt fun peer =>
      sendUnlessPending (site.peer C) peer (.recoveryBallot ballot)
        (.recoveryBallot peer (ballot.ballotHash C))
    let certificate ← check (recoveryCertificateFrom C attempt ballot runtime)
    onSome certificate (installRecovery C site attempt)

/-! ## Looking for a successor -/

/-- The candidacy of a member on the local base. -/
def candidacy (peer : PeerId) (epoch : EpochRecordV1) (latest : SnapshotManifestV1) :
    AuthorityCandidate where
  peerId := peer
  acceptedEpoch := epoch.epochNumber
  canonicalSequence := latest.sequence
  snapshotComplete := true
  compatible := true
  authorityEligible := true
  banned := false

/-- The other members that are connected and freshly reported exactly the local base, with what
they reported. -/
def visibleMembers (descriptor : WorldDescriptorV1) (epoch : EpochRecordV1)
    (latest : SnapshotManifestV1) (runtime : LeaseRuntime) : List (WorldMemberV1 × WorldStatusV1) :=
  descriptor.active.filterMap fun member =>
    if member.peerId ≠ site.peer C ∧ runtime.connected member.peerId = true then
      match runtime.freshStatus member.peerId site.now with
      | some status =>
        if statusMatchesCanonical C status descriptor epoch latest then some (member, status)
        else none
      | none => none
    else none

/-- The candidates among the visible members, the local peer first. -/
def recoveryCandidates (descriptor : WorldDescriptorV1) (epoch : EpochRecordV1)
    (latest : SnapshotManifestV1) (runtime : LeaseRuntime) (host : LocalHost) :
    List AuthorityCandidate :=
  let ready := (localHostCapability host false).any fun capability =>
    hostCapabilityReady capability site.world descriptor.compatibilityFingerprint
  let others := (visibleMembers C site descriptor epoch latest runtime).filter fun entry =>
    entry.1.authorityEligible && entry.2.authorityEligible
      && observedHostCandidateReady runtime site.world entry.1.peerId
        descriptor.compatibilityFingerprint site.now
  (if ready then [candidacy (site.peer C) epoch latest] else [])
    ++ others.map fun entry => candidacy entry.1.peerId epoch latest

/-- The base of an attempt: the verified head, on which the sleep record must stand if there is
one. -/
def recoveryBase (sleep : Option SleepRecordV1) (epoch : EpochRecordV1) (store : Store) :
    Except DaemonError (Option SnapshotManifestV1) := do
  match ← ofStorage (latestSnapshot store) with
  | none => pure none
  | some latest => do
    ofStorage (verifySnapshot C store latest)
    ofCore (verifySnapshotSignature C latest)
    onSome sleep fun record => validateSleepRecoveryBase C record epoch latest
    pure (some latest)

/-- The attempt on a base, if a quorum is visible and the local peer is elected. -/
def recoveryAttempt (descriptor : WorldDescriptorV1) (epoch : EpochRecordV1)
    (latest : SnapshotManifestV1) (wake : Bool) (runtime : LeaseRuntime) (host : LocalHost) :
    Except DaemonError (Option RecoveryAttempt) :=
  let visible := (visibleMembers C site descriptor epoch latest runtime).map fun entry =>
    entry.1.peerId
  let elected := electAuthority (recoveryCandidates C site descriptor epoch latest runtime host)
  if hasQuorum descriptor.active.length (1 + visible.length) = true ∧
      elected = some (site.peer C) then do
    let generation ← nextGeneration epoch
      "authority generation exhausted during crash recovery"
    pure (some ⟨descriptor, epoch, latest, site.peer C :: visible, generation, wake⟩)
  else pure none

/-- The part of the tick in which the local peer is not the authority, or wakes the world. -/
def seekRecovery (descriptor : WorldDescriptorV1) (epoch : EpochRecordV1)
    (sleep : Option SleepRecordV1) (wake : Bool) : Daemon Unit := do
  requestWorldStatuses C site descriptor
  requestHostCapabilities C site descriptor
  let store ← readStore
  let runtime ← readRuntime
  let host ← readHost
  onlyIf (wake = true ∨ runtime.connected epoch.authorityPeerId = false ∧
      recoveryWindowOpen runtime epoch.generation site.now = true) do
    let base ← check (recoveryBase C sleep epoch store)
    onSome base fun latest => do
      let attempt ← check (recoveryAttempt C site descriptor epoch latest wake runtime host)
      onSome attempt (driveRecoveryBallot C site)

/-! ## The tick -/

/-- The failure texts in which `ensure_recovery_artifacts` and `ensure_authority_artifacts`
differ. -/
structure ArtifactTexts where
  noSnapshot : String
  notDirect : String
  conflict : String
  ahead : String

/-- The texts of `ensure_recovery_artifacts`. -/
def recoveryArtifactTexts : ArtifactTexts where
  noSnapshot := "recovery epoch has no base snapshot"
  notDirect := "recovery epoch does not directly promote the latest canonical snapshot"
  conflict := "latest snapshot conflicts with the accepted recovery epoch"
  ahead := "membership is ahead of the accepted recovery epoch"

/-- The snapshot a new authority signs over the same state. -/
def promotedSnapshot (texts : ArtifactTexts) (epoch : EpochRecordV1)
    (latest : SnapshotManifestV1) : Except DaemonError SnapshotManifestV1 := do
  guardMessage (checkedSucc latest.epoch = some epoch.epochNumber ∧
      latest.stateRoot = epoch.baseStateHash) texts.notDirect
  let number ← required (checkedSucc latest.snapshotNumber) (.storage .snapshotNumberExhausted)
  let sequence ← required (checkedSucc latest.sequence)
    (.message "snapshot sequence counter exhausted")
  ofCore (signSnapshot C site.identity { latest with
    protocolVersion := protocolVersionV1
    worldId := epoch.worldId
    snapshotNumber := number
    epoch := epoch.epochNumber
    sequence := sequence
    previousSnapshotHash := some (latest.manifestHash C)
    authorityPeerId := site.peer C
    authorityPublicKey := site.identity.publicKey
    signature := .empty })

/-- The snapshot part of both functions. -/
def ensurePromotedSnapshot (texts : ArtifactTexts) (epoch : EpochRecordV1) : Daemon Unit := do
  let store ← readStore
  let head ← check (ofStorage (latestSnapshot store))
  let latest ← check (required head (.message texts.noSnapshot))
  if latest.epoch < epoch.epochNumber then do
    let promoted ← check (promotedSnapshot C site texts epoch latest)
    commitSnapshot C (some ⟨epoch.epochNumber, epoch.fencingToken, some latest⟩) promoted
  else
    check (guardMessage (latest.epoch = epoch.epochNumber ∧
        latest.authorityPeerId = site.peer C ∧
        latest.authorityPublicKey = site.identity.publicKey ∧
        latest.stateRoot = epoch.baseStateHash) texts.conflict)

/-- The membership part of both functions: the new authority signs the same voters again. -/
def ensurePromotedMembership (texts : ArtifactTexts) (epoch : EpochRecordV1)
    (membership : MembershipRecordV1) : Daemon Unit := do
  check (guardMessage (membership.epoch ≤ epoch.epochNumber) texts.ahead)
  onlyIf (membership.epoch ≠ epoch.epochNumber ∨ membership.authorityPeerId ≠ site.peer C ∨
      membership.authorityPublicKey ≠ site.identity.publicKey) do
    let promoted ← check (nextMembership C site membership epoch.epochNumber membership.members)
    save [] (saveMembershipRecord C promoted)

/-- `ensure_recovery_artifacts`. -/
def ensureRecoveryArtifacts (epoch : EpochRecordV1) : Daemon Unit := do
  ensurePromotedSnapshot C site recoveryArtifactTexts epoch
  let store ← readStore
  let membership ← check (ofStorage (loadMembershipRecord epoch.worldId store))
  ensurePromotedMembership C site recoveryArtifactTexts epoch membership

/-- `clear_sleeping_world`. -/
def LeaseRuntime.clearSleepingWorld (runtime : LeaseRuntime) : LeaseRuntime :=
  { LeaseRuntime.default with
    authenticatedPeers := runtime.authenticatedPeers
    peerStatus := runtime.peerStatus
    peerCapability := runtime.peerCapability }

/-- `clear_runtime_world`. -/
def LeaseRuntime.clearRuntimeWorld (runtime : LeaseRuntime) : LeaseRuntime :=
  { LeaseRuntime.default with authenticatedPeers := runtime.authenticatedPeers }

/-- The first tick on a world starts the initial recovery delay. -/
def LeaseRuntime.startRecoveryDelay (runtime : LeaseRuntime) (now : Nat) : LeaseRuntime :=
  match runtime.recoveryNotBefore with
  | some _ => runtime
  | none =>
    { runtime with
      recoveryNotBefore := some (now + (authorityLeaseDurationMs + recoverySettleDelay)) }

/-- The branch of the tick for the accepted authority itself. -/
def tickAuthority (descriptor : WorldDescriptorV1) (epoch : EpochRecordV1) : Daemon Unit := do
  onlyIf (epoch.mode = .recovery) (ensureRecoveryArtifacts C site epoch)
  requestWorldStatuses C site descriptor
  requestHostCapabilities C site descriptor
  maintainLocalAuthority C site ⟨descriptor, epoch⟩

/-- The tick of a member that holds a descriptor and an epoch record. -/
def tickMember (descriptor : WorldDescriptorV1) (member : WorldMemberV1) (epoch : EpochRecordV1)
    (sleep : Option SleepRecordV1) (wake : Bool) : Daemon Unit := do
  updateRuntime fun runtime => runtime.startRecoveryDelay site.now
  if wake = false ∧ epoch.authorityPeerId = site.peer C ∧
      epoch.authorityPublicKey = site.identity.publicKey then
    tickAuthority C site descriptor epoch
  else do
    clearPermit
    clearPermitHeartbeat
    onlyIf (member.authorityEligible = true ∧ 1 < descriptor.active.length)
      (seekRecovery C site descriptor epoch sleep wake)

/-- The local membership and the accepted epoch, where the local peer is an active member. -/
def localRole (store : Store) : Option (WorldDescriptorV1 × WorldMemberV1 × EpochRecordV1) := do
  let descriptor ← optional (loadWorldDescriptor site.world store)
  let member ← descriptor.member (site.peer C)
  if member.banned = false ∧ member.publicKey = site.identity.publicKey then
    let epoch ← optional (loadEpochRecord site.world store)
    some (descriptor, member, epoch)
  else none

/-- The tick of a world that does not sleep, or is asked to wake. -/
def tickAwake (sleep : Option SleepRecordV1) (wake : Bool) : Daemon Unit := do
  let store ← readStore
  match loadMembershipPromise C site.world store with
  | .ok promise => do
    clearPermit
    clearPermitHeartbeat
    maintainMembershipTransition C site promise
  | .error _ =>
    match localRole C site store with
    | some (descriptor, member, epoch) => tickMember C site descriptor member epoch sleep wake
    | none => clearPermit

/-- The tick of a sleeping world. -/
def tickAsleep : Daemon Unit := do
  clearPermit
  updateRuntime LeaseRuntime.clearSleepingWorld
  let store ← readStore
  onSome (optional (loadWorldDescriptor site.world store)) fun descriptor => do
    requestWorldStatuses C site descriptor
    requestHostCapabilities C site descriptor

/-- The body of `maintain_authority_leases` for the stored world, without the published readiness
report. -/
def tickWorld : Daemon Unit := do
  recoverCommittedMembership C site
  let store ← readStore
  match loadSleepRecordFailClosed C site.world store with
  | .error _ => do
    clearPermit
    updateRuntime LeaseRuntime.clearRuntimeWorld
  | .ok sleep =>
    if sleep.isSome = true ∧ store.wakeRequested = false then tickAsleep C site
    else tickAwake C site sleep sleep.isSome

/-- `maintain_authority_leases`; a world whose metadata cannot be loaded is not listed. -/
def maintainAuthorityLeases : Daemon Unit := do
  let store ← readStore
  onSome (optional (loadWorld C site.world store)) fun _ => tickWorld C site

/-! ## Requests -/

/-- The match of `handle_request`. -/
def dispatchRequest (channel : Channel) : WireRequest → Daemon Unit
  | .worldStatus _ => handleWorldStatus C site channel
  | .hostCapability _ => handleHostCapability C site channel
  | .joinRequest request => handleJoinRequest C site channel request
  | .leaveRequest request => handleLeaveRequest C site channel request
  | .snapshotManifest manifest => handleSnapshotManifest C channel manifest
  | .blobChunk worldId hash encoding finished intact =>
    handleBlobChunk C channel worldId hash encoding finished intact
  | .membershipProposal proposal => handleMembershipProposal C site channel proposal
  | .membershipCommit certificate => handleMembershipCommit C site channel certificate
  | .membership record => handleMembership C channel record
  | .epoch record => handleEpoch C channel record
  | .recoveryBallot ballot => handleRecoveryBallot C site channel ballot
  | .recoveryEpoch record certificate => handleRecoveryEpoch C channel record certificate
  | .authorityTransfer transfer => handleAuthorityTransfer C channel transfer
  | .leaseGrant lease => handleLeaseGrant C site channel lease
  | .sleep record => handleSleep C channel record
  | .soloBranch branch => handleSoloBranch C channel branch

/-- `handle_request`. -/
def handleRequest (channel : Channel) (request : WireRequest) : Daemon Unit := do
  let store ← readStore
  check (onSome request.membershipWorldId fun worldId =>
    authorizeMember C worldId channel.requester store)
  dispatchRequest C site channel request

/-! ## Responses -/

/-- The first acknowledgement of a recovery generation by a peer is followed by the promoted
membership and snapshot. -/
def replicateRecovery (peer : PeerId) (generation : AuthorityGeneration) : Daemon Unit := do
  let store ← readStore
  let runtime ← readRuntime
  onSome (optional (loadEpochRecord site.world store)) fun epoch =>
    onlyIf (epoch.mode = .recovery ∧ epoch.generation = generation ∧
        peer ∉ runtime.recoveryReplicationSent) do
      updateRuntime fun runtime => { runtime with
        recoveryReplicationSent := peer :: runtime.recoveryReplicationSent }
      onSome (optional (loadMembershipRecord site.world store)) fun membership =>
        sendRequest (site.peer C) peer (.membership membership) none
      let latest ← check (ofStorage (latestSnapshot store))
      onSome latest fun manifest =>
        onlyIf (manifest.epoch = generation.epoch)
          (sendRequest (site.peer C) peer (.snapshotManifest manifest) none)

/-- A lease acknowledgement. -/
def receiveLeaseAccepted (peer : PeerId) (generation : AuthorityGeneration)
    (epoch fencingToken : Nat) : Daemon Unit := do
  check (validateGenerationResponse generation epoch fencingToken "lease")
  learn (.confirmedLease peer generation) fun runtime => { runtime with
    leaseAcks := update runtime.leaseAcks peer (some ⟨generation, site.now⟩) }
  replicateRecovery C site peer generation

/-- A recovery vote; it counts only for the active ballot. -/
def receiveRecoveryVote (peer : PeerId) (ballotHash : Hash32) (vote : RecoveryVoteV1) :
    Daemon Unit := do
  let runtime ← readRuntime
  check (ofCore (verifyRecoveryVoteSignature C vote))
  onSome runtime.recoveryBallot fun ballot => do
    check (guardMessage (ballot.ballotHash C = ballotHash ∧ vote.matchesBallot C ballot = true ∧
        vote.voterPeerId = peer)
      "recovery vote does not match the active ballot or authenticated peer")
    updateRuntime fun runtime => { runtime with
      recoveryVotes := (peer, vote) :: runtime.recoveryVotes.filter fun entry =>
        decide (entry.1 ≠ peer) }

/-- A rejected ballot raises the round floor and is given up. -/
def receiveRecoveryRejected (ballotHash : Hash32) (highestRound : Nat) : Daemon Unit := do
  let runtime ← readRuntime
  let activeRound := ((runtime.recoveryBallot.filter fun ballot =>
    decide (ballot.ballotHash C = ballotHash)).map RecoveryBallotV1.round).getD 0
  onlyIf (activeRound ≤ highestRound) <|
    updateRuntime fun runtime => { runtime with
      recoveryRoundFloor := some (max (runtime.recoveryRoundFloor.getD highestRound) highestRound)
      recoveryBallot := none
      recoveryVotes := [] }

/-- A membership vote; it counts only for the prepared proposal. -/
def receiveMembershipVote (peer : PeerId) (proposalHash : Hash32) (vote : MembershipVoteV1) :
    Daemon Unit := do
  let store ← readStore
  check (ofCore (verifyMembershipVoteSignature C vote))
  onSome (optional (loadMembershipPromise C site.world store)) fun promise => do
    check (guardMessage (promise.proposal.proposalHash C = proposalHash ∧
        vote.matchesProposal C promise.proposal = true ∧ vote.voterPeerId = peer)
      "membership vote does not match the active proposal or authenticated peer")
    updateRuntime fun runtime => runtime.withMembershipVote peer vote

/-- A commit acknowledgement is followed by the rest of the committed state. -/
def receiveCommitAccepted (peer : PeerId) (sequence accepted : Nat) : Daemon Unit := do
  let store ← readStore
  check (guardMessage (accepted = sequence)
    "membership commit acknowledgement sequence mismatch")
  let descriptor ← check (ofStorage (loadWorldDescriptor site.world store))
  onSome (descriptor.member peer) fun member =>
    onlyIf (member.banned = false) (pushCommittedWorldPayload C site peer false)

/-- An acknowledgement of an epoch record. -/
def receiveEpochAccepted (peer : PeerId) (generation : AuthorityGeneration)
    (epoch fencingToken : Nat) : Daemon Unit := do
  check (validateGenerationResponse generation epoch fencingToken "epoch")
  updateRuntime fun runtime => { runtime with
    epochAcks := update runtime.epochAcks peer (some generation) }

/-- A status report; no report forgets the last one. -/
def receiveStatus (peer : PeerId) (status : Option WorldStatusV1) : Daemon Unit := do
  onSome status fun status => check (guardMessage (status.worldId = site.world)
    "world status response references the wrong world")
  updateRuntime fun runtime => { runtime with
    peerStatus := update runtime.peerStatus peer
      (status.map fun status => ⟨status, site.now⟩) }

/-- A host capability report; no report forgets the last one. -/
def receiveCapability (peer : PeerId) (capability : Option HostCapabilityV1) : Daemon Unit := do
  onSome capability fun capability => check (guardMessage (capability.worldId = site.world)
    "host-capability response references the wrong world")
  updateRuntime fun runtime => { runtime with
    peerCapability := update runtime.peerCapability peer
      (capability.map fun capability => ⟨capability, site.now⟩) }

/-- The match of `handle_response`; streaming of blobs after a manifest is not modelled. -/
def dispatchResponse : OutboundContext → WireResponse → Daemon Unit
  | .lease peer generation, .leaseAccepted epoch fencingToken =>
    receiveLeaseAccepted C site peer generation epoch fencingToken
  | .recoveryBallot peer ballotHash, .recoveryVote vote =>
    receiveRecoveryVote C peer ballotHash vote
  | .recoveryBallot _ ballotHash, .recoveryRejected highestRound _ =>
    receiveRecoveryRejected C ballotHash highestRound
  | .membershipProposal peer proposalHash, .membershipVote vote =>
    receiveMembershipVote C site peer proposalHash vote
  | .membershipCommit peer sequence, .membershipCommitAccepted accepted =>
    receiveCommitAccepted C site peer sequence accepted
  | .epoch peer generation, .epochAccepted epoch fencingToken =>
    receiveEpochAccepted peer generation epoch fencingToken
  | .status peer, .worldStatus status => receiveStatus site peer status
  | .hostCapability peer, .hostCapability capability => receiveCapability site peer capability
  | _, _ => pure ()

/-- Take the context of an answered request out of the table. -/
def takeContext (number : Nat) : Daemon (Option OutboundContext) := fun e =>
  (.ok (e.node.outbound.lookup number), { e with node := { e.node with
      outbound := e.node.outbound.filter fun entry => decide (entry.1 ≠ number) } })

/-- A response arrives. -/
def handleResponse (number : Nat) (response : WireResponse) : Daemon Unit := do
  let context ← takeContext number
  onSome context fun context => dispatchResponse C site context response

/-! ## Connections -/

/-- What a failed request takes back. -/
def LeaseRuntime.withoutAnswer (runtime : LeaseRuntime) : OutboundContext → LeaseRuntime
  | .lease peer _ => { runtime with leaseAcks := update runtime.leaseAcks peer none }
  | .recoveryBallot peer _ => { runtime with
      recoveryVotes := runtime.recoveryVotes.filter fun entry => decide (entry.1 ≠ peer) }
  | .membershipProposal peer _ => { runtime with
      membershipVotes := runtime.membershipVotes.filter fun entry => decide (entry.1 ≠ peer) }
  | .epoch peer _ => { runtime with epochAcks := update runtime.epochAcks peer none }
  | .status peer => { runtime with peerStatus := update runtime.peerStatus peer none }
  | .hostCapability peer => { runtime with
      peerCapability := update runtime.peerCapability peer none }
  | .membershipCommit _ _ => runtime
  | .manifest _ => runtime

/-- `OutboundFailure`. -/
def handleOutboundFailure (number : Nat) : Daemon Unit := do
  let context ← takeContext number
  onSome context fun context => updateRuntime fun runtime => runtime.withoutAnswer context

/-- `Authenticated`, and the renewed push after the handshake. -/
def handleAuthenticated (peer : PeerId) : Daemon Unit := do
  updateRuntime fun runtime => { runtime with
    authenticatedPeers := peer :: runtime.authenticatedPeers.filter fun other =>
      decide (other ≠ peer) }
  pushPendingMembershipRequests C site peer
  pushKnownWorlds C site peer

/-- Forget everything that was learned over the connection. -/
def LeaseRuntime.disconnected (runtime : LeaseRuntime) (peer : PeerId) : LeaseRuntime :=
  { runtime with
    authenticatedPeers := runtime.authenticatedPeers.filter fun other => decide (other ≠ peer)
    leaseAcks := update runtime.leaseAcks peer none
    recoveryVotes := runtime.recoveryVotes.filter fun entry => decide (entry.1 ≠ peer)
    membershipVotes := runtime.membershipVotes.filter fun entry => decide (entry.1 ≠ peer)
    epochAcks := update runtime.epochAcks peer none
    peerStatus := update runtime.peerStatus peer none
    peerCapability := update runtime.peerCapability peer none }

/-- `Disconnected`. -/
def handleDisconnected (peer : PeerId) : Daemon Unit :=
  updateRuntime fun runtime => runtime.disconnected peer

end SwarmCraft
