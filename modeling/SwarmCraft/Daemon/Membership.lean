import SwarmCraft.Daemon.Runtime

/-!
# Replication and joint membership changes

What a daemon sends to a peer it just authenticated, and how a replica finalizes a snapshot. The
authority turns a join or leave request into a proposal and prepares it durably; voters prepare
the same proposal and answer with a vote; a certificate of both quorums is stored first and
applied after it. Records that keep the voter set travel without a certificate.
-/

namespace SwarmCraft

open Checked Effect

variable (C : Crypto) (site : Site)

/-! ## Pushing known state -/

/-- `push_pending_membership_requests`. -/
def pushPendingMembershipRequests (peer : PeerId) : Daemon Unit := do
  let store ← readStore
  onSome (optional (loadPendingJoin C site.world store)) fun join =>
    onlyIf (join.invite.inviterPeerId = peer)
      (sendRequest (site.peer C) peer (.joinRequest join) none)
  onSome (optional (loadPendingLeave C site.world store)) fun leave =>
    onSome (optional (loadMembershipRecord site.world store)) fun membership =>
      onlyIf (membership.authorityPeerId = peer)
        (sendRequest (site.peer C) peer (.leaveRequest leave) none)

/-- The epoch part of `push_committed_world_payload`. -/
def pushEpoch (peer : PeerId) (store : Store) : Daemon Unit :=
  onSome (optional (loadEpochRecord site.world store)) fun epoch =>
    if epoch.mode = .recovery then
      onSome (optional (loadRecoveryCertificate site.world store)) fun certificate =>
        sendRequest (site.peer C) peer (.recoveryEpoch epoch certificate) none
    else sendRequest (site.peer C) peer (.epoch epoch) none

/-- `push_committed_world_payload`, without the configuration. -/
def pushCommittedWorldPayload (peer : PeerId) (includeMembership : Bool) : Daemon Unit := do
  let store ← readStore
  onSome (optional (loadSoloBranch site.world store)) fun branch =>
    sendRequest (site.peer C) peer (.soloBranch branch) none
  pushEpoch C site peer store
  onlyIf (includeMembership = true) <|
    onSome (optional (loadMembershipRecord site.world store)) fun membership =>
      sendRequest (site.peer C) peer (.membership membership) none
  onSome (optional (loadTransferRecord site.world store)) fun transfer =>
    sendRequest (site.peer C) peer (.authorityTransfer transfer) none
  onSome (optional (loadSleepRecord site.world store)) fun record =>
    sendRequest (site.peer C) peer (.sleep record) none
  let latest ← check (ofStorage (latestSnapshot store))
  onSome latest fun manifest => do
    check (ofCore (verifySnapshotSignature C manifest))
    sendRequest (site.peer C) peer (.snapshotManifest manifest)
      (some (.manifest manifest.snapshotNumber))

/-- The certificate that `push_known_worlds` sends instead of the payload: it commits the stored
record and the peer has a vote in one of its configurations. -/
def certificateToPush (peer : PeerId) (store : Store) :
    Option (MembershipRecordV1 × MembershipCertificateV1) :=
  match loadMembershipRecord site.world store, loadMembershipCertificate site.world store with
  | .ok membership, .ok certificate =>
    if certificate.proposal.proposed.recordHash C = membership.recordHash C ∧
        (proposalMember certificate.proposal peer).isSome then some (membership, certificate)
    else none
  | _, _ => none

/-- `push_known_worlds`, for the one world. -/
def pushKnownWorlds (peer : PeerId) : Daemon Unit := do
  let store ← readStore
  let host ← readHost
  let localIsAuthority := (optional (loadEpochRecord site.world store)).any fun epoch =>
    decide (epoch.authorityPeerId = site.peer C)
  onSome (optional (loadWorldDescriptor site.world store)) fun descriptor =>
    onlyIf (localIsAuthority = true ∨ host.backgroundSeeding = true) <|
      match certificateToPush C site peer store with
      | some (membership, certificate) =>
        sendRequest (site.peer C) peer (.membershipCommit certificate)
          (some (.membershipCommit peer membership.sequence))
      | none =>
        onlyIf ((optional (authorizedDescriptorMember C descriptor peer)).isSome)
          (pushCommittedWorldPayload C site peer true)

/-! ## Status and readiness -/

/-- `handle_request`, `WorldStatus`. -/
def handleWorldStatus (channel : Channel) : Daemon Unit := do
  let store ← readStore
  let status ← check (worldStatus C site store)
  respond channel (.worldStatus status)

/-- `handle_request`, `HostCapability`. -/
def handleHostCapability (channel : Channel) : Daemon Unit := do
  let store ← readStore
  let runtime ← readRuntime
  let host ← readHost
  let quorum ← check (localRecoveryQuorumWithoutAuthority C site runtime store)
  respond channel (.hostCapability (localHostCapability host quorum))

/-- `request_world_statuses`. -/
def requestWorldStatuses (descriptor : WorldDescriptorV1) : Daemon Unit := do
  let store ← readStore
  let runtime ← readRuntime
  let _ ← check (ofStorage (loadWorld C descriptor.worldId store))
  runtime.authenticatedPeers.forM fun peer =>
    onlyIf (peer ≠ site.peer C ∧ (descriptor.member peer).isSome)
      (sendUnlessPending (site.peer C) peer (.worldStatus descriptor.worldId) (.status peer))

/-- `request_host_capabilities`. -/
def requestHostCapabilities (descriptor : WorldDescriptorV1) : Daemon Unit := do
  let runtime ← readRuntime
  runtime.authenticatedPeers.forM fun peer =>
    onSome (descriptor.member peer) fun member =>
      onlyIf (peer ≠ site.peer C ∧ member.banned = false)
        (sendUnlessPending (site.peer C) peer (.hostCapability descriptor.worldId)
          (.hostCapability peer))

/-! ## Receiving a snapshot -/

/-- The checks of `commit_snapshot_streaming` and `commit_snapshot_fenced` before the intent is
written; the answer is whether the slot already holds the manifest. -/
def snapshotCommitted (manifest : SnapshotManifestV1) (store : Store) : Except StorageError Bool := do
  verifySnapshot C store manifest
  snapshotSlot C manifest store

/-- `commit_snapshot_streaming_inner`: the intent, then the new canonical head. -/
def commitSnapshot (fence : Option SnapshotCommitFence) (manifest : SnapshotManifestV1) :
    Daemon Unit := do
  let store ← readStore
  let committed ← check (ofStorage (snapshotCommitted C manifest store))
  onlyIf (committed = false) do
    save [] (beginSnapshotCommit C fence manifest)
    write (finishSnapshotCommit manifest)

/-- `finalize_replica` up to its commit; the answer is whether the manifest is already the head. -/
def replicaFinalized (manifest : SnapshotManifestV1) (store : Store) :
    Except StorageError Bool := do
  validateReplicaHistory C manifest store
  ensure (missingBlobs manifest store = []) (.incomplete manifest.snapshotNumber)
  let latest ← latestSnapshot store
  pure (decide (latest = some manifest))

/-- `finalize_and_ack`; the acknowledgement is not modelled. -/
def finalizeAndAck (manifest : SnapshotManifestV1) : Daemon Unit := do
  let store ← readStore
  check (ofCore (verifySnapshotSignature C manifest))
  let finalized ← check (ofStorage (replicaFinalized C manifest store))
  onlyIf (finalized = false) (commitSnapshot C none manifest)

/-- `handle_request`, `SnapshotManifest`. -/
def handleSnapshotManifest (channel : Channel) (manifest : SnapshotManifestV1) : Daemon Unit := do
  let store ← readStore
  check (authorizeManifest C channel.requester manifest store)
  let missing := missingBlobs manifest store
  setPendingManifest (some manifest)
  respond channel (.manifestAccepted manifest.snapshotNumber (missing.map BlobDescriptor.hash))
  onlyIf (missing = []) do
    finalizeAndAck C manifest
    setPendingManifest none

/-- The checks of `BlobChunk`: the blob it completes and the manifest it belongs to. -/
def blobChunkTarget (pending : Option SnapshotManifestV1) (hash : Hash32) (encoding : BlobEncoding)
    (finished intact : Bool) : Except DaemonError (SnapshotManifestV1 × BlobDescriptor) := do
  let manifest ← required pending (.message "blob chunk arrived without a negotiated manifest")
  let descriptor ← required (findDescriptor manifest hash)
    (.message "blob hash is not referenced by negotiated manifest")
  guardMessage (descriptor.encoding = encoding) "blob encoding does not match manifest"
  ensure (finished = false ∨ intact = true) (.storage (.blobCorrupt hash))
  pure (manifest, descriptor)

/-- `handle_request`, `BlobChunk`; a finished blob that verifies becomes readable. -/
def handleBlobChunk (channel : Channel) (worldId : WorldId) (hash : Hash32)
    (encoding : BlobEncoding) (finished intact : Bool) : Daemon Unit := do
  let store ← readStore
  let pending ← readPendingManifest
  check (authorizeMember C worldId channel.requester store)
  let target ← check (blobChunkTarget pending hash encoding finished intact)
  let manifest := target.1
  let descriptor := target.2
  onlyIf (finished = true) (write fun store => { store with blobs := descriptor :: store.blobs })
  respond channel (.blobChunkAccepted hash)
  let store ← readStore
  onlyIf (finished = true ∧ missingBlobs manifest store = []) do
    finalizeAndAck C manifest
    setPendingManifest none

/-! ## Preparing and voting -/

/-- The votes that leave a peer with an answer of `promise_membership_proposal`: the stored one. -/
def membershipVotesReleased (result : MembershipPromiseResult) (store : Store) : List Event :=
  match result, store.membershipPromise with
  | .rejected, _ => []
  | _, .present promise => [.votedMembership promise.proposal promise.vote]
  | _, _ => []

/-- `promise_membership_proposal` of the local vote. -/
def prepareMembership (proposal : MembershipProposalV1) (vote : MembershipVoteV1) :
    Daemon MembershipPromiseResult :=
  saveAnswer membershipVotesReleased fun store =>
    .ok (promiseMembershipProposal C proposal vote store)

/-- Forget the heartbeat of the server permit. -/
def clearPermitHeartbeat : Daemon Unit :=
  updateRuntime fun runtime => { runtime with permitHeartbeat := none }

/-- Keep the newest vote of a peer; a vote that replaces another one takes its place. -/
def LeaseRuntime.withMembershipVote (runtime : LeaseRuntime) (peer : PeerId)
    (vote : MembershipVoteV1) : LeaseRuntime :=
  { runtime with
    membershipVotes :=
      if runtime.membershipVotes.any fun entry => decide (entry.1 = peer) then
        runtime.membershipVotes.map fun entry => if entry.1 = peer then (peer, vote) else entry
      else (peer, vote) :: runtime.membershipVotes }

/-- The membership record an authority signs after the current one. -/
def nextMembership (current : MembershipRecordV1) (epoch : Nat) (members : List WorldMemberV1) :
    Except DaemonError MembershipRecordV1 := do
  let sequence ← required (checkedSucc current.sequence)
    (.message "membership sequence counter exhausted")
  ofCore (signMembership C site.identity {
    protocolVersion := current.protocolVersion
    worldId := current.worldId
    epoch := epoch
    sequence := sequence
    previousMembershipHash := some (current.recordHash C)
    members := members
    authorityPeerId := site.peer C
    authorityPublicKey := site.identity.publicKey
    signature := .empty })

/-- The second half of the `JoinRequest` and `LeaveRequest` handlers: propose a new member list,
prepare it locally and send it to the requester. -/
def proposeMembers (channel : Channel) (current : MembershipRecordV1)
    (members : List WorldMemberV1) (accepted : Nat → WireResponse) : Daemon Unit := do
  let next ← check (nextMembership C site current current.epoch members)
  let proposal : MembershipProposalV1 := ⟨current, next⟩
  check ((validateMembershipProposalShape C proposal).mapError .membership)
  let vote := signMembershipVote C site.identity proposal
  let result ← prepareMembership C proposal vote
  check (guardMessage (result ≠ .rejected) "membership proposal conflicts with a durable prepare")
  updateRuntime fun runtime => runtime.withMembershipVote (site.peer C) vote
  clearPermit
  clearPermitHeartbeat
  sendRequest (site.peer C) channel.requester (.membershipProposal proposal)
    (some (.membershipProposal channel.requester (proposal.proposalHash C)))
  respond channel (accepted next.sequence)

/-- The branch of the `JoinRequest` and `LeaveRequest` handlers in which a prepare exists: send it
again if it is the requested change. -/
def resumeProposal (channel : Channel) (current : MembershipRecordV1)
    (promise : DurableMembershipPromiseV1) (requested : Bool) (accepted : Nat → WireResponse) :
    Daemon Unit := do
  check (guardMessage (promise.proposal.previous.recordHash C = current.recordHash C ∧
      requested = true)
    "another membership transition is already durably prepared")
  sendRequest (site.peer C) channel.requester (.membershipProposal promise.proposal)
    (some (.membershipProposal channel.requester (promise.proposal.proposalHash C)))
  respond channel (accepted promise.proposal.proposed.sequence)

/-! ## Join and leave requests -/

/-- The checks of `JoinRequest` before it looks at the joining peer. -/
def joinRequestChecks (sender : PeerId) (request : JoinRequestV1) (host : LocalHost)
    (store : Store) : Except DaemonError (MembershipRecordV1 × WorldDescriptorV1) := do
  guardMessage (sender = request.joiningMember.peerId)
    "join request transport identity does not match joining peer"
  ofCore (verifyJoinRequestSignature C request)
  ofCore (verifyInviteSignature C request.invite)
  context (validateInviteExpiry request.invite.expiresUnixMs host.unixMillis)
    "join invite lifetime is invalid"
  let metadata ← ofStorage (loadWorld C request.worldId store)
  guardMessage (request.invite.genesis.worldId C = request.worldId ∧
      request.invite.genesis.compatibilityFingerprint = metadata.genesis.compatibilityFingerprint)
    "invite does not match local world genesis"
  let current ← ofStorage (loadMembershipRecord request.worldId store)
  ofCore (verifyMembershipSignature C current)
  guardMessage (current.authorityPeerId = site.peer C ∧
      current.authorityPublicKey = site.identity.publicKey)
    "only the current local authority may accept a join request"
  guardMessage (request.invite.inviterPeerId = current.authorityPeerId ∧
      request.invite.inviterPublicKey = current.authorityPublicKey)
    "join invite was not issued by the current authority"
  let descriptor ← ofStorage (loadWorldDescriptor request.worldId store)
  let inviter ← required (descriptor.member request.invite.inviterPeerId)
    (.message "invite signer is not a current world member")
  guardMessage (inviter.banned = false ∧ inviter.publicKey = request.invite.inviterPublicKey)
    "invite signer is banned or key does not match current membership"
  pure (current, descriptor)

/-- `handle_request`, `JoinRequest`. -/
def handleJoinRequest (channel : Channel) (request : JoinRequestV1) : Daemon Unit := do
  let store ← readStore
  let host ← readHost
  let target ← check (joinRequestChecks C site channel.requester request host store)
  let current := target.1
  let descriptor := target.2
  match descriptor.member request.joiningMember.peerId with
  | some member => do
    check (guardMessage (member.publicKey = request.joiningMember.publicKey ∧
        member.banned = false) "joining peer conflicts with existing membership")
    respond channel (.joinAccepted current.sequence)
    pushKnownWorlds C site channel.requester
  | none =>
    match loadMembershipPromise C request.worldId store with
    | .ok promise =>
      let requested := decide (promise.proposal.proposed.find request.joiningMember.peerId =
        some request.joiningMember)
      resumeProposal C site channel current promise requested .joinAccepted
    | .error _ =>
      let proposed := { descriptor with
        members := descriptor.members ++ [request.joiningMember] }.normalize
      proposeMembers C site channel current proposed.members .joinAccepted

/-- The checks of `LeaveRequest`. -/
def leaveRequestChecks (sender : PeerId) (request : LeaveRequestV1) (store : Store) :
    Except DaemonError (MembershipRecordV1 × WorldDescriptorV1) := do
  guardMessage (sender = request.leavingPeerId)
    "leave request transport identity does not match leaving peer"
  ofCore (verifyLeaveRequestSignature C request)
  let current ← ofStorage (loadMembershipRecord request.worldId store)
  ofCore (verifyMembershipSignature C current)
  guardMessage (current.authorityPeerId = site.peer C ∧
      current.authorityPublicKey = site.identity.publicKey)
    "only the current local authority may accept a leave request"
  guardMessage (request.leavingPeerId ≠ current.authorityPeerId)
    "authority must transfer authority before leaving"
  guardMessage (current.recordHash C = request.membershipHash)
    "leave request references stale membership"
  let descriptor ← ofStorage (loadWorldDescriptor request.worldId store)
  let leaving ← required (descriptor.member request.leavingPeerId)
    (.message "leaving peer is not a current world member")
  guardMessage (leaving.banned = false ∧ leaving.publicKey = request.leavingPublicKey)
    "leaving peer key does not match current membership"
  pure (current, descriptor)

/-- `handle_request`, `LeaveRequest`. -/
def handleLeaveRequest (channel : Channel) (request : LeaveRequestV1) : Daemon Unit := do
  let store ← readStore
  let target ← check (leaveRequestChecks C site channel.requester request store)
  let current := target.1
  let descriptor := target.2
  match loadMembershipPromise C request.worldId store with
  | .ok promise =>
    let absent := promise.proposal.proposed.members.all fun member =>
      decide (member.peerId ≠ request.leavingPeerId)
    resumeProposal C site channel current promise absent .leaveAccepted
  | .error _ =>
    let proposed := { descriptor with
      members := descriptor.members.filter fun member =>
        decide (member.peerId ≠ request.leavingPeerId) }.normalize
    proposeMembers C site channel current proposed.members .leaveAccepted

/-! ## Proposals and commits -/

/-- The checks of `MembershipProposal`. -/
def membershipProposalChecks (sender : PeerId) (proposal : MembershipProposalV1)
    (host : LocalHost) (store : Store) : Except DaemonError Unit := do
  guardMessage (sender = proposal.proposed.authorityPeerId)
    "membership proposal sender is not its signed authority"
  ofCore (verifyMembershipSignature C proposal.previous)
  ofCore (verifyMembershipSignature C proposal.proposed)
  (validateMembershipProposalShape C proposal).mapError .membership
  validateMembershipProposalForLocal C site host proposal store

/-- `handle_request`, `MembershipProposal`. It looks at no recovery promise and at no epoch. -/
def handleMembershipProposal (channel : Channel) (proposal : MembershipProposalV1) :
    Daemon Unit := do
  let store ← readStore
  let host ← readHost
  check (membershipProposalChecks C site channel.requester proposal host store)
  let result ← prepareMembership C proposal (signMembershipVote C site.identity proposal)
  check (guardMessage (result ≠ .rejected)
    "membership proposal conflicts with this peer's durable prepare")
  let store ← readStore
  let durable ← check (ofStorage (loadMembershipPromise C proposal.proposed.worldId store))
  clearPermit
  clearPermitHeartbeat
  respond channel (.membershipVote durable.vote)

/-- `clear_satisfied_pending_membership`. -/
def clearSatisfiedPendingMembership (descriptor : WorldDescriptorV1) : Daemon Unit := do
  let store ← readStore
  onSome (optional (loadPendingJoin C descriptor.worldId store)) fun join =>
    onSome (descriptor.member join.joiningMember.peerId) fun member =>
      onlyIf (member.publicKey = join.joiningMember.publicKey ∧ member.banned = false)
        (write clearPendingJoin)
  onSome (optional (loadPendingLeave C descriptor.worldId store)) fun leave =>
    onlyIf (descriptor.member leave.leavingPeerId = none) (write clearPendingLeave)

/-- The committed configuration is one of the two of the certificate, or the staged join is part
of it. -/
def appliesTo (proposal : MembershipProposalV1) (store : Store) : Except DaemonError Unit :=
  match loadMembershipRecord proposal.proposed.worldId store with
  | .ok current =>
    guardMessage (current = proposal.proposed ∨
        current.recordHash C = proposal.previous.recordHash C)
      "cannot apply membership certificate over an unrelated committed configuration"
  | .error _ => do
    let join ← context (loadPendingJoin C proposal.proposed.worldId store)
      "cannot bootstrap non-genesis membership without a pending join"
    guardMessage (proposal.proposed.find join.joiningMember.peerId = some join.joiningMember)
      "membership certificate does not contain the locally pending join"

/-- The checks of `apply_membership_certificate`; the answer is the new descriptor. -/
def applyMembershipChecks (certificate : MembershipCertificateV1) (store : Store) :
    Except DaemonError WorldDescriptorV1 := do
  validateMembershipCertificateSignatures C certificate
  let proposal := certificate.proposal
  appliesTo C proposal store
  let descriptor ← ofStorage (loadWorldDescriptor proposal.proposed.worldId store)
  pure { descriptor with members := proposal.proposed.members }.normalize

/-- `apply_membership_certificate`. -/
def applyMembershipCertificate (certificate : MembershipCertificateV1) : Daemon Unit := do
  let store ← readStore
  let descriptor ← check (applyMembershipChecks C certificate store)
  let committed := certificate.proposal.proposed
  save [] (saveMembershipRecord C committed)
  save [] (saveWorldDescriptor descriptor)
  write (clearMembershipPromiseAfterCommit C committed.worldId (committed.recordHash C))
  clearSatisfiedPendingMembership C descriptor

/-- `save_membership_certificate`: the archive entry, then the current certificate. -/
def saveMembershipCertificate (certificate : MembershipCertificateV1) : Daemon Unit := do
  save [] (archiveMembershipCertificate certificate)
  write (publishMembershipCertificate certificate)

/-- `handle_request`, `MembershipCommit`. -/
def handleMembershipCommit (channel : Channel) (certificate : MembershipCertificateV1) :
    Daemon Unit := do
  let store ← readStore
  let host ← readHost
  check (guardMessage (channel.requester = certificate.proposal.proposed.authorityPeerId)
    "membership commit sender is not its signed authority")
  check (validateMembershipCertificateForLocal C site host certificate store)
  saveMembershipCertificate certificate
  applyMembershipCertificate C certificate
  clearPermit
  updateRuntime fun runtime => { runtime with permitHeartbeat := none, membershipVotes := [] }
  respond channel (.membershipCommitAccepted certificate.proposal.proposed.sequence)

/-! ## Records that keep the voter set -/

/-- The accepted epoch allows the record. -/
def membershipWithinEpoch (record : MembershipRecordV1) (epoch : EpochRecordV1) :
    Except DaemonError Unit := do
  guardMessage (record.epoch ≤ epoch.epochNumber)
    "membership cannot advance before its authority epoch is accepted"
  onlyIf (record.epoch = epoch.epochNumber) <|
    guardMessage (record.authorityPeerId = epoch.authorityPeerId ∧
        record.authorityPublicKey = epoch.authorityPublicKey)
      "membership authority does not match the accepted epoch"

/-- The record extends the committed one without changing its voters. -/
def extendsSameVoters (record current : MembershipRecordV1) : Except DaemonError Unit := do
  guardMessage (record.members = current.members)
    "membership voter-set changes require a joint membership certificate"
  guardMessage (record.previousMembershipHash = some (current.recordHash C))
    "same-voter membership record must directly extend the committed membership"
  let sequence ← required (checkedSucc current.sequence)
    (.message "membership sequence counter exhausted")
  guardMessage (record.sequence = sequence)
    "same-voter membership record must directly extend the committed membership"
  guardMessage (current.epoch ≤ record.epoch) "stale membership record rejected"

/-- The record may follow the stored one, or be the first record. -/
def followsCommittedMembership (record : MembershipRecordV1) (store : Store) :
    Except DaemonError Unit :=
  match loadMembershipRecord record.worldId store with
  | .ok current => extendsSameVoters C record current
  | .error _ =>
    guardMessage (record.sequence = 1 ∧ record.previousMembershipHash = none)
      "non-genesis membership requires a joint membership certificate"

/-- The checks of `Membership` before the idempotent answer. -/
def membershipChecks (record : MembershipRecordV1) (store : Store) : Except DaemonError Unit := do
  ofCore (verifyMembershipSignature C record)
  authorizeMember C record.worldId record.authorityPeerId store
  onSome (optional (loadEpochRecord record.worldId store)) (membershipWithinEpoch record)

/-- `handle_request`, `Membership`. -/
def handleMembership (channel : Channel) (record : MembershipRecordV1) : Daemon Unit := do
  let store ← readStore
  check (membershipChecks C record store)
  if optional (loadMembershipRecord record.worldId store) = some record then
    respond channel (.membershipAccepted record.sequence)
  else do
    check (followsCommittedMembership C record store)
    let descriptor ← check (ofStorage (loadWorldDescriptor record.worldId store))
    let descriptor := { descriptor with members := record.members }.normalize
    save [] (saveMembershipRecord C record)
    save [] (saveWorldDescriptor descriptor)
    clearSatisfiedPendingMembership C descriptor
    respond channel (.membershipAccepted record.sequence)

/-! ## Driving a prepared change -/

/-- Whether a stored certificate still has to be applied, by `recover_committed_membership`. -/
inductive CommittedMembership where
  /-- The stored record is the committed one; its prepare can go. -/
  | applied (current : MembershipRecordV1)
  /-- A later record replaced it. -/
  | superseded
  /-- It has to be applied. -/
  | outstanding
  deriving DecidableEq

/-- The case distinction of `recover_committed_membership`. -/
def committedMembership (certificate : MembershipCertificateV1) (store : Store) :
    Except DaemonError CommittedMembership :=
  match loadMembershipRecord site.world store with
  | .error _ => pure .outstanding
  | .ok current => do
    ofCore (verifyMembershipSignature C current)
    let proposed := certificate.proposal.proposed
    if current = proposed then pure (.applied current)
    else if proposed.epoch < current.epoch ∨
        proposed.epoch = current.epoch ∧ proposed.sequence < current.sequence then
      pure .superseded
    else pure .outstanding

/-- `recover_committed_membership`. -/
def recoverCommittedMembership : Daemon Unit := do
  let store ← readStore
  let host ← readHost
  onSome (optional (loadMembershipCertificate site.world store)) fun certificate => do
    match ← check (committedMembership C site certificate store) with
    | .applied current =>
      write (clearMembershipPromiseAfterCommit C site.world (current.recordHash C))
    | .superseded => pure ()
    | .outstanding => do
      check (validateMembershipCertificateForLocal C site host certificate store)
      applyMembershipCertificate C certificate

/-- The peers of both configurations that pass a filter. -/
def proposalAudience (proposal : MembershipProposalV1) (audience : WorldMemberV1 → Bool) :
    List PeerId :=
  (((proposal.previous.members ++ proposal.proposed.members).filter audience).map
    WorldMemberV1.peerId).dedup

/-- Send the proposal to every connected voter that was not asked yet. -/
def sendProposals (proposal : MembershipProposalV1) : Daemon Unit := do
  let runtime ← readRuntime
  (proposalAudience proposal fun member => !member.banned).forM fun peer =>
    onlyIf (peer ≠ site.peer C ∧ runtime.connected peer = true)
      (sendUnlessPending (site.peer C) peer (.membershipProposal proposal)
        (.membershipProposal peer (proposal.proposalHash C)))

/-- Send the certificate to every connected member of both configurations. -/
def sendCommits (certificate : MembershipCertificateV1) : Daemon Unit := do
  let runtime ← readRuntime
  (proposalAudience certificate.proposal fun _ => true).forM fun peer =>
    onlyIf (peer ≠ site.peer C ∧ runtime.connected peer = true)
      (sendRequest (site.peer C) peer (.membershipCommit certificate)
        (some (.membershipCommit peer certificate.proposal.proposed.sequence)))

/-- The certificate made of the collected votes, once both quorums are there. -/
def assembleCertificate (proposal : MembershipProposalV1) (runtime : LeaseRuntime) :
    Except DaemonError (Option MembershipCertificateV1) :=
  let certificate : MembershipCertificateV1 :=
    ⟨proposal, (runtime.membershipVotes.map Prod.snd).filter fun vote =>
      vote.matchesProposal C proposal⟩
  match validateMembershipCertificateShape C certificate with
  | .ok () => do
    certificate.votes.forM fun vote => ofCore (verifyMembershipVoteSignature C vote)
    pure (some certificate)
  | .error (.oldQuorumUnavailable _ _) => pure none
  | .error (.newQuorumUnavailable _ _) => pure none
  | .error error => .error (.membership error)

/-- The part of `maintain_membership_transition` in which the proposal is still open. -/
def driveProposal (promise : DurableMembershipPromiseV1) : Daemon Unit := do
  check (ofCore (verifyMembershipVoteSignature C promise.vote))
  updateRuntime fun runtime => runtime.withMembershipVote (site.peer C) promise.vote
  sendProposals C site promise.proposal
  let runtime ← readRuntime
  let certificate ← check (assembleCertificate C promise.proposal runtime)
  onSome certificate fun certificate => do
    saveMembershipCertificate certificate
    applyMembershipCertificate C certificate
    updateRuntime fun runtime => { runtime with membershipVotes := [] }
    sendCommits C site certificate

/-- `maintain_membership_transition`. -/
def maintainMembershipTransition (promise : DurableMembershipPromiseV1) : Daemon Unit := do
  let proposal := promise.proposal
  onlyIf (proposal.proposed.authorityPeerId = site.peer C ∧
      proposal.proposed.authorityPublicKey = site.identity.publicKey) do
    let store ← readStore
    let current ← check (ofStorage (loadMembershipRecord proposal.proposed.worldId store))
    if current = proposal.proposed then
      write (clearMembershipPromiseAfterCommit C proposal.proposed.worldId (current.recordHash C))
    else do
      check (guardMessage (current.recordHash C = proposal.previous.recordHash C)
        "durable membership proposal no longer extends the committed membership")
      driveProposal C site promise

end SwarmCraft
