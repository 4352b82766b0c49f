import SwarmCraft.Cli.Command
import SwarmCraft.Core.Transition

/-!
# What a peer can do

One inductive relation lists every change a handler, a tick or a command can make to
the records the protocol rests on, with the checks that precede it. Every invariant of
a peer is proved over these moves; that the code makes no other change is proved once,
handler by handler. A durable write keeps each file, or is one of the few writes to it.
-/

namespace SwarmCraft

open Checked Effect
open List (mem_singleton not_mem_nil)

/-- An event with the node and the time it happened at. -/
structure Stamp extends Entry where
  time : Nat

/-- An event of a handler that runs at a time. -/
def Entry.stamp (time : Nat) (entry : Entry) : Stamp := ⟨entry, time⟩

/-- A peer together with the record of what it did. -/
structure Peer where
  node : Node
  log : List Stamp

/-- What a step was told: the sender and the message, where there is one. -/
abbrev Heard : Type := Option (PeerId × Body)

section Moves

variable (C : Crypto) (site : Site) (heard : Heard)

/-- The files that the invariants of the protocol read. -/
structure SameControl (store store' : Store) : Prop where
  epoch : store'.epoch = store.epoch
  recoveryPromise : store'.recoveryPromise = store.recoveryPromise
  membership : store'.membership = store.membership
  membershipPromise : store'.membershipPromise = store.membershipPromise
  snapshots : store'.snapshots = store.snapshots

/-- The accepted record of a store. -/
def Accepted (store : Store) (record : EpochRecordV1) : Prop :=
  loadEpochRecord site.world store = .ok record

/-- No membership change is prepared. -/
def Unprepared (store : Store) : Prop :=
  ∀ promise, loadMembershipPromise C site.world store ≠ .ok promise

/-- The base of a ballot is what the store holds. -/
structure OnBase (store : Store) (ballot : RecoveryBallotV1) : Prop where
  epoch : ∀ current, Accepted site store current → ballot.baseEpoch = current.epochNumber ∧
    ballot.baseFencingToken = current.fencingToken
  head : ∃ latest, latestSnapshot store = .ok (some latest) ∧
    latest.manifestHash C = ballot.baseSnapshotHash
  membership : ∃ record, loadMembershipRecord site.world store = .ok record ∧
    record.recordHash C = ballot.membershipHash

/-- What holds when a peer promises a ballot. -/
structure Votable (node : Node) (ballot : RecoveryBallotV1) (wake : Bool) : Prop where
  world : ballot.worldId = site.world
  accepted : ∃ current, Accepted site node.store current
  base : OnBase C site node.store ballot
  unprepared : Unprepared C site node.store
  expired : wake = false → ∀ current, Accepted site node.store current →
    node.runtime.connected current.authorityPeerId = false ∧
      recoveryWindowOpen node.runtime current.generation site.now = true

/-- A record directly extends the accepted one. -/
def Extends (store : Store) (record : EpochRecordV1) : Prop :=
  ∀ current, Accepted site store current → record.epochNumber = current.epochNumber + 1 ∧
    record.fencingToken = current.fencingToken + 1 ∧
    record.previousEpochHash = some (epochRecordHash C current)

/-- The member list a recovery certificate is checked against: that of the stored membership
record, or that of the descriptor where the candidate installs its own certificate. -/
def CertifiedMembers (store : Store) (members : List PeerId) : Prop :=
  (∃ record, loadMembershipRecord site.world store = .ok record ∧ members = record.activeIds) ∨
    ∃ descriptor, loadWorldDescriptor site.world store = .ok descriptor ∧
      members = descriptor.active.map WorldMemberV1.peerId

/-- Where the votes of a certificate come from: the message that was received, or the votes that
were collected. -/
def Collected (node : Node) (record : EpochRecordV1) (certificate : RecoveryCertificateV1) : Prop :=
  (∃ sender, heard = some (sender, .request (.recoveryEpoch record certificate))) ∨
    ∀ vote ∈ certificate.votes, ∃ peer, (peer, vote) ∈ node.runtime.recoveryVotes

/-- What holds when a peer accepts a recovery record. -/
structure Recovered (node : Node) (record : EpochRecordV1)
    (certificate : RecoveryCertificateV1) : Prop where
  world : record.worldId = site.world
  mode : record.mode = .recovery
  unprepared : Unprepared C site node.store
  follows : Extends C site node.store record
  base : OnBase C site node.store certificate.ballot
  named : record.epochNumber = certificate.ballot.targetEpoch ∧
    record.fencingToken = certificate.ballot.targetFencingToken ∧
    record.authorityPeerId = certificate.ballot.candidatePeerId
  members : ∃ members, CertifiedMembers site node.store members ∧
    validateRecoveryCertificateShape C certificate members = .ok ()
  signed : ∀ vote ∈ certificate.votes, verifyRecoveryVoteSignature C vote = .ok ()
  collected : Collected heard node record certificate

/-- The durable writes of a peer, each with the events it stands for. -/
inductive StoreMove (node : Node) : Store → List Event → Prop where
  /-- A write to files that the invariants do not read. -/
  | quiet {store : Store} (same : SameControl node.store store) : StoreMove node store []
  /-- `promise_recovery_ballot`. -/
  | promised {ballot : RecoveryBallotV1} {vote : RecoveryVoteV1} {wake : Bool}
      {result : RecoveryPromiseResult} {store : Store} (votable : Votable C site node ballot wake)
      (own : vote.voterPeerId = site.peer C)
      (saved : promiseRecoveryBallot C ballot vote node.store = .ok (result, store)) :
      StoreMove node store (recoveryVotesReleased wake result store)
  /-- `save_epoch_record` of a recovery record whose certificate is stored. -/
  | recovered {record : EpochRecordV1} {certificate : RecoveryCertificateV1} {store : Store}
      (certified : Recovered C site heard node record certificate)
      (saved : saveEpochRecord record node.store = .ok store)
      (stored : node.store.recoveryCertificate = .present certificate) :
      StoreMove node store [.storedEpoch record]
  /-- `save_epoch_record` of any other record. -/
  | installed {record : EpochRecordV1} {store : Store} (world : record.worldId = site.world)
      (mode : record.mode ≠ .recovery) (follows : Extends C site node.store record)
      (saved : saveEpochRecord record node.store = .ok store) :
      StoreMove node store [.storedEpoch record]
  /-- `clear_recovery_promise_after_epoch_advance` with the number of the stored record. -/
  | releasedRecovery {record : EpochRecordV1} (stored : node.store.epoch = .present record) :
      StoreMove node
        (clearRecoveryPromiseAfterEpochAdvance C site.world record.epochNumber node.store) []
  /-- `promise_membership_proposal`. -/
  | prepared {proposal : MembershipProposalV1} {vote : MembershipVoteV1}
      {result : MembershipPromiseResult} {store : Store}
      (world : proposal.proposed.worldId = site.world)
      (onCommitted : ∀ current, loadMembershipRecord site.world node.store = .ok current →
        current = proposal.previous)
      (own : vote.voterPeerId = site.peer C)
      (saved : promiseMembershipProposal C proposal vote node.store = (result, store)) :
      StoreMove node store (membershipVotesReleased result store)
  /-- `clear_membership_promise_after_commit` with the hash of the stored record. -/
  | releasedMembership {record : MembershipRecordV1}
      (stored : loadMembershipRecord site.world node.store = .ok record) :
      StoreMove node
        (clearMembershipPromiseAfterCommit C site.world (record.recordHash C) node.store) []
  /-- `save_membership_record`. -/
  | savedMembership {record : MembershipRecordV1} {store : Store}
      (world : record.worldId = site.world)
      (saved : saveMembershipRecord C record node.store = .ok store) : StoreMove node store []
  /-- The new canonical head of a snapshot commit. -/
  | committed {manifest : SnapshotManifestV1}
      (direct : validateDirectExtension C node.store.snapshots.head? manifest = .ok ()) :
      StoreMove node (finishSnapshotCommit manifest node.store) []

/-- A change of memory that learns nothing new: acknowledgements and leases are only forgotten,
the recovery delay may start, and a vote is only added from the stored promise. -/
structure Quieter (node : Node) (runtime : LeaseRuntime) : Prop where
  leaseAcks : ∀ peer ack, runtime.leaseAcks peer = some ack →
    node.runtime.leaseAcks peer = some ack
  epochAcks : ∀ peer generation, runtime.epochAcks peer = some generation →
    node.runtime.epochAcks peer = some generation
  inboundLease : ∀ lease, runtime.inboundLease = some lease →
    node.runtime.inboundLease = some lease
  recoveryNotBefore : ∀ deadline, runtime.recoveryNotBefore = some deadline →
    node.runtime.recoveryNotBefore = some deadline ∨
      deadline = site.now + (authorityLeaseDurationMs + recoverySettleDelay)
  recoveryVotes : ∀ entry ∈ runtime.recoveryVotes, entry ∈ node.runtime.recoveryVotes ∨
    ∃ promise, node.store.recoveryPromise = .present promise ∧ entry.2 = promise.vote

/-- The changes of a daemon's memory. -/
inductive RuntimeMove (node : Node) : LeaseRuntime → Prop where
  | quiet {runtime : LeaseRuntime} (quieter : Quieter site node runtime) : RuntimeMove node runtime
  /-- A lease is granted. -/
  | granted (generation : AuthorityGeneration) :
      RuntimeMove node (node.runtime.granted generation (site.now + authorityLeaseDurationMs))
  /-- An acknowledgement of an epoch record arrives. -/
  | epochAcked {peer : PeerId} {generation : AuthorityGeneration}
      (told : heard = some (peer,
        .response (.epochAccepted generation.epoch generation.fencingToken))) :
      RuntimeMove node { node.runtime with
        epochAcks := Function.update node.runtime.epochAcks peer (some generation) }
  /-- A recovery vote arrives. -/
  | voteCollected {peer : PeerId} {vote : RecoveryVoteV1}
      (told : heard = some (peer, .response (.recoveryVote vote))) :
      RuntimeMove node { node.runtime with
        recoveryVotes := (peer, vote) :: node.runtime.recoveryVotes.filter fun entry =>
          decide (entry.1 ≠ peer) }

/-- The events that are recorded without a durable write. -/
inductive LogMove (node : Node) : Event → Prop where
  /-- A lease of the accepted generation was granted to its authority just now. -/
  | acceptedLease {record : EpochRecordV1} (accepted : Accepted site node.store record)
      (lease : node.runtime.inboundLease =
        some ⟨record.generation, site.now + authorityLeaseDurationMs⟩)
      (delay : node.runtime.recoveryNotBefore =
        some (site.now + authorityLeaseDurationMs + recoverySettleDelay)) :
      LogMove node (.acceptedLease record.generation record.authorityPeerId)
  /-- The permit of the local authority was refreshed under a quorum of fresh leases. -/
  | refreshedPermit {descriptor : WorldDescriptorV1} {record : EpochRecordV1}
      {member : WorldMemberV1} (accepted : Accepted site node.store record)
      (described : loadWorldDescriptor site.world node.store = .ok descriptor)
      (mode : record.mode ≠ .solo) (authority : record.authorityPeerId = site.peer C)
      (active : member ∈ descriptor.active) (isLocal : member.peerId = site.peer C)
      (quorum : leaseQuorum C site descriptor record.generation node.runtime = true) :
      LogMove node (.refreshedPermit record.generation)

/-- One atomic action of a peer. -/
inductive PeerMove : Peer → Peer → Prop where
  | stored {peer : Peer} {store : Store} {events : List Event}
      (move : StoreMove C site heard peer.node store events) :
      PeerMove peer ⟨{ peer.node with store := store },
        peer.log ++ events.map fun event => ⟨⟨peer.node, event⟩, site.now⟩⟩
  | remembered {peer : Peer} {runtime : LeaseRuntime}
      (move : RuntimeMove site heard peer.node runtime) :
      PeerMove peer ⟨{ peer.node with runtime := runtime }, peer.log⟩
  | logged {peer : Peer} {event : Event} (move : LogMove C site peer.node event) :
      PeerMove peer ⟨peer.node, peer.log ++ [⟨⟨peer.node, event⟩, site.now⟩]⟩
  /-- A lease acknowledgement arrives and is remembered. -/
  | confirmed {peer : Peer} {other : PeerId} {generation : AuthorityGeneration}
      (told : heard = some (other,
        .response (.leaseAccepted generation.epoch generation.fencingToken))) :
      PeerMove peer ⟨{ peer.node with runtime := { peer.node.runtime with
          leaseAcks := Function.update peer.node.runtime.leaseAcks other
            (some ⟨generation, site.now⟩) } },
        peer.log ++ [⟨⟨peer.node, .confirmedLease other generation⟩, site.now⟩]⟩
  /-- The bookkeeping of requests and of the pending manifest, and changes of the machine. -/
  | bookkept {peer : Peer} (outbound : List (Nat × OutboundContext)) (nextRequest : Nat)
      (pendingManifest : Option SnapshotManifestV1) (host : LocalHost) :
      PeerMove peer ⟨{ peer.node with
        outbound := outbound
        nextRequest := nextRequest
        pendingManifest := pendingManifest
        host := host }, peer.log⟩

end Moves

variable {C : Crypto} {site : Site} {heard : Heard} {node : Node} {store : Store}
  {events : List Event}
variable {event : Event} {a b : Node} {generation : AuthorityGeneration}

/-! ## Promises -/

/-- Preparing a membership change writes the membership promise only. -/
theorem promiseMembershipProposal_keeps {proposal : MembershipProposalV1} {vote : MembershipVoteV1}
    {result : MembershipPromiseResult} {before after : Store}
    (h : promiseMembershipProposal C proposal vote before = (result, after)) :
    after = { before with membershipPromise := after.membershipPromise } := by
  have hresult := promiseMembershipProposal_eq h
  cases result with
  | rejected => rw [hresult]
  | idempotent => rw [hresult.1]
  | accepted => rw [hresult.1]

/-- Promising a ballot writes the recovery promise only. -/
theorem promiseRecoveryBallot_keeps {ballot : RecoveryBallotV1} {vote : RecoveryVoteV1}
    {result : RecoveryPromiseResult} {before after : Store}
    (h : promiseRecoveryBallot C ballot vote before = .ok (result, after)) :
    after = { before with recoveryPromise := after.recoveryPromise } := by
  obtain ⟨_, hresult⟩ := promiseRecoveryBallot_eq_ok h
  cases result with
  | rejected round => rw [hresult]
  | idempotent => rw [hresult.1]
  | accepted => rw [hresult.1]

/-- Clearing a recovery promise writes that file only. -/
theorem clearRecoveryPromise_keeps (world : WorldId) (acceptedEpoch : Nat) (before : Store) :
    clearRecoveryPromiseAfterEpochAdvance C world acceptedEpoch before =
      { before with recoveryPromise :=
        (clearRecoveryPromiseAfterEpochAdvance C world acceptedEpoch before).recoveryPromise } := by
  rcases @clearRecoveryPromise_cases C world acceptedEpoch before with h | ⟨_, _, _, h⟩
  · rw [h]
  · rw [h]

/-- Clearing a membership promise writes that file only. -/
theorem clearMembershipPromise_keeps (world : WorldId) (record : MembershipRecordV1)
    (before : Store) :
    clearMembershipPromiseAfterCommit C world (record.recordHash C) before =
      { before with membershipPromise := (clearMembershipPromiseAfterCommit C world
        (record.recordHash C) before).membershipPromise } := by
  rcases @clearMembershipPromise_cases C world record before with h | ⟨_, _, _, h⟩
  · rw [h]
  · rw [h]

/-- A released membership vote is the stored one. -/
theorem mem_membershipVotesReleased {result : MembershipPromiseResult}
    (h : event ∈ membershipVotesReleased result store) :
    ∃ promise, store.membershipPromise = .present promise ∧
      event = .votedMembership promise.proposal promise.vote := by
  unfold membershipVotesReleased at h
  split at h
  · cases h
  · rename_i promise _ hfile
    rw [mem_singleton] at h
    exact ⟨promise, hfile, h⟩
  · cases h

/-- A released recovery vote is the stored one. -/
theorem mem_recoveryVotesReleased {wake : Bool} {result : RecoveryPromiseResult}
    (h : event ∈ recoveryVotesReleased wake result store) :
    ∃ promise, store.recoveryPromise = .present promise ∧
      event = .votedRecovery promise.ballot promise.vote wake := by
  unfold recoveryVotesReleased at h
  split at h
  · cases h
  · rename_i promise _ hfile
    rw [mem_singleton] at h
    exact ⟨promise, hfile, h⟩
  · cases h

/-! ## The epoch file -/

/-- A write to the epoch file: a direct successor, certified or of another mode. -/
structure EpochMove (C : Crypto) (site : Site) (heard : Heard) (node : Node) (store : Store)
    (record : EpochRecordV1) : Prop where
  world : record.worldId = site.world
  follows : Extends C site node.store record
  saved : saveEpochRecord record node.store = .ok store
  origin : record.mode ≠ .recovery ∨
    ∃ certificate, Recovered C site heard node record certificate ∧
      node.store.recoveryCertificate = .present certificate

/-- A durable write keeps the accepted record or installs a direct successor. -/
theorem StoreMove.epoch_cases (h : StoreMove C site heard node store events) :
    (store.epoch = node.store.epoch ∧ ∀ record, Event.storedEpoch record ∉ events) ∨
      ∃ record, events = [.storedEpoch record] ∧ EpochMove C site heard node store record := by
  cases h with
  | quiet same => exact .inl ⟨same.epoch, fun _ => not_mem_nil⟩
  | promised votable own saved =>
    refine .inl ⟨by rw [promiseRecoveryBallot_keeps saved], fun record hmem => ?_⟩
    obtain ⟨_, _, hevent⟩ := mem_recoveryVotesReleased hmem
    cases hevent
  | @recovered record certificate store certified saved stored =>
    exact .inr ⟨record, rfl, certified.world, certified.follows, saved, .inr ⟨_, certified, stored⟩⟩
  | @installed record store world mode follows saved =>
    exact .inr ⟨record, rfl, world, follows, saved, .inl mode⟩
  | releasedRecovery stored =>
    refine .inl ⟨?_, fun _ => not_mem_nil⟩
    rw [clearRecoveryPromise_keeps]
  | prepared world onCommitted own saved =>
    refine .inl ⟨by rw [promiseMembershipProposal_keeps saved], fun record hmem => ?_⟩
    obtain ⟨_, _, hevent⟩ := mem_membershipVotesReleased hmem
    cases hevent
  | releasedMembership stored =>
    refine .inl ⟨?_, fun _ => not_mem_nil⟩
    rw [clearMembershipPromise_keeps]
  | savedMembership world saved =>
    refine .inl ⟨?_, fun _ => not_mem_nil⟩
    rw [(saveMembershipRecord_eq_ok saved).1]
  | committed direct => exact .inl ⟨rfl, fun _ => not_mem_nil⟩

/-! ## The recovery promise -/

/-- A write of the recovery promise: a promised ballot, or the release after the epoch moved. -/
inductive RecoveryPromiseMove (C : Crypto) (site : Site) (node : Node) :
    Store → List Event → Prop where
  | promised {ballot : RecoveryBallotV1} {vote : RecoveryVoteV1} {wake : Bool}
      {result : RecoveryPromiseResult} {store : Store} (votable : Votable C site node ballot wake)
      (own : vote.voterPeerId = site.peer C)
      (saved : promiseRecoveryBallot C ballot vote node.store = .ok (result, store)) :
      RecoveryPromiseMove C site node store (recoveryVotesReleased wake result store)
  | released {record : EpochRecordV1} (stored : node.store.epoch = .present record) :
      RecoveryPromiseMove C site node
        (clearRecoveryPromiseAfterEpochAdvance C site.world record.epochNumber node.store) []

/-- A durable write keeps the recovery promise and releases no recovery vote, or is one of the
two writes of the promise. -/
theorem StoreMove.recoveryPromise_cases (h : StoreMove C site heard node store events) :
    (store.recoveryPromise = node.store.recoveryPromise ∧
        ∀ ballot vote wake, Event.votedRecovery ballot vote wake ∉ events) ∨
      RecoveryPromiseMove C site node store events := by
  cases h with
  | quiet same => exact .inl ⟨same.recoveryPromise, fun _ _ _ => not_mem_nil⟩
  | promised votable own saved => exact .inr (.promised votable own saved)
  | recovered certified saved =>
    refine .inl ⟨?_, by simp⟩
    rw [(saveEpochRecord_eq_ok saved).1]
  | installed world mode follows saved =>
    refine .inl ⟨?_, by simp⟩
    rw [(saveEpochRecord_eq_ok saved).1]
  | releasedRecovery stored => exact .inr (.released stored)
  | prepared world onCommitted own saved =>
    refine .inl ⟨by rw [promiseMembershipProposal_keeps saved], fun _ _ _ hmem => ?_⟩
    obtain ⟨_, _, hevent⟩ := mem_membershipVotesReleased hmem
    cases hevent
  | releasedMembership stored =>
    refine .inl ⟨?_, fun _ _ _ => not_mem_nil⟩
    rw [clearMembershipPromise_keeps]
  | savedMembership world saved =>
    refine .inl ⟨?_, fun _ _ _ => not_mem_nil⟩
    rw [(saveMembershipRecord_eq_ok saved).1]
  | committed direct => exact .inl ⟨rfl, fun _ _ _ => not_mem_nil⟩

/-- A promise that a durable write leaves was stored before, or is voted for with the write. -/
theorem StoreMove.promise_origin {promise : DurableRecoveryPromiseV1}
    (h : StoreMove C site heard node store events)
    (hpromise : store.recoveryPromise = .present promise) :
    node.store.recoveryPromise = .present promise ∨
      ∃ wake, Votable C site node promise.ballot wake ∧ promise.vote.voterPeerId = site.peer C ∧
        events = [.votedRecovery promise.ballot promise.vote wake] := by
  rcases h.recoveryPromise_cases with ⟨hsame, _⟩ | hmove
  · exact .inl (hsame.symm.trans hpromise)
  cases hmove with
  | @promised ballot vote wake result store votable own saved =>
    obtain ⟨_, hresult⟩ := promiseRecoveryBallot_eq_ok saved
    cases result with
    | rejected round => exact .inl (hresult ▸ hpromise)
    | idempotent => exact .inl (hresult.1 ▸ hpromise)
    | accepted =>
      -- The only write of a promise: it stores the ballot and the vote that it releases.
      have hstored := congrArg Store.recoveryPromise hresult.1
      rw [hpromise, DurableFile.present.injEq] at hstored
      subst hstored
      refine .inr ⟨wake, votable, own, ?_⟩
      simp only [recoveryVotesReleased, hpromise]
  | @released record stored =>
    rcases @clearRecoveryPromise_cases C site.world record.epochNumber node.store with
      hsame | ⟨_, _, _, hcleared⟩
    · exact .inl (hsame ▸ hpromise)
    · rw [hcleared] at hpromise
      cases hpromise

/-! ## Membership -/

/-- A durable write keeps the membership record or saves another one. -/
theorem StoreMove.membership_cases (h : StoreMove C site heard node store events) :
    store.membership = node.store.membership ∨
      ∃ record : MembershipRecordV1, record.worldId = site.world ∧
        saveMembershipRecord C record node.store = .ok store := by
  cases h with
  | quiet same => exact .inl same.membership
  | promised votable own saved => exact .inl (by rw [promiseRecoveryBallot_keeps saved])
  | recovered certified saved => exact .inl (by rw [(saveEpochRecord_eq_ok saved).1])
  | installed world mode follows saved => exact .inl (by rw [(saveEpochRecord_eq_ok saved).1])
  | releasedRecovery stored => exact .inl (by rw [clearRecoveryPromise_keeps])
  | prepared world onCommitted own saved =>
    exact .inl (by rw [promiseMembershipProposal_keeps saved])
  | releasedMembership stored => exact .inl (by rw [clearMembershipPromise_keeps])
  | savedMembership world saved => exact .inr ⟨_, world, saved⟩
  | committed direct => exact .inl rfl

/-- A write of the membership promise: a prepared proposal, or the release after its commit. -/
inductive MembershipPromiseMove (C : Crypto) (site : Site) (node : Node) :
    Store → List Event → Prop where
  | prepared {proposal : MembershipProposalV1} {vote : MembershipVoteV1}
      {result : MembershipPromiseResult} {store : Store}
      (world : proposal.proposed.worldId = site.world)
      (onCommitted : ∀ current, loadMembershipRecord site.world node.store = .ok current →
        current = proposal.previous)
      (saved : promiseMembershipProposal C proposal vote node.store = (result, store)) :
      MembershipPromiseMove C site node store (membershipVotesReleased result store)
  | released {record : MembershipRecordV1}
      (stored : loadMembershipRecord site.world node.store = .ok record) :
      MembershipPromiseMove C site node
        (clearMembershipPromiseAfterCommit C site.world (record.recordHash C) node.store) []

/-- A durable write keeps the membership promise and releases no membership vote, or is one of
the two writes of the promise. -/
theorem StoreMove.membershipPromise_cases (h : StoreMove C site heard node store events) :
    (store.membershipPromise = node.store.membershipPromise ∧
        ∀ proposal vote, Event.votedMembership proposal vote ∉ events) ∨
      MembershipPromiseMove C site node store events := by
  cases h with
  | quiet same => exact .inl ⟨same.membershipPromise, fun _ _ => not_mem_nil⟩
  | promised votable own saved =>
    refine .inl ⟨by rw [promiseRecoveryBallot_keeps saved], fun _ _ hmem => ?_⟩
    obtain ⟨_, _, hevent⟩ := mem_recoveryVotesReleased hmem
    cases hevent
  | recovered certified saved =>
    refine .inl ⟨?_, by simp⟩
    rw [(saveEpochRecord_eq_ok saved).1]
  | installed world mode follows saved =>
    refine .inl ⟨?_, by simp⟩
    rw [(saveEpochRecord_eq_ok saved).1]
  | releasedRecovery stored =>
    refine .inl ⟨?_, fun _ _ => not_mem_nil⟩
    rw [clearRecoveryPromise_keeps]
  | prepared world onCommitted own saved => exact .inr (.prepared world onCommitted saved)
  | releasedMembership stored => exact .inr (.released stored)
  | savedMembership world saved =>
    refine .inl ⟨?_, fun _ _ => not_mem_nil⟩
    rw [(saveMembershipRecord_eq_ok saved).1]
  | committed direct => exact .inl ⟨rfl, fun _ _ => not_mem_nil⟩

/-! ## Events -/

/-- A durable write stands for at most one event. -/
theorem StoreMove.events_length (h : StoreMove C site heard node store events) :
    events.length ≤ 1 := by
  cases h with
  | promised votable own saved =>
    unfold recoveryVotesReleased
    split <;> simp
  | prepared world onCommitted own saved =>
    unfold membershipVotesReleased
    split <;> simp
  | _ => simp

/-- A durable write stands for a vote or for a stored record. -/
theorem StoreMove.mem_events (h : StoreMove C site heard node store events)
    (hmem : event ∈ events) :
    (∃ ballot vote wake, event = .votedRecovery ballot vote wake) ∨
      (∃ record, event = .storedEpoch record) ∨
      ∃ proposal vote, event = .votedMembership proposal vote := by
  cases h with
  | promised votable own saved =>
    obtain ⟨promise, _, hevent⟩ := mem_recoveryVotesReleased hmem
    exact .inl ⟨_, _, _, hevent⟩
  | recovered certified saved => exact .inr (.inl ⟨_, List.mem_singleton.mp hmem⟩)
  | installed world mode follows saved => exact .inr (.inl ⟨_, List.mem_singleton.mp hmem⟩)
  | prepared world onCommitted own saved =>
    obtain ⟨promise, _, hevent⟩ := mem_membershipVotesReleased hmem
    exact .inr (.inr ⟨_, _, hevent⟩)
  | quiet same => cases hmem
  | releasedRecovery stored => cases hmem
  | releasedMembership stored => cases hmem
  | savedMembership world saved => cases hmem
  | committed direct => cases hmem

/-- Why a move from one node to another records an event. -/
inductive Recorded (C : Crypto) (site : Site) (heard : Heard) (a b : Node) (event : Event) :
    Prop where
  /-- A durable write stands for it. -/
  | stored {store : Store} {events : List Event} (move : StoreMove C site heard a store events)
      (mem : event ∈ events) (same : b.store = store)
  /-- It is recorded by itself. -/
  | logged (move : LogMove C site a event) (same : b = a)
  /-- A lease acknowledgement arrived. -/
  | confirmed {other : PeerId} {generation : AuthorityGeneration}
      (told : heard = some (other,
        .response (.leaseAccepted generation.epoch generation.fencingToken)))
      (same : event = .confirmedLease other generation)

/-- A move appends at most one event to the log, stamped with the node before the move. -/
theorem PeerMove.log_append {a b : Peer} (h : PeerMove C site heard a b) :
    ∃ new : List Stamp, b.log = a.log ++ new ∧ new.length ≤ 1 ∧ ∀ stamp ∈ new,
      stamp.node = a.node ∧ stamp.time = site.now ∧
        Recorded C site heard a.node b.node stamp.event := by
  cases h with
  | stored move =>
    refine ⟨_, rfl, ?_, fun stamp hstamp => ?_⟩
    · rw [List.length_map]
      exact move.events_length
    · obtain ⟨event, hevent, rfl⟩ := List.mem_map.mp hstamp
      exact ⟨rfl, rfl, .stored move hevent rfl⟩
  | remembered move => exact ⟨[], (List.append_nil _).symm, Nat.zero_le _, by simp⟩
  | logged move =>
    refine ⟨_, rfl, Nat.le_refl _, fun stamp hstamp => ?_⟩
    rw [mem_singleton] at hstamp
    subst hstamp
    exact ⟨rfl, rfl, .logged move rfl⟩
  | confirmed told =>
    refine ⟨_, rfl, Nat.le_refl _, fun stamp hstamp => ?_⟩
    rw [mem_singleton] at hstamp
    subst hstamp
    exact ⟨rfl, rfl, .confirmed told rfl⟩
  | bookkept => exact ⟨[], (List.append_nil _).symm, Nat.zero_le _, by simp⟩

/-- A recorded epoch record is the accepted one afterwards. -/
theorem Recorded.storedEpoch {before after : Node} {record : EpochRecordV1}
    (h : Recorded C site heard before after (.storedEpoch record)) :
    EpochMove C site heard before after.store record := by
  cases h with
  | stored move mem same =>
    rcases move.epoch_cases with ⟨_, hnone⟩ | ⟨found, hevents, installed⟩
    · exact absurd mem (hnone record)
    · rw [hevents, mem_singleton, Event.storedEpoch.injEq] at mem
      subst mem same
      exact installed
  | logged move same => cases move
  | confirmed told same => cases same

/-- An acknowledged lease is recorded at a node that accepted its authority. -/
theorem Recorded.acceptedLease {authority : PeerId}
    (h : Recorded C site heard a b (.acceptedLease generation authority)) :
    LogMove C site a (.acceptedLease generation authority) ∧ b = a := by
  cases h with
  | stored move mem same =>
    rcases move.mem_events mem with ⟨_, _, _, hother⟩ | ⟨_, hother⟩ | ⟨_, _, hother⟩ <;> cases hother
  | logged move same => exact ⟨move, same⟩
  | confirmed told same => cases same

/-- A refreshed permit is recorded at the node of the authority. -/
theorem Recorded.refreshedPermit (h : Recorded C site heard a b (.refreshedPermit generation)) :
    LogMove C site a (.refreshedPermit generation) := by
  cases h with
  | stored move mem same =>
    rcases move.mem_events mem with ⟨_, _, _, hother⟩ | ⟨_, hother⟩ | ⟨_, _, hother⟩ <;> cases hother
  | logged move same => exact move
  | confirmed told same => cases same

/-- An acknowledgement is recorded when it is told. -/
theorem Recorded.confirmedLease {other : PeerId}
    (h : Recorded C site heard a b (.confirmedLease other generation)) :
    heard = some (other, .response (.leaseAccepted generation.epoch generation.fencingToken)) := by
  cases h with
  | stored move mem same =>
    rcases move.mem_events mem with ⟨_, _, _, hother⟩ | ⟨_, hother⟩ | ⟨_, _, hother⟩ <;> cases hother
  | logged move same => cases move
  | confirmed told same =>
    cases same
    exact told

end SwarmCraft
