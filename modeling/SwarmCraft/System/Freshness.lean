import SwarmCraft.System.Refinement
import SwarmCraft.Consensus.Discovery

/-!
# The discovery service beside the daemons

A member that is asked whether an announced state is current reads six of its files, one after the
other, and signs only if all of them agree with the challenge. The discovery service runs in
another task than the daemon, which makes any of its moves between two reads.
-/

namespace SwarmCraft

section

open Checked

variable (C : Crypto)
variable {identity : PeerIdentity} {challenge : DiscoveryFreshnessChallengeV1}

/-! ## The vote of a member -/

/-- What `local_state_matches_freshness_challenge` reads, in this order. -/
structure FreshnessReads where
  membership : Except StorageError MembershipRecordV1
  recoveryPromise : Except StorageError DurableRecoveryPromiseV1
  epoch : Except StorageError EpochRecordV1
  config : Except StorageError WorldConfigV1
  head : Except StorageError (Option SnapshotManifestV1)
  membershipPromise : Except StorageError DurableMembershipPromiseV1

variable {reads : FreshnessReads}

/-- The canonical head as a challenge names it. -/
def SnapshotManifestV1.discoveryHead (manifest : SnapshotManifestV1) : DiscoveryCanonicalHeadV1 where
  snapshotNumber := manifest.snapshotNumber
  manifestHash := manifest.manifestHash C
  epoch := manifest.epoch
  sequence := manifest.sequence

/-- The generation that a challenge asks about. -/
def DiscoveryFreshnessChallengeV1.generation (challenge : DiscoveryFreshnessChallengeV1) :
    AuthorityGeneration :=
  ⟨challenge.authorityEpoch, challenge.fencingToken⟩

/-- The generation that a ballot elects. -/
def RecoveryBallotV1.target (ballot : RecoveryBallotV1) : AuthorityGeneration :=
  ⟨ballot.targetEpoch, ballot.targetFencingToken⟩

/-- The membership record is the one of the challenge. -/
def membershipMatches (challenge : DiscoveryFreshnessChallengeV1) (record : MembershipRecordV1) :
    Bool :=
  decide (record.sequence = challenge.membershipSequence)
    && decide (record.recordHash C = challenge.membershipHash)

/-- A stored promise elects a later generation than the challenge names. -/
def promiseSupersedes (challenge : DiscoveryFreshnessChallengeV1)
    (promise : Except StorageError DurableRecoveryPromiseV1) : Bool :=
  (optional promise).any fun promise => decide (challenge.generation < promise.ballot.target)

/-- The accepted epoch is the one of the challenge. -/
def epochMatches (challenge : DiscoveryFreshnessChallengeV1) (epoch : EpochRecordV1) : Bool :=
  decide (epoch.authorityPeerId = challenge.authorityPeerId)
    && decide (epoch.epochNumber = challenge.authorityEpoch)
    && decide (epoch.fencingToken = challenge.fencingToken)

/-- The configuration is the one of the challenge. -/
def configMatches (challenge : DiscoveryFreshnessChallengeV1) (config : WorldConfigV1) : Bool :=
  decide (config.authorityPeerId = challenge.authorityPeerId)
    && decide (config.sequence = challenge.configSequence)
    && decide (config.configHash C = challenge.configHash)

/-- The local peer is an active member under its own key. -/
def PeerIdentity.activeIn (identity : PeerIdentity) (members : List WorldMemberV1) : Bool :=
  members.any fun member => decide (member.peerId = identity.peerId C)
    && decide (member.publicKey = identity.publicKey) && !member.banned

/-- `local_state_matches_freshness_challenge`; a failure is one of the whole request. -/
def localStateMatchesFreshnessChallenge (identity : PeerIdentity)
    (challenge : DiscoveryFreshnessChallengeV1) (reads : FreshnessReads) :
    Except DaemonError Bool :=
  match reads.membership with
  | .error _ => pure false
  | .ok membership => do
    ofCore (verifyMembershipSignature C membership)
    if membershipMatches C challenge membership = false then pure false
    else if promiseSupersedes challenge reads.recoveryPromise then pure false
    else match reads.epoch with
      | .error _ => pure false
      | .ok epoch =>
        if epochMatches challenge epoch = false then pure false
        else match reads.config with
          | .error _ => pure false
          | .ok config => do
            ofCore (verifyWorldConfigSignature C config)
            if configMatches C challenge config = false then pure false
            else do
              let head ← ofStorage reads.head
              if head.map (SnapshotManifestV1.discoveryHead C) ≠ challenge.canonicalHead then
                pure false
              else
                let pending := (optional reads.membershipPromise).map fun promise => promise.proposal
                if pending.map (MembershipProposalV1.proposalHash C) ≠
                    challenge.pendingMembershipProposalHash then pure false
                else pure (identity.activeIn C membership.members || pending.any fun proposal =>
                  identity.activeIn C proposal.proposed.members)

/-- `sign_discovery_freshness_vote`. -/
def signDiscoveryFreshnessVote (identity : PeerIdentity)
    (challenge : DiscoveryFreshnessChallengeV1) : DiscoveryFreshnessVoteV1 :=
  let unsigned : DiscoveryFreshnessVoteV1 :=
    ⟨challenge, identity.peerId C, identity.publicKey, .empty⟩
  { unsigned with signature := C.sign identity.publicKey (.discoveryFreshnessVote unsigned) }

/-- The challenges that a service signed lately: who asked, the nonce and the expiry. -/
abbrev SignedChallenges : Type := List ((PeerId × Nat) × Nat)

/-- The first check of a vote request. -/
def freshnessRequestAdmissible (applicationPeer : PeerId)
    (challenge : DiscoveryFreshnessChallengeV1) (now : Nat) : Bool :=
  decide (applicationPeer = challenge.verifierPeerId)
    && decide (challenge.protocolVersion = protocolVersionV1)
    && decide (challenge.issuedUnixMs < challenge.expiresUnixMs)
    && decide (challenge.expiresUnixMs - challenge.issuedUnixMs ≤ discoveryFreshnessMaxLifetimeMs)
    && decide (now ≤ challenge.expiresUnixMs)

/-- `handle_discovery_request`, `DiscoveryFreshnessVote`, from what was read. -/
def handleFreshnessVote (identity : PeerIdentity) (applicationPeer : PeerId)
    (challenge : DiscoveryFreshnessChallengeV1) (reads : FreshnessReads) (now : Nat)
    (signed : SignedChallenges) :
    Except DaemonError (Option DiscoveryFreshnessVoteV1 × SignedChallenges) :=
  if freshnessRequestAdmissible applicationPeer challenge now = false then pure (none, signed)
  else
    let retained := signed.filter fun entry => decide (now ≤ entry.2)
    let key := (challenge.verifierPeerId, challenge.nonce)
    if (retained.lookup key).isSome then pure (none, retained)
    else do
      let current ← localStateMatchesFreshnessChallenge C identity challenge reads
      if current = false then pure (none, retained)
      else pure (some (signDiscoveryFreshnessVote C identity challenge),
        (key, challenge.expiresUnixMs) :: retained)

/-! ## The check of a candidate -/

/-- Why a discovered candidate is refused. -/
inductive DiscoveryCandidateError where
  | record (error : DiscoveryRecordError)
  | membership (error : MembershipConsensusError)
  deriving DecidableEq

/-- `DiscoveryFreshnessReplayGuard::accept`. -/
def acceptFreshness (accepted : List (PeerId × Nat)) (challenge : DiscoveryFreshnessChallengeV1) :
    Except DiscoveryRecordError (List (PeerId × Nat)) := do
  ensure ((challenge.verifierPeerId, challenge.nonce) ∉ accepted)
    .freshnessReplay
  pure ((challenge.verifierPeerId, challenge.nonce) :: accepted)

/-- `validate_fresh_discovery_candidate`; the result is the replay guard. -/
def validateFreshDiscoveryCandidate (announcement : WorldAnnouncementV1)
    (proof : DiscoveryMembershipProofV1) (challenge : DiscoveryFreshnessChallengeV1)
    (votes : List DiscoveryFreshnessVoteV1) (verifier : PeerId) (nonce now : Nat)
    (replay : List (PeerId × Nat)) : Except DiscoveryCandidateError (List (PeerId × Nat)) := do
  (verifyWorldAnnouncement C announcement now).mapError .record
  (verifyDiscoveryMembershipProof C announcement proof).mapError .record
  (validateDiscoveryMembershipProofShape C proof).mapError .membership
  (verifyDiscoveryFreshnessChallenge C announcement proof challenge verifier nonce now).mapError
    .record
  votes.forM fun vote => (verifyDiscoveryFreshnessVote C vote challenge).mapError .record
  (validateDiscoveryFreshnessQuorum C proof votes).mapError .membership
  (acceptFreshness replay challenge).mapError .record

variable {C}

/-- What a signed vote rests on: the challenge passed every check on what was read. -/
theorem handleFreshnessVote_eq_some {applicationPeer : PeerId} {now : Nat}
    {signed signed' : SignedChallenges} {vote : DiscoveryFreshnessVoteV1}
    (h : handleFreshnessVote C identity applicationPeer challenge reads now signed =
      .ok (some vote, signed')) :
    vote = signDiscoveryFreshnessVote C identity challenge ∧
      localStateMatchesFreshnessChallenge C identity challenge reads = .ok true := by
  unfold handleFreshnessVote at h
  split at h
  · cases h
  simp only at h
  split at h
  · cases h
  simp only [bind_eq_ok] at h
  obtain ⟨current, hcurrent, h⟩ := h
  cases current with
  | false => cases h
  | true =>
    obtain ⟨hvote, _⟩ := Prod.mk.inj (pure_eq_ok.mp h)
    exact ⟨(Option.some.inj hvote).symm, hcurrent⟩

/-- A local state that matches has neither a later promise nor another epoch. -/
theorem localStateMatches_eq_true
    (h : localStateMatchesFreshnessChallenge C identity challenge reads = .ok true) :
    promiseSupersedes challenge reads.recoveryPromise = false ∧
      ∃ epoch, reads.epoch = .ok epoch ∧ epochMatches challenge epoch = true := by
  unfold localStateMatchesFreshnessChallenge at h
  split at h
  · cases h
  simp only [bind_eq_ok] at h
  obtain ⟨_, _, h⟩ := h
  split at h
  · cases h
  split at h
  · cases h
  rename_i hpromise
  split at h
  · cases h
  rename_i epoch hepoch
  split at h
  · cases h
  rename_i hmatches
  exact ⟨Bool.eq_false_of_not_eq_true hpromise, epoch, hepoch, Bool.eq_true_of_not_eq_false hmatches⟩

end

/-! ## The service -/

open Checked Transition Function

/-- The files that a request for a freshness vote reads. -/
inductive FreshnessFile where
  | membership
  | recoveryPromise
  | epoch
  | config
  | head
  | membershipPromise
  deriving DecidableEq

/-- A request for a freshness vote that a peer works on. -/
structure Inspection where
  peer : PeerId
  applicationPeer : PeerId
  challenge : DiscoveryFreshnessChallengeV1
  reads : FreshnessReads
  /-- The file that is read next, until all were read. -/
  next : Option FreshnessFile

/-- Nothing was read yet. -/
def FreshnessReads.unread : FreshnessReads where
  membership := .error .notFound
  recoveryPromise := .error .notFound
  epoch := .error .notFound
  config := .error .notFound
  head := .error .notFound
  membershipPromise := .error .notFound

/-- A request arrives. -/
def Inspection.start (peer applicationPeer : PeerId) (challenge : DiscoveryFreshnessChallengeV1) :
    Inspection :=
  ⟨peer, applicationPeer, challenge, .unread, some .membership⟩

variable (C : Crypto) (F : Fleet C)

/-- The next file is read. -/
def Inspection.read (world : WorldId) (store : Store) (config : DurableFile WorldConfigV1)
    (inspection : Inspection) : Inspection :=
  let reads := inspection.reads
  match inspection.next with
  | some .membership => { inspection with
      reads := { reads with membership := loadMembershipRecord world store }
      next := some .recoveryPromise }
  | some .recoveryPromise => { inspection with
      reads := { reads with recoveryPromise := loadRecoveryPromise C world store }
      next := some .epoch }
  | some .epoch => { inspection with
      reads := { reads with epoch := loadEpochRecord world store }
      next := some .config }
  | some .config => { inspection with
      reads := { reads with config := loadConfigFile world config }
      next := some .head }
  | some .head => { inspection with
      reads := { reads with head := latestSnapshot store }
      next := some .membershipPromise }
  | some .membershipPromise => { inspection with
      reads := { reads with membershipPromise := loadMembershipPromise C world store }
      next := none }
  | none => inspection

/-- The recovery promise was read. -/
def Inspection.PromiseRead (inspection : Inspection) : Prop :=
  inspection.next ≠ some .membership ∧ inspection.next ≠ some .recoveryPromise

/-- The accepted epoch was read. -/
def Inspection.EpochRead (inspection : Inspection) : Prop :=
  inspection.PromiseRead ∧ inspection.next ≠ some .epoch

/-- The peers of a world with their discovery services. -/
structure Service where
  peers : PeerId → Peer
  /-- The configuration file of each peer. -/
  configs : PeerId → DurableFile WorldConfigV1
  /-- The time in milliseconds. -/
  clock : Nat
  inspections : List Inspection
  /-- The challenges that each service signed lately. -/
  answered : PeerId → SignedChallenges
  /-- Every freshness vote that was ever signed. -/
  signed : List DiscoveryFreshnessVoteV1

/-- One action of a daemon or of a discovery service. -/
inductive Service.Step (a : Service) : Service → Prop where
  /-- A daemon makes one of its moves. -/
  | moved {peer : PeerId} {heard : Heard} {next : Peer}
      (move : PeerMove C (F.siteAt peer a.clock) heard (a.peers peer) next) :
      Step a { a with peers := update a.peers peer next }
  /-- Time passes. -/
  | elapsed (milliseconds : Nat) : Step a { a with clock := a.clock + milliseconds }
  /-- A configuration is written. -/
  | configured (peer : PeerId) (file : DurableFile WorldConfigV1) :
      Step a { a with configs := update a.configs peer file }
  /-- A request about this world arrives. -/
  | opened {peer applicationPeer : PeerId} {challenge : DiscoveryFreshnessChallengeV1}
      (honest : F.honest peer) (world : challenge.worldId = F.world) :
      Step a { a with
        inspections := .start peer applicationPeer challenge :: a.inspections }
  /-- A service reads the next file. -/
  | read {before after : List Inspection} {inspection : Inspection}
      (listed : a.inspections = before ++ inspection :: after) :
      Step a { a with
        inspections := before ++ inspection.read C F.world (a.peers inspection.peer).node.store
          (a.configs inspection.peer) :: after }
  /-- A request is answered from what was read, with a vote or without one. -/
  | finished {before after : List Inspection} {inspection : Inspection} {now : Nat}
      {vote : Option DiscoveryFreshnessVoteV1} {answered : SignedChallenges}
      (listed : a.inspections = before ++ inspection :: after) (complete : inspection.next = none)
      (handled : handleFreshnessVote C ⟨F.key inspection.peer⟩ inspection.applicationPeer
        inspection.challenge inspection.reads now (a.answered inspection.peer) =
          .ok (vote, answered)) :
      Step a { a with
        inspections := before ++ after
        answered := update a.answered inspection.peer answered
        signed := a.signed ++ vote.toList }
  /-- A service stops, in the middle of a request or after a failure of one. -/
  | stopped (peer : PeerId) :
      Step a { a with
        inspections := a.inspections.filter fun inspection => decide (inspection.peer ≠ peer)
        answered := update a.answered peer [] }

/-- Votes with valid signatures of honest voters were released by them. -/
def Service.Unforged (a : Service) (votes : List RecoveryVoteV1) : Prop :=
  ∀ vote ∈ votes, F.honest vote.voterPeerId → verifyRecoveryVoteSignature C vote = .ok () →
    ∃ stamp ∈ (a.peers vote.voterPeerId).log, stamp.event.releases vote = true

/-- No daemon has voted yet, and no service has a request. -/
structure Service.Initial (a : Service) : Prop where
  logs : ∀ peer, (a.peers peer).log = []
  recoveryPromise : ∀ peer, (a.peers peer).node.store.recoveryPromise = .absent
  inspections : a.inspections = []

/-! ## The daemons of a system -/

/-- The daemons stand where those of a system stand. -/
def Service.with (a : Service) (s : System) : Service :=
  { a with peers := s.peer, clock := s.clock }

variable {C F} {a b : Service} {s t : System}

theorem Service.run_moved {peer : PeerId} {heard : Heard} {next : Peer}
    (h : Run (PeerMove C (F.siteAt peer a.clock) heard) (a.peers peer) next) :
    Run (fun a b => Service.Step C F a b ∧ b.inspections = a.inspections) a
      { a with peers := update a.peers peer next } := by
  induction h with
  | refl =>
    rw [update_eq_self]
  | @tail middle next _ hlast ih =>
    refine ih.tail ⟨?_, rfl⟩
    have hmove : PeerMove C (F.siteAt peer a.clock) heard
        (update a.peers peer middle peer) next := by
      rw [update_self]
      exact hlast
    have hstep := Service.Step.moved (a := { a with peers := update a.peers peer middle })
      hmove
    rw [update_idem] at hstep
    exact hstep

/-- A step of the system is a sequence of moves. -/
theorem Step.serves (h : Step C F s t) (a : Service) :
    Run (fun a b => Service.Step C F a b ∧ b.inspections = a.inspections) (a.with s) (a.with t) := by
  obtain ⟨act, henabled, rfl⟩ := id h
  have hact {actor : PeerId} (hactor : ∀ peer ≠ actor, (s.perform C F act).peer peer = s.peer peer)
      (hclock : (s.perform C F act).clock = s.clock) :
      Run (fun a b => Service.Step C F a b ∧ b.inspections = a.inspections) (a.with s)
        (a.with (s.perform C F act)) := by
    obtain ⟨heard, _, hmoves⟩ := h.moves actor
    have hrun := Service.run_moved (a := a.with s) hmoves
    have hpeers : update s.peer actor ((s.perform C F act).peer actor) =
        (s.perform C F act).peer := by
      funext peer
      by_cases hpeer : peer = actor
      · subst hpeer
        rw [update_self]
      · rw [update_of_ne hpeer, hactor peer hpeer]
    simp only [Service.with, hpeers, hclock] at hrun ⊢
    exact hrun
  have hother {actor : PeerId} (hactors : act.actors = [actor]) (peer : PeerId)
      (hpeer : peer ≠ actor) : (s.perform C F act).peer peer = s.peer peer := by
    apply peer_perform_of_not_mem
    rw [hactors, List.mem_singleton]
    exact hpeer
  cases act with
  | input actor cause => exact hact (hother rfl) rfl
  | cut actor cause point =>
    refine hact (hother rfl) ?_
    simp only [System.perform]
    split <;> rfl
  | restart actor => exact hact (hother rfl) rfl
  | elapse milliseconds =>
    exact .single ⟨Service.Step.elapsed (a := a.with s) milliseconds, rfl⟩
  | surroundings actor host blobs soloPolicy => exact hact (hother rfl) rfl
  | reorder actor recoveryVotes membershipVotes => exact hact (hother rfl) rfl

/-- A run of the system is a run of the daemons beside their services. -/
theorem Run.serves (h : Run (SwarmCraft.Step C F) s t) (a : Service) :
    Run (fun a b => Service.Step C F a b ∧ b.inspections = a.inspections) (a.with s) (a.with t) := by
  induction h with
  | refl => exact .refl
  | tail _ hlast ih => exact ih.trans (Step.serves hlast a)

end SwarmCraft
