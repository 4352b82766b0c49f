import SwarmCraft.System.Genesis

/-!
# Membership agreement

A peer votes for at most one successor of each membership record. Its prepared proposal
is the lock: it is never replaced, and it is given up only after the proposed record was
committed. Two certificates that extend one record share an old voter, so they commit
one record.
-/

namespace SwarmCraft

open Checked Transition Quorum
open Founding (first second third)

variable {C : Crypto} {F : Fleet C} {s t : System}
variable {world : WorldId} {store store' : Store} {previous : MembershipRecordV1} {log : List Stamp}
  {node : Node} {events : List Event}
variable {proposed record : MembershipRecordV1} {proposal : MembershipProposalV1}
  {vote : MembershipVoteV1} {stamp : Stamp}

/-! ## Voting on records -/

variable (C) in
/-- The two records of a proposal that a store is locked to. -/
def preparedValue (world : WorldId) (store : Store) :
    Option (MembershipRecordV1 × MembershipRecordV1) :=
  ((optional (loadMembershipPromise C world store)).filter fun promise =>
    promise.proposal.validateShape C).map fun promise =>
      (promise.proposal.previous, promise.proposal.proposed)

/-- A vote for a successor of a record was released. -/
def MembershipVotedFor (log : List Stamp) (previous proposed : MembershipRecordV1) : Prop :=
  ∃ stamp ∈ log, ∃ proposal vote, stamp.event = .votedMembership proposal vote ∧
    proposal.previous = previous ∧ proposal.proposed = proposed

/-- The committed record is past another one. -/
def MembershipPast (world : WorldId) (store : Store) (previous : MembershipRecordV1) : Prop :=
  ∃ record, loadMembershipRecord world store = .ok record ∧ previous.sequence < record.sequence

variable (C) in
/-- The membership votes of a peer as locked voting. -/
def Peer.membershipBallots (world : WorldId) (peer : Peer) :
    Ballots MembershipRecordV1 MembershipRecordV1 where
  lock := preparedValue C world peer.node.store
  cast := MembershipVotedFor peer.log
  retired := MembershipPast world peer.node.store

/-- The lock depends on the promise only. -/
theorem preparedValue_congr (h : store'.membershipPromise = store.membershipPromise) :
    preparedValue C world store' = preparedValue C world store := by
  simp only [preparedValue, loadMembershipPromise, h]

/-- A store that is locked holds the proposal. -/
theorem preparedValue_eq_some :
    preparedValue C world store = some (previous, proposed) ↔
      ∃ promise, loadMembershipPromise C world store = .ok promise ∧
        promise.proposal.validateShape C = true ∧ promise.proposal.previous = previous ∧
        promise.proposal.proposed = proposed := by
  simp only [preparedValue, Option.map_eq_some_iff, Option.filter_eq_some_iff, optional_eq_some,
    Prod.mk.injEq, and_assoc]

/-- The same committed record is past the same ones. -/
theorem MembershipPast.congr (h : store'.membership = store.membership)
    (hpast : MembershipPast world store previous) : MembershipPast world store' previous := by
  obtain ⟨record, hload, hlt⟩ := hpast
  refine ⟨record, ?_, hlt⟩
  rw [loadMembershipRecord, h]
  exact hload

/-- Saving a record only moves past more records. -/
theorem MembershipPast.save (hworld : record.worldId = world)
    (hsave : saveMembershipRecord C record store = .ok store')
    (hpast : MembershipPast world store previous) : MembershipPast world store' previous := by
  have hloaded := loadMembershipRecord_saved hsave
  rw [hworld] at hloaded
  obtain ⟨existing, hload, hlt⟩ := hpast
  have hfile := (loadMembershipRecord_eq_ok.mp hload).1
  refine ⟨record, hloaded, ?_⟩
  obtain ⟨_, habsent | hsame | ⟨current, hcurrent, hsequence, _⟩, _⟩ :=
    saveMembershipRecord_eq_ok hsave
  · rw [habsent] at hfile
    cases hfile
  · rw [hsame, DurableFile.present.injEq] at hfile
    exact hfile ▸ hlt
  · rw [hcurrent, DurableFile.present.injEq] at hfile
    subst hfile
    omega

/-- A vote of a longer log is an old one or one of the new events. -/
theorem MembershipVotedFor.of_append {time : Nat}
    (h : MembershipVotedFor (log ++ events.map fun event => ⟨⟨node, event⟩, time⟩) previous
      proposed) :
    MembershipVotedFor log previous proposed ∨ ∃ proposal vote,
      Event.votedMembership proposal vote ∈ events ∧ proposal.previous = previous ∧
        proposal.proposed = proposed := by
  obtain ⟨stamp, hstamp, proposal, vote, hevent, hvalue⟩ := h
  rcases List.mem_append.mp hstamp with hold | hnew
  · exact .inl ⟨stamp, hold, proposal, vote, hevent, hvalue⟩
  · obtain ⟨event, hmem, rfl⟩ := List.mem_map.mp hnew
    subst hevent
    exact .inr ⟨proposal, vote, hmem, hvalue⟩

/-! ## One move of a peer -/

variable {site : Site} {heard : Heard} {a b : Peer}

/-- A durable write only moves past more records. -/
theorem StoreMove.membershipPast (h : StoreMove C site heard node store events)
    (hpast : MembershipPast site.world node.store previous) :
    MembershipPast site.world store previous := by
  rcases h.membership_cases with hsame | ⟨record, hworld, hsave⟩
  · exact hpast.congr hsame
  · exact hpast.save hworld hsave

theorem membershipStep_of_kept
    (hlock : preparedValue C world b.node.store = preparedValue C world a.node.store)
    (hpast : ∀ previous, MembershipPast world a.node.store previous →
      MembershipPast world b.node.store previous)
    (hcast : ∀ previous proposed, MembershipVotedFor b.log previous proposed →
      MembershipVotedFor a.log previous proposed ∨
        preparedValue C world b.node.store = some (previous, proposed)) :
    (a.membershipBallots C world).Step (b.membershipBallots C world) where
  retired := hpast
  acquired previous proposed h := .inl (hlock.symm.trans h)
  released previous proposed h hnone := by
    have hheld : preparedValue C world b.node.store = some (previous, proposed) := hlock.trans h
    change preparedValue C world b.node.store = none at hnone
    rw [hheld] at hnone
    cases hnone
  cast := hcast

/-- Preparing a proposal locks a free peer on its committed record, or keeps the lock. -/
theorem membershipStep_prepared {result : MembershipPromiseResult}
    (hworld : proposal.proposed.worldId = site.world)
    (honCommitted : ∀ current, loadMembershipRecord site.world node.store = .ok current →
      current = proposal.previous)
    (hsaved : promiseMembershipProposal C proposal vote node.store = (result, store)) :
    Ballots.Step (Peer.membershipBallots C site.world ⟨node, log⟩)
      (Peer.membershipBallots C site.world ⟨{ node with store := store },
        log ++ (membershipVotesReleased result store).map
          fun event => ⟨⟨node, event⟩, site.now⟩⟩) := by
  have hmembership : store.membership = node.store.membership := by
    rw [promiseMembershipProposal_keeps hsaved]
  have hcast : ∀ previous proposed,
      MembershipVotedFor (log ++ (membershipVotesReleased result store).map
        fun event => ⟨⟨node, event⟩, site.now⟩) previous proposed →
      MembershipVotedFor log previous proposed ∨
        preparedValue C site.world store = some (previous, proposed) := by
    intro previous proposed h
    rcases h.of_append with hold | ⟨released, signed, hmem, rfl, rfl⟩
    · exact .inl hold
    · obtain ⟨rfl, hshape, hload⟩ := releasedMembership_spec hworld hsaved hmem
      exact .inr (preparedValue_eq_some.mpr ⟨_, hload, hshape, rfl, rfl⟩)
  have hresult := promiseMembershipProposal_eq hsaved
  cases result with
  | rejected =>
    exact membershipStep_of_kept (by rw [hresult]) (fun _ h => h.congr hmembership) hcast
  | idempotent =>
    exact membershipStep_of_kept (by rw [hresult.1]) (fun _ h => h.congr hmembership) hcast
  | accepted =>
    obtain ⟨hstore, hshape, hmatches, hfree⟩ := hresult
    have hunlocked : preparedValue C site.world node.store = none := by
      rw [hworld] at hfree
      simp only [preparedValue, optional_eq_none.mpr hfree, Option.filter_none, Option.map_none]
    refine ⟨fun _ h => MembershipPast.congr hmembership h,
      fun previous proposed h => .inr ⟨hunlocked, ?_⟩, fun previous proposed h => ?_, hcast⟩
    · -- The proposal extends the committed record, so that record is not past its own.
      rintro ⟨record, hrecord, hlt⟩
      obtain ⟨promise, hload, _, rfl, _⟩ := preparedValue_eq_some.mp h
      have hfile := (DurableFile.load_eq_ok.mp hload).1
      rw [hstore, DurableFile.present.injEq] at hfile
      rw [honCommitted record hrecord, ← hfile] at hlt
      exact Nat.lt_irrefl _ hlt
    · change preparedValue C site.world node.store = some _ at h
      rw [hunlocked] at h
      cases h

/-- A released proposal is one whose proposed record was committed. -/
theorem membershipStep_released
    (hstored : loadMembershipRecord site.world node.store = .ok record) :
    Ballots.Step (Peer.membershipBallots C site.world ⟨node, log⟩)
      (Peer.membershipBallots C site.world
        ⟨{ node with store :=
            clearMembershipPromiseAfterCommit C site.world (record.recordHash C) node.store },
          log⟩) := by
  rcases @clearMembershipPromise_cases C site.world record node.store with
    hsame | ⟨promise, hpromise, hproposed, hcleared⟩
  · rw [hsame]
    exact membershipStep_of_kept rfl (fun _ h => h) fun _ _ h => .inl h
  · rw [hcleared]
    refine ⟨fun _ h => h, fun previous proposed h => ?_, fun previous proposed h _ => ?_,
      fun _ _ h => .inl h⟩
    · cases h
    · change preparedValue C site.world node.store = some (previous, proposed) at h
      obtain ⟨found, hload, hshape, rfl, _⟩ := preparedValue_eq_some.mp h
      have hfile := (DurableFile.load_eq_ok.mp hload).1
      rw [hpromise, DurableFile.present.injEq] at hfile
      subst hfile
      refine ⟨record, hstored, ?_⟩
      have hnext := MembershipProposalV1.validateShape_sequence hshape
      rw [hproposed] at hnext
      omega

/-- Every durable write keeps to locked voting. -/
theorem StoreMove.membershipStep (h : StoreMove C site heard node store events) (log : List Stamp) :
    Ballots.Step (Peer.membershipBallots C site.world ⟨node, log⟩)
      (Peer.membershipBallots C site.world ⟨{ node with store := store },
        log ++ events.map fun event => ⟨⟨node, event⟩, site.now⟩⟩) := by
  rcases h.membershipPromise_cases with ⟨hsame, hnone⟩ | ⟨world, onCommitted, saved⟩ | stored
  · refine membershipStep_of_kept (preparedValue_congr hsame) (fun _ => h.membershipPast) ?_
    intro previous proposed hvoted
    rcases hvoted.of_append with hold | ⟨proposal, vote, hmem, _⟩
    · exact .inl hold
    · exact absurd hmem (hnone proposal vote)
  · exact membershipStep_prepared world onCommitted saved
  · rw [List.map_nil, List.append_nil]
    exact membershipStep_released stored

/-- An event that is not a membership vote. -/
theorem membershipStep_logged
    (hstore : b.node.store = a.node.store) (hlog : b.log = a.log ++ [stamp])
    (hevent : ∀ proposal vote, stamp.event ≠ .votedMembership proposal vote) :
    (a.membershipBallots C world).Step (b.membershipBallots C world) := by
  refine membershipStep_of_kept (by rw [hstore]) (fun _ h => hstore ▸ h) ?_
  rintro previous proposed ⟨voted, hvoted, proposal, vote, hvote, hvalue⟩
  rw [hlog, List.mem_append, List.mem_singleton] at hvoted
  rcases hvoted with hold | rfl
  · exact .inl ⟨voted, hold, proposal, vote, hvote, hvalue⟩
  · exact absurd hvote (hevent proposal vote)

/-- Every move keeps to locked voting. -/
theorem PeerMove.membershipStep (h : PeerMove C site heard a b) :
    (a.membershipBallots C site.world).Step (b.membershipBallots C site.world) := by
  cases h with
  | stored move => exact move.membershipStep _
  | remembered move => exact membershipStep_of_kept rfl (fun _ h => h) fun _ _ h => .inl h
  | logged move =>
    refine membershipStep_logged rfl rfl fun proposal vote hevent => ?_
    subst hevent
    cases move
  | confirmed told => exact membershipStep_logged rfl rfl fun _ _ hevent => by cases hevent
  | bookkept => exact membershipStep_of_kept rfl (fun _ h => h) fun _ _ h => .inl h

/-! ## Runs -/

/-- Locked voting holds of every peer in every run. -/
theorem membershipBallots_locked (hrun : Run (Step C F) s t) (hs : s.Initial) (peer : PeerId) :
    ((t.peer peer).membershipBallots C F.world).Locked := by
  refine Step.invariant (I := fun _ p => (p.membershipBallots C F.world).Locked) ?_ hrun ?_ peer
  · intro s peer heard a b _ ha hmove
    exact hmove.membershipStep.locked ha
  · intro peer
    have hnone : ∀ previous proposed,
        ¬ ((s.peer peer).membershipBallots C F.world).cast previous proposed := by
      rintro previous proposed ⟨stamp, hstamp, _⟩
      simp only [System.peer, hs.logs, List.not_mem_nil] at hstamp
    exact ⟨fun previous proposed h => absurd h (hnone previous proposed),
      fun previous proposed _ _ h => absurd h (hnone previous proposed),
      fun previous proposed _ h => absurd h (hnone previous proposed)⟩

/-- The event released this membership vote. -/
def Event.releasesMembership (vote : MembershipVoteV1) : Event → Bool
  | .votedMembership _ released => decide (released.unsigned = vote.unsigned)
  | _ => false

variable (C F) in
/-- Membership votes with valid signatures of honest voters were released by them. -/
def System.UnforgedMembership (s : System) (votes : List MembershipVoteV1) : Prop :=
  ∀ vote ∈ votes, F.honest vote.voterPeerId → verifyMembershipVoteSignature C vote = .ok () →
    ∃ stamp ∈ s.logs vote.voterPeerId, stamp.event.releasesMembership vote = true

instance [DecidablePred F.honest] (s : System) (votes : List MembershipVoteV1) :
    Decidable (s.UnforgedMembership C F votes) :=
  inferInstanceAs (Decidable (∀ vote ∈ votes, F.honest vote.voterPeerId →
    verifyMembershipVoteSignature C vote = .ok () →
      ∃ stamp ∈ s.logs vote.voterPeerId, stamp.event.releasesMembership vote = true))

/-- A matching vote that was not forged was cast by its voter. -/
theorem membershipVotedFor_of_vote (hrun : Run (Step C F) s t) (hs : s.Initial)
    (hmatches : vote.matchesProposal C proposal = true)
    (hstamp : stamp ∈ t.logs vote.voterPeerId)
    (hreleases : stamp.event.releasesMembership vote = true) :
    MembershipVotedFor (t.logs vote.voterPeerId) proposal.previous proposal.proposed := by
  cases hevent : stamp.event with
  | votedMembership released signed =>
    rw [hevent, Event.releasesMembership, decide_eq_true_eq] at hreleases
    have hsignedFor := ((Run.justified hrun hs hstamp).votedMembership hevent).2.2
    obtain ⟨_, _, hprevious, hproposed, _⟩ := MembershipVoteV1.matchesProposal_iff.mp hmatches
    obtain ⟨_, _, hprevious', hproposed', _⟩ := MembershipVoteV1.matchesProposal_iff.mp hsignedFor
    have hsamePrevious : signed.previousMembershipHash = vote.previousMembershipHash :=
      congrArg (·.previousMembershipHash) hreleases
    have hsameProposed : signed.proposedMembershipHash = vote.proposedMembershipHash :=
      congrArg (·.proposedMembershipHash) hreleases
    rw [hprevious, hprevious'] at hsamePrevious
    rw [hproposed, hproposed'] at hsameProposed
    exact ⟨stamp, hstamp, released, signed, hevent,
      (MembershipRecordV1.recordHash_inj C).mp hsamePrevious,
      (MembershipRecordV1.recordHash_inj C).mp hsameProposed⟩
  | _ =>
    rw [hevent] at hreleases
    cases hreleases

/-- The old voters behind an unforged certificate. -/
theorem membershipQuorum_of_certificate (hrun : Run (Step C F) s t) (hs : s.Initial)
    {certificate : MembershipCertificateV1}
    (hhonest : ∀ peer ∈ certificate.proposal.previous.activeIds, F.honest peer)
    (hvalid : validateMembershipCertificateSignatures C certificate = .ok ())
    (hunforged : t.UnforgedMembership C F certificate.votes) :
    ∃ A, Majority certificate.proposal.previous.activeIds.toFinset A ∧ ∀ peer ∈ A,
      ((t.peer peer).membershipBallots C F.world).cast certificate.proposal.previous
        certificate.proposal.proposed := by
  simp only [validateMembershipCertificateSignatures, bind_eq_ok, forM_eq_ok, ofCore_eq_ok,
    mapError_eq_ok] at hvalid
  obtain ⟨_, _, _, _, _, hshape, hsigned⟩ := hvalid
  obtain ⟨_, A, _, hmajority, _, hvotes, _⟩ := validateMembershipCertificateShape_majorities hshape
  refine ⟨A, hmajority, fun peer hpeer => ?_⟩
  obtain ⟨vote, hvote, rfl, _, hmatches⟩ := hvotes peer hpeer
  have hmember := List.mem_toFinset.mp (hmajority.subset hpeer)
  obtain ⟨stamp, hstamp, hreleases⟩ :=
    hunforged vote hvote (hhonest _ hmember) (hsigned vote hvote)
  exact membershipVotedFor_of_vote hrun hs hmatches hstamp hreleases

/-- Two certificates that extend one membership record commit one record. -/
theorem membership_successor_unique (hrun : Run (Step C F) s t) (hs : s.Initial)
    {first second : MembershipCertificateV1}
    (hprevious : first.proposal.previous.recordHash C = second.proposal.previous.recordHash C)
    (hhonest : ∀ peer ∈ first.proposal.previous.activeIds, F.honest peer)
    (hfirst : validateMembershipCertificateSignatures C first = .ok ())
    (hsecond : validateMembershipCertificateSignatures C second = .ok ())
    (hunforged : t.UnforgedMembership C F (first.votes ++ second.votes)) :
    first.proposal.proposed = second.proposal.proposed := by
  have hsame := (MembershipRecordV1.recordHash_inj C).mp hprevious
  obtain ⟨A, hA, hvotesA⟩ := membershipQuorum_of_certificate hrun hs hhonest hfirst
    fun vote hvote => hunforged vote (List.mem_append_left _ hvote)
  rw [hsame] at hhonest hA hvotesA
  obtain ⟨B, hB, hvotesB⟩ := membershipQuorum_of_certificate hrun hs hhonest hsecond
    fun vote hvote => hunforged vote (List.mem_append_right _ hvote)
  exact hA.decided_unique hB (b := fun peer => (t.peer peer).membershipBallots C F.world)
    (fun peer _ => membershipBallots_locked hrun hs peer) hvotesA hvotesB

/-- The third member asks to leave, and all three members vote for the members that stay. -/
def voteOnDeparture : List Cue :=
  [fun _ => .input third (.command (.leave 0))] ++ connect first third ++
    [hand third first 0, hand first third 1] ++ connect first second ++
    [tick first, hand first second 0]

/-- Two certificates with different votes commit the members that stay. -/
theorem membership_successor_unique_departure :
    let f := Founding.numbered 3
    let staying := (f.members .ideal).take 2
    let first := f.membershipCertificate .ideal staying [⟨1⟩, ⟨2⟩]
    let second := f.membershipCertificate .ideal staying [⟨3⟩, ⟨2⟩, ⟨1⟩]
    (f.system .ideal).Plays .ideal f.fleet voteOnDeparture ∧
      first.proposal.proposed = second.proposal.proposed := by
  intro f staying first second
  have hplays : (f.system .ideal).Plays .ideal f.fleet voteOnDeparture := by
    decide +kernel
  refine ⟨hplays, membership_successor_unique hplays.run (Founding.system_initial .ideal f) ?_
    (fun _ _ => trivial) ?_ ?_ ?_⟩ <;> decide +kernel

end SwarmCraft
