import SwarmCraft.System.Genesis

/-!
# Recovery agreement, and where certificates come from

A peer votes for at most one candidate on each base generation. Its promise is the lock:
it is replaced only by a higher round of the same value, and it is given up only after
the accepted epoch has left the base. Two certificates on one base share a voter, so
they name one candidate.

A peer collects recovery votes from its own promise and from messages, and it accepts a
recovery record with the votes of a message or with those it collected. Every vote of an
accepted certificate was therefore released by its voter.

A promise does not keep its peer from accepting a record of another mode: a manual transfer
goes through at a peer that has promised a successor. Among recovery records the fence holds:
once a certificate on a generation exists, every recovery record that replaces the generation
names its candidate.
-/

namespace SwarmCraft

open Checked Transition Quorum
open Founding (first second third numbered gather canvass system_initial inquire)

variable {C : Crypto} {F : Fleet C} {s t : System}
variable {log : List Stamp} {node : Node} {events : List Event} {store : Store}
variable {store' : Store} {record : EpochRecordV1} {vote : RecoveryVoteV1}
  {certificate : RecoveryCertificateV1}

/-! ## Voting on generations -/

/-- The generation a ballot is based on. -/
def RecoveryBallotV1.base (ballot : RecoveryBallotV1) : AuthorityGeneration :=
  ⟨ballot.baseEpoch, ballot.baseFencingToken⟩

/-- What a ballot decides: the candidate, and the membership record it is elected under. -/
def RecoveryBallotV1.value (ballot : RecoveryBallotV1) : PeerId × Hash32 :=
  (ballot.candidatePeerId, ballot.membershipHash)

/-- The base and the value that a stored promise is locked to. -/
def promisedValue :
    DurableFile DurableRecoveryPromiseV1 → Option (AuthorityGeneration × (PeerId × Hash32))
  | .present promise => some (promise.ballot.base, promise.ballot.value)
  | _ => none

/-- A promise file that is locked holds a ballot on that base for that value. -/
theorem promisedValue_eq_some {file : DurableFile DurableRecoveryPromiseV1}
    {base : AuthorityGeneration} {value : PeerId × Hash32}
    (h : promisedValue file = some (base, value)) :
    ∃ promise, file = .present promise ∧ promise.ballot.base = base ∧
      promise.ballot.value = value := by
  cases file with
  | absent => cases h
  | unreadable => cases h
  | present promise =>
    simp only [promisedValue, Option.some.injEq, Prod.mk.injEq] at h
    exact ⟨promise, rfl, h⟩

/-- A vote for a value on a base was released. -/
def VotedFor (log : List Stamp) (base : AuthorityGeneration) (value : PeerId × Hash32) : Prop :=
  ∃ stamp ∈ log, ∃ ballot vote wake, stamp.event = .votedRecovery ballot vote wake ∧
    ballot.base = base ∧ ballot.value = value

/-- The accepted epoch is past a base. -/
def EpochPast (store : Store) (base : AuthorityGeneration) : Prop :=
  ∃ record, store.epoch = .present record ∧ base.epoch < record.epochNumber

/-- The recovery votes of a peer as locked voting. -/
def Peer.recoveryBallots (peer : Peer) : Ballots AuthorityGeneration (PeerId × Hash32) where
  lock := promisedValue peer.node.store.recoveryPromise
  cast := VotedFor peer.log
  retired := EpochPast peer.node.store

/-- A promise that keeps the recovery base keeps the locked value. -/
theorem promisedValue_of_sameRecoveryBase {a b : DurableRecoveryPromiseV1}
    (h : sameRecoveryBase a.ballot b.ballot = true) :
    promisedValue (.present a) = promisedValue (.present b) := by
  simp only [sameRecoveryBase, Bool.and_eq_true, decide_eq_true_eq] at h
  obtain ⟨⟨⟨⟨⟨⟨⟨⟨⟨_, hepoch⟩, htoken⟩, _⟩, _⟩, hcandidate⟩, _⟩, _⟩, _⟩, hmembers⟩ := h
  simp only [promisedValue, RecoveryBallotV1.base, RecoveryBallotV1.value, hepoch, htoken,
    hcandidate, hmembers]

/-- A vote of a longer log is an old one or one of the new events. -/
theorem VotedFor.of_append {time : Nat} {base : AuthorityGeneration} {value : PeerId × Hash32}
    (h : VotedFor (log ++ events.map fun event => ⟨⟨node, event⟩, time⟩) base value) :
    VotedFor log base value ∨ ∃ ballot vote wake,
      Event.votedRecovery ballot vote wake ∈ events ∧ ballot.base = base ∧
        ballot.value = value := by
  obtain ⟨stamp, hstamp, ballot, vote, wake, hevent, hvalue⟩ := h
  rcases List.mem_append.mp hstamp with hold | hnew
  · exact .inl ⟨stamp, hold, ballot, vote, wake, hevent, hvalue⟩
  · obtain ⟨event, hmem, rfl⟩ := List.mem_map.mp hnew
    subst hevent
    exact .inr ⟨ballot, vote, wake, hmem, hvalue⟩

/-- Saving an epoch record only moves past more bases. -/
theorem EpochPast.save
    (hsave : saveEpochRecord record store = .ok store') {base : AuthorityGeneration}
    (h : EpochPast store base) : EpochPast store' base := by
  obtain ⟨existing, hfile, hpast⟩ := h
  obtain ⟨rfl, habsent | hsame | ⟨found, hfound, hlt⟩⟩ := saveEpochRecord_eq_ok hsave
  · rw [habsent] at hfile
    cases hfile
  · rw [hsame, DurableFile.present.injEq] at hfile
    subst hfile
    exact ⟨record, rfl, hpast⟩
  · rw [hfound, DurableFile.present.injEq] at hfile
    subst hfile
    refine ⟨record, rfl, hpast.trans_le ?_⟩
    rcases AuthorityGeneration.lt_iff.mp hlt with hepoch | ⟨hepoch, _⟩
    · exact hepoch.le
    · exact hepoch.le

/-! ## One move of a peer -/

variable {site : Site} {heard : Heard} {a b : Peer}

/-- A move that keeps the locked value. -/
theorem recoveryStep_of_kept (hlock : promisedValue b.node.store.recoveryPromise =
      promisedValue a.node.store.recoveryPromise)
    (hpast : ∀ base, EpochPast a.node.store base → EpochPast b.node.store base)
    (hcast : ∀ base value, VotedFor b.log base value → VotedFor a.log base value ∨
      promisedValue b.node.store.recoveryPromise = some (base, value)) :
    a.recoveryBallots.Step b.recoveryBallots where
  retired := hpast
  acquired base value h := .inl (hlock.symm.trans h)
  released base value h hnone := by
    change promisedValue b.node.store.recoveryPromise = none at hnone
    change promisedValue a.node.store.recoveryPromise = some _ at h
    rw [hlock, h] at hnone
    cases hnone
  cast := hcast

/-- The same accepted record is past the same bases. -/
theorem EpochPast.congr (h : store'.epoch = store.epoch)
    {base : AuthorityGeneration} (hpast : EpochPast store base) : EpochPast store' base := by
  obtain ⟨record, hfile, hlt⟩ := hpast
  exact ⟨record, h.trans hfile, hlt⟩

/-- A durable write only moves past more bases. -/
theorem StoreMove.epochPast
    (h : StoreMove C site heard node store events) {base : AuthorityGeneration}
    (hpast : EpochPast node.store base) : EpochPast store base := by
  rcases h.epoch_cases with ⟨hsame, _⟩ | ⟨record, _, move⟩
  · exact hpast.congr hsame
  · exact hpast.save move.saved

/-- A write that touches neither the promise nor a vote. -/
theorem recoveryStep_quiet (hpromise : store.recoveryPromise = node.store.recoveryPromise)
    (hpast : ∀ base, EpochPast node.store base → EpochPast store base)
    (hevents : ∀ ballot vote wake, Event.votedRecovery ballot vote wake ∉ events) :
    Ballots.Step (Peer.recoveryBallots ⟨node, log⟩) (Peer.recoveryBallots
      ⟨{ node with store := store }, log ++ events.map fun event => ⟨⟨node, event⟩, site.now⟩⟩) := by
  refine recoveryStep_of_kept ?_ hpast fun base value h => ?_
  · simp only [hpromise]
  · rcases h.of_append with hold | ⟨ballot, vote, wake, hmem, _⟩
    · exact .inl hold
    · exact absurd hmem (hevents ballot vote wake)

/-- A promise locks a free peer on its current generation, or keeps the value. -/
theorem recoveryStep_promised {ballot : RecoveryBallotV1} {wake : Bool}
    {result : RecoveryPromiseResult} (hvotable : Votable C site node ballot wake)
    (hsaved : promiseRecoveryBallot C ballot vote node.store = .ok (result, store)) :
    Ballots.Step (Peer.recoveryBallots ⟨node, log⟩) (Peer.recoveryBallots
      ⟨{ node with store := store }, log ++ (recoveryVotesReleased wake result store).map
          fun event => ⟨⟨node, event⟩, site.now⟩⟩) := by
  have hepoch : store.epoch = node.store.epoch := by rw [promiseRecoveryBallot_keeps hsaved]
  have hcast : ∀ base value, VotedFor (log ++ (recoveryVotesReleased wake result store).map
        fun event => ⟨⟨node, event⟩, site.now⟩) base value →
      VotedFor log base value ∨
        promisedValue store.recoveryPromise = some (base, value) := by
    intro base value h
    rcases h.of_append with hold | ⟨released, _, _, hmem, rfl, rfl⟩
    · exact .inl hold
    · obtain ⟨promise, hfile, hevent⟩ := mem_recoveryVotesReleased hmem
      injection hevent with hballot
      subst hballot
      exact .inr (by rw [hfile]; rfl)
  obtain ⟨_, hresult⟩ := promiseRecoveryBallot_eq_ok hsaved
  cases result with
  | rejected round => exact recoveryStep_of_kept (by rw [hresult]) (fun _ h => h.congr hepoch) hcast
  | idempotent =>
    exact recoveryStep_of_kept (by rw [hresult.1]) (fun _ h => h.congr hepoch) hcast
  | accepted =>
    obtain ⟨hstore, _, hfree⟩ := hresult
    rcases hfree with habsent | ⟨existing, hexisting, _, hbase⟩
    · -- A free peer takes the lock on the generation it has accepted.
      refine ⟨fun _ h => EpochPast.congr hepoch h, fun base value h => .inr ⟨?_, ?_⟩,
        fun base value h => ?_, hcast⟩
      · change promisedValue node.store.recoveryPromise = none
        rw [habsent]
        rfl
      · rintro ⟨record, hrecord, hpast⟩
        obtain ⟨current, hcurrent⟩ := hvotable.accepted
        have hsame := (hvotable.base.epoch current hcurrent).1
        have hfile := (loadEpochRecord_eq_ok.mp hcurrent).1
        rw [hfile, DurableFile.present.injEq] at hrecord
        subst hrecord
        change promisedValue store.recoveryPromise = some (base, value) at h
        rw [hstore] at h
        injection h with h
        injection h with hbase
        subst hbase
        exact absurd hpast (by simp only [RecoveryBallotV1.base, hsame]; omega)
      · change promisedValue node.store.recoveryPromise = some _ at h
        rw [habsent] at h
        cases h
    · refine recoveryStep_of_kept ?_ (fun _ h => h.congr hepoch) hcast
      have hvalue := promisedValue_of_sameRecoveryBase (a := existing) (b := ⟨ballot, vote⟩) hbase
      rw [hstore, hexisting, hvalue]

/-- A released promise is one whose base the accepted record has left. -/
theorem recoveryStep_released (hstored : node.store.epoch = .present record) :
    Ballots.Step (Peer.recoveryBallots ⟨node, log⟩) (Peer.recoveryBallots
        ⟨{ node with store :=
          clearRecoveryPromiseAfterEpochAdvance C site.world record.epochNumber node.store },
        log⟩) := by
  rcases @clearRecoveryPromise_cases C site.world record.epochNumber node.store with
    hsame | ⟨promise, hpromise, hpast, hcleared⟩
  · rw [hsame]
    exact recoveryStep_of_kept rfl (fun _ h => h) fun _ _ h => .inl h
  · rw [hcleared]
    refine ⟨fun _ h => h, fun base value h => ?_, fun base value h _ => ?_, fun _ _ h => .inl h⟩
    · cases h
    · change promisedValue node.store.recoveryPromise = some _ at h
      rw [hpromise] at h
      injection h with h
      injection h with hbase
      subst hbase
      exact ⟨record, hstored, hpast⟩

/-- Every durable write keeps to locked voting. -/
theorem StoreMove.recoveryStep (h : StoreMove C site heard node store events) (log : List Stamp) :
    Ballots.Step (Peer.recoveryBallots ⟨node, log⟩) (Peer.recoveryBallots
      ⟨{ node with store := store }, log ++ events.map fun event => ⟨⟨node, event⟩, site.now⟩⟩) := by
  rcases h.recoveryPromise_cases with ⟨hsame, hnone⟩ | ⟨votable, own, saved⟩ | stored
  · exact recoveryStep_quiet hsame (fun _ => h.epochPast) hnone
  · exact recoveryStep_promised votable saved
  · rw [List.map_nil, List.append_nil]
    exact recoveryStep_released stored

/-- Every move keeps to locked voting. -/
theorem PeerMove.recoveryStep (h : PeerMove C site heard a b) :
    a.recoveryBallots.Step b.recoveryBallots := by
  cases h with
  | stored move => exact move.recoveryStep _
  | remembered move => exact recoveryStep_of_kept rfl (fun _ h => h) fun _ _ h => .inl h
  | @logged event move =>
    have hnone : ∀ ballot vote wake, Event.votedRecovery ballot vote wake ∉ [event] := by
      intro ballot vote wake hmem
      rw [List.mem_singleton] at hmem
      subst hmem
      cases move
    exact recoveryStep_quiet rfl (fun _ h => h) hnone
  | @confirmed other generation told =>
    have hnone : ∀ ballot vote wake,
        Event.votedRecovery ballot vote wake ∉ [Event.confirmedLease other generation] := by simp
    exact recoveryStep_quiet rfl (fun _ h => h) hnone
  | bookkept => exact recoveryStep_of_kept rfl (fun _ h => h) fun _ _ h => .inl h

/-! ## Runs -/

/-- Locked voting holds of every peer in every run. -/
theorem recoveryBallots_locked (hrun : Run (Step C F) s t) (hs : s.Initial) (peer : PeerId) :
    (t.peer peer).recoveryBallots.Locked := by
  refine Step.invariant (I := fun _ p => p.recoveryBallots.Locked) ?_ hrun ?_ peer
  · intro s peer heard a b _ ha hmove
    exact hmove.recoveryStep.locked ha
  · intro peer
    have hnone : ∀ base value, ¬ (s.peer peer).recoveryBallots.cast base value := by
      rintro base value ⟨stamp, hstamp, _⟩
      simp only [System.peer, hs.logs, List.not_mem_nil] at hstamp
    exact ⟨fun base value h => absurd h (hnone base value),
      fun base value _ _ h => absurd h (hnone base value),
      fun base value _ h => absurd h (hnone base value)⟩

/-- Who released a vote of a certificate voted for its value on its base. -/
theorem votedFor_of_released (hmatches : vote.matchesBallot C certificate.ballot = true)
    (hreleased : ∃ stamp ∈ log, stamp.event.releases vote = true)
    (hlog : ∀ stamp ∈ log, ∀ ballot signed wake, stamp.event = .votedRecovery ballot signed wake →
      signed.matchesBallot C ballot = true) :
    VotedFor log certificate.ballot.base certificate.ballot.value := by
  obtain ⟨stamp, hstamp, hreleases⟩ := hreleased
  cases hevent : stamp.event with
  | votedRecovery ballot signed wake =>
    rw [hevent, Event.releases, decide_eq_true_eq] at hreleases
    have hsignedFor := hlog stamp hstamp ballot signed wake hevent
    -- The certificate's vote and the released one carry one ballot hash.
    have hhash : certificate.ballot.ballotHash C = ballot.ballotHash C := by
      rw [← (RecoveryVoteV1.matchesBallot_iff.mp hmatches).2.2.1,
        ← (RecoveryVoteV1.matchesBallot_iff.mp hsignedFor).2.2.1]
      exact congrArg (·.ballotHash) hreleases.symm
    have hsame := (RecoveryBallotV1.ballotHash_inj C).mp hhash.symm
    have hbase := congrArg RecoveryBallotV1.base hsame
    have hvalue := congrArg RecoveryBallotV1.value hsame
    exact ⟨stamp, hstamp, ballot, signed, wake, hevent, hbase, hvalue⟩
  | _ =>
    rw [hevent] at hreleases
    cases hreleases

/-- Each voter of an unforged certificate voted for its value on its base. -/
theorem votedFor_of_certificate (hrun : Run (Step C F) s t) (hs : s.Initial) {members : List PeerId}
    (hhonest : ∀ peer ∈ members, F.honest peer)
    (hshape : validateRecoveryCertificateShape C certificate members = .ok ())
    (hsigned : ∀ vote ∈ certificate.votes, verifyRecoveryVoteSignature C vote = .ok ())
    (hunforged : t.Unforged C F certificate.votes) {peer : PeerId}
    (hpeer : peer ∈ certificate.voters) :
    (t.peer peer).recoveryBallots.cast certificate.ballot.base certificate.ballot.value := by
  obtain ⟨_, hvotes, _⟩ := validateRecoveryCertificateShape_eq_ok.mp hshape
  simp only [RecoveryCertificateV1.voters, List.mem_toFinset, List.mem_map] at hpeer
  obtain ⟨vote, hvote, rfl⟩ := hpeer
  obtain ⟨hmatches, hmember⟩ := hvotes vote hvote
  apply votedFor_of_released hmatches (hunforged vote hvote (hhonest _ hmember) (hsigned vote hvote))
  intro stamp hstamp ballot signed wake hevent
  exact ((Run.justified hrun hs hstamp).votedRecovery hevent).2

/-- Two certificates that one fixed member list checked, on one base, name one candidate. -/
theorem value_eq_of_certificates (hrun : Run (Step C F) s t) (hs : s.Initial) {V : List PeerId}
    (hmembers : V ≠ []) (hhonest : ∀ peer ∈ V, F.honest peer) {first second : RecoveryCertificateV1}
    (hfirst : validateRecoveryCertificateShape C first V = .ok ())
    (hsecond : validateRecoveryCertificateShape C second V = .ok ())
    (hfirstSigned : ∀ vote ∈ first.votes, verifyRecoveryVoteSignature C vote = .ok ())
    (hsecondSigned : ∀ vote ∈ second.votes, verifyRecoveryVoteSignature C vote = .ok ())
    (hfirstUnforged : t.Unforged C F first.votes) (hsecondUnforged : t.Unforged C F second.votes)
    (hbase : first.ballot.base = second.ballot.base) :
    first.ballot.value = second.ballot.value := by
  refine (RecoveryCertificateV1.voters_majority hmembers hfirst).decided_unique
    (RecoveryCertificateV1.voters_majority hmembers hsecond)
    (b := fun peer => (t.peer peer).recoveryBallots) (k := second.ballot.base)
    (fun peer _ => recoveryBallots_locked hrun hs peer) ?_ ?_
  · intro peer hpeer
    rw [← hbase]
    exact votedFor_of_certificate hrun hs hhonest hfirst hfirstSigned hfirstUnforged hpeer
  · intro peer hpeer
    exact votedFor_of_certificate hrun hs hhonest hsecond hsecondSigned hsecondUnforged hpeer

/-- Two certificates on one base generation name one candidate. -/
theorem recovery_candidate_unique (hrun : Run (Step C F) s t) (hs : s.Initial)
    {record : MembershipRecordV1} (hmembers : record.activeIds ≠ [])
    (hhonest : ∀ peer ∈ record.activeIds, F.honest peer)
    {first second : RecoveryCertificateV1}
    (hfirst : validateRecoveryCertificateShape C first record.activeIds = .ok ())
    (hsecond : validateRecoveryCertificateShape C second record.activeIds = .ok ())
    (hsigned : ∀ vote ∈ first.votes ++ second.votes, verifyRecoveryVoteSignature C vote = .ok ())
    (hunforged : t.Unforged C F (first.votes ++ second.votes))
    (hbase : (first.ballot.worldId, first.ballot.baseEpoch, first.ballot.baseFencingToken) =
      (second.ballot.worldId, second.ballot.baseEpoch, second.ballot.baseFencingToken)) :
    first.ballot.candidatePeerId = second.ballot.candidatePeerId := by
  have hkey : first.ballot.base = second.ballot.base := by
    simp only [Prod.mk.injEq] at hbase
    rw [RecoveryBallotV1.base, RecoveryBallotV1.base, hbase.2.1, hbase.2.2]
  exact congrArg Prod.fst (value_eq_of_certificates hrun hs hmembers hhonest hfirst hsecond
    (fun vote hvote => hsigned vote (List.mem_append_left _ hvote))
    (fun vote hvote => hsigned vote (List.mem_append_right _ hvote))
    (fun vote hvote => hunforged vote (List.mem_append_left _ hvote))
    (fun vote hvote => hunforged vote (List.mem_append_right _ hvote)) hkey)

/-- The second member of a world wins the vote of the third, restarts before it used the votes and
wins it again in the next round. -/
def canvassTwice : List Cue :=
  gather second third ++ canvass second third ++ [fun _ => .restart second, tick second] ++
    connect second third ++ [wait 8000] ++ inquire second third ++ inquire third second ++
    canvass second third

/-- The certificates of both rounds name the second member. -/
theorem recovery_candidate_unique_rounds :
    let f := numbered 3
    let first := f.certificate .ideal ⟨2⟩ 1 [⟨2⟩, ⟨3⟩]
    let second := f.certificate .ideal ⟨2⟩ 2 [⟨3⟩, ⟨2⟩]
    (f.system .ideal).Plays .ideal f.fleet canvassTwice ∧
      first.ballot.candidatePeerId = second.ballot.candidatePeerId :=
  have hplays : ((numbered 3).system .ideal).Plays .ideal (numbered 3).fleet
      canvassTwice := by decide +kernel
  have hmembers : ((numbered 3).membership .ideal).activeIds ≠ [] := by decide +kernel
  ⟨hplays, recovery_candidate_unique hplays.run (system_initial .ideal _) hmembers
    (fun _ _ => trivial) (by decide +kernel) (by decide +kernel) (by decide +kernel)
    (by decide +kernel) (by decide +kernel)⟩

variable {log : List Stamp} {node : Node} {stamp : Stamp} {record : EpochRecordV1}

/-! ## Collected votes -/

/-- A peer released a vote of its own. -/
def OwnVote (peer : PeerId) (log : List Stamp) (vote : RecoveryVoteV1) : Prop :=
  vote.voterPeerId = peer ∧ ∃ stamp ∈ log, stamp.event.releases vote = true

theorem OwnVote.mono {peer : PeerId} {log' : List Stamp} {vote : RecoveryVoteV1}
    (h : OwnVote peer log vote) (hlog : log <+: log') : OwnVote peer log' vote := by
  obtain ⟨hvoter, stamp, hstamp, hreleases⟩ := h
  exact ⟨hvoter, stamp, hlog.subset hstamp, hreleases⟩

variable (F) in
/-- Every vote a peer promised or collected, now or at an event, was released by its voter. -/
structure Peer.Collects (s : System) (peer : PeerId) (p : Peer) : Prop where
  promise : ∀ promise, p.node.store.recoveryPromise = .present promise →
    OwnVote peer p.log promise.vote
  current : ∀ entry ∈ p.node.runtime.recoveryVotes,
    OwnVote peer p.log entry.2 ∨ s.Unforged C F [entry.2]
  past : ∀ stamp ∈ p.log, ∀ entry ∈ stamp.node.runtime.recoveryVotes,
    OwnVote peer p.log entry.2 ∨ s.Unforged C F [entry.2]

variable {site : Site} {heard : Heard} {a b : Peer} {peer : PeerId}

/-- A durable write stores no promise whose vote it does not release. -/
theorem StoreMove.ownVote {store : Store} {events : List Event}
    (h : StoreMove C site heard node store events) (hpeer : site.peer C = peer)
    (hbefore : ∀ promise, node.store.recoveryPromise = .present promise →
      OwnVote peer log promise.vote)
    {promise : DurableRecoveryPromiseV1} (hpromise : store.recoveryPromise = .present promise) :
    OwnVote peer (log ++ events.map fun event => ⟨⟨node, event⟩, site.now⟩) promise.vote := by
  rcases h.promise_origin hpromise with hold | ⟨wake, _, own, rfl⟩
  · exact (hbefore promise hold).mono (List.prefix_append _ _)
  · -- The vote is the peer's own, and it is released with the promise.
    refine ⟨own.trans hpeer, ⟨⟨node, .votedRecovery promise.ballot promise.vote wake⟩, site.now⟩,
      by simp, ?_⟩
    simp only [Event.releases, decide_true]

/-- A change of memory only collects votes that were released. -/
theorem RuntimeMove.collects {runtime : LeaseRuntime}
    (h : RuntimeMove site heard node runtime) (hheeds : s.Heeds C F peer heard)
    (hpromise : ∀ promise, node.store.recoveryPromise = .present promise →
      OwnVote peer log promise.vote) (hcurrent : ∀ entry ∈ node.runtime.recoveryVotes,
      OwnVote peer log entry.2 ∨ s.Unforged C F [entry.2]) :
    ∀ entry ∈ runtime.recoveryVotes, OwnVote peer log entry.2 ∨ s.Unforged C F [entry.2] := by
  intro entry hentry
  cases h with
  | quiet quieter =>
    rcases quieter.recoveryVotes entry hentry with hold | ⟨promise, hfile, hvote⟩
    · exact hcurrent entry hold
    · rw [hvote]
      exact .inl (hpromise promise hfile)
  | granted generation => exact hcurrent entry hentry
  | epochAcked told => exact hcurrent entry hentry
  | voteCollected told =>
    rcases List.mem_cons.mp hentry with rfl | hold
    · obtain ⟨number, _, hunforged⟩ := hheeds _ _ told
      exact .inr hunforged
    · exact hcurrent entry (List.mem_of_mem_filter hold)

/-- A move collects only votes that were released. -/
theorem PeerMove.collects (h : PeerMove C site heard a b) (hpeer : site.peer C = peer)
    (hheeds : s.Heeds C F peer heard) (ha : a.Collects F s peer) : b.Collects F s peer := by
  have hmono : ∀ vote, OwnVote peer a.log vote ∨ s.Unforged C F [vote] →
      OwnVote peer b.log vote ∨ s.Unforged C F [vote] :=
    fun vote hvote => hvote.imp_left fun hown => hown.mono h.log_prefix
  have hpast : ∀ stamp ∈ b.log, ∀ entry ∈ stamp.node.runtime.recoveryVotes,
      OwnVote peer b.log entry.2 ∨ s.Unforged C F [entry.2] := by
    obtain ⟨new, hlog, _, hnew⟩ := h.log_append
    intro stamp hstamp entry hentry
    rw [hlog] at hstamp
    rcases List.mem_append.mp hstamp with hold | hmem
    · exact hmono _ (ha.past stamp hold entry hentry)
    · rw [(hnew stamp hmem).1] at hentry
      exact hmono _ (ha.current entry hentry)
  cases h with
  | stored move =>
    exact ⟨fun _ => move.ownVote hpeer ha.promise,
      fun entry hentry => hmono _ (ha.current entry hentry), hpast⟩
  | remembered move => exact ⟨ha.promise, move.collects hheeds ha.promise ha.current, hpast⟩
  | logged move =>
    exact ⟨fun promise hfile => (ha.promise promise hfile).mono (List.prefix_append _ _),
      fun entry hentry => hmono _ (ha.current entry hentry), hpast⟩
  | confirmed told =>
    exact ⟨fun promise hfile => (ha.promise promise hfile).mono (List.prefix_append _ _),
      fun entry hentry => hmono _ (ha.current entry hentry), hpast⟩
  | bookkept => exact ⟨ha.promise, ha.current, hpast⟩

/-- Every vote an honest peer collects in a run was released by its voter. -/
theorem Run.collects (hrun : Run (Step C F) s t) (hs : s.Initial) (hpeer : F.honest peer) :
    (t.peer peer).Collects F t peer := by
  refine Run.peerInvariant (I := fun r peer p => F.honest peer → p.Collects F r peer)
    ?_ ?_ hrun ?_ peer hpeer
  · intro r _ peer heard a b hheeds ha hmove hpeer
    exact hmove.collects (Fleet.site_peer hpeer) hheeds (ha hpeer)
  · intro r r' hstep peer hr hpeer
    have hlater : ∀ log vote, OwnVote peer log vote ∨ r.Unforged C F [vote] →
        OwnVote peer log vote ∨ r'.Unforged C F [vote] :=
      fun log vote hvote => hvote.imp_right hstep.unforged
    exact ⟨(hr hpeer).promise, fun entry hentry => hlater _ _ ((hr hpeer).current entry hentry),
      fun stamp hstamp entry hentry => hlater _ _ ((hr hpeer).past stamp hstamp entry hentry)⟩
  · intro peer _
    refine ⟨fun promise hfile => ?_, fun entry hentry => ?_, fun stamp hstamp => ?_⟩
    · simp only [System.peer, hs.recoveryPromise, reduceCtorEq] at hfile
    · simp only [System.peer, hs.runtime, LeaseRuntime.default, List.not_mem_nil] at hentry
    · simp only [System.peer, hs.logs, List.not_mem_nil] at hstamp

/-! ## Accepted certificates -/

/-- A recovery record is accepted with the stored certificate, whose votes were released. -/
theorem Run.recovered (hrun : Run (Step C F) s t) (hs : s.Initial) (hstamp : stamp ∈ t.logs peer)
    (hevent : stamp.event = .storedEpoch record) (hmode : record.mode = .recovery) :
    ∃ heard certificate,
      Recovered C (F.siteAt peer stamp.time) heard stamp.node record certificate ∧
        stamp.node.store.recoveryCertificate = .present certificate ∧
        t.Unforged C F certificate.votes := by
  obtain ⟨heard, after, hheeds, hrecorded⟩ := Run.justified hrun hs hstamp
  rw [hevent] at hrecorded
  rcases hrecorded.storedEpoch.origin with hother | ⟨certificate, hrecovered, hstored⟩
  · exact absurd hmode hother
  refine ⟨heard, certificate, hrecovered, hstored, ?_⟩
  rcases hrecovered.collected with ⟨sender, hheard⟩ | hcollected
  · obtain ⟨number, _, hunforged⟩ := hheeds sender _ hheard
    exact hunforged
  · intro vote hvote hvoter hsigned
    obtain ⟨from_, hentry⟩ := hcollected vote hvote
    have hcollects := Run.collects hrun hs (Run.honest_of_log hrun hs hstamp)
    rcases hcollects.past stamp hstamp _ hentry with ⟨rfl, hreleased⟩ | hunforged
    · exact hreleased
    · exact hunforged vote List.mem_cons_self hvoter hsigned

/-! ## Fixed members -/

variable (F) in
/-- Both copies of the member list that a node holds have the same active members. -/
structure Node.Roster (V : List PeerId) (node : Node) : Prop where
  descriptor : ∀ descriptor, loadWorldDescriptor F.world node.store = .ok descriptor →
    descriptor.active.map WorldMemberV1.peerId = V
  membership : ∀ record, loadMembershipRecord F.world node.store = .ok record →
    record.activeIds = V

variable (F) in
/-- The members have, and had at every event, the same active members. -/
structure System.FixedRoster (s : System) (V : List PeerId) : Prop where
  current : ∀ peer ∈ V, (s.nodes peer).Roster F V
  past : ∀ peer ∈ V, ∀ stamp ∈ s.logs peer, stamp.node.Roster F V

instance (V : List PeerId) (node : Node) : Decidable (node.Roster F V) :=
  decidable_of_iff (_ ∧ _) ⟨fun h => ⟨h.1, h.2⟩, fun h => ⟨h.descriptor, h.membership⟩⟩

instance (V : List PeerId) : Decidable (s.FixedRoster F V) :=
  decidable_of_iff (_ ∧ _) ⟨fun h => ⟨h.1, h.2⟩, fun h => ⟨h.current, h.past⟩⟩

/-- With a fixed member list, that list checked the certificate of every accepted recovery
record. -/
theorem Run.recovered_fixed (hrun : Run (Step C F) s t) (hs : s.Initial) {V : List PeerId}
    (hroster : stamp.node.Roster F V) (hstamp : stamp ∈ t.logs peer)
    (hevent : stamp.event = .storedEpoch record) (hmode : record.mode = .recovery) :
    ∃ heard certificate,
      Recovered C (F.siteAt peer stamp.time) heard stamp.node record certificate ∧
        stamp.node.store.recoveryCertificate = .present certificate ∧
        validateRecoveryCertificateShape C certificate V = .ok () ∧
        t.Unforged C F certificate.votes := by
  obtain ⟨heard, certificate, hrecovered, hstored, hunforged⟩ :=
    Run.recovered hrun hs hstamp hevent hmode
  obtain ⟨members, hmembers, hshape⟩ := hrecovered.members
  have hall : members = V := by
    rcases hmembers with ⟨membership, hload, rfl⟩ | ⟨descriptor, hload, rfl⟩
    · exact hroster.membership membership hload
    · exact hroster.descriptor descriptor hload
  rw [hall] at hshape
  exact ⟨heard, certificate, hrecovered, hstored, hshape, hunforged⟩

/-- The certificate of an accepted recovery record is on the generation it replaces. -/
theorem Recovered.base_eq {current : EpochRecordV1}
    {certificate : RecoveryCertificateV1} (h : Recovered C site heard node record certificate)
    (hload : loadEpochRecord site.world node.store = .ok current) :
    certificate.ballot.base = current.generation := by
  obtain ⟨hepoch, htoken⟩ := h.base.epoch current hload
  rw [EpochRecordV1.generation, RecoveryBallotV1.base, hepoch, htoken]

/-! ## What a recovery promise fences -/

/-- Once a certificate on a generation exists, every recovery record that a member accepts over
that generation is its direct successor and names the same candidate. The certificate that the
member has stored when it accepts the record is for the record's authority, number and token on
that generation, valid for the members, with votes that were released. -/
theorem recovery_successor_certified (hrun : Run (Step C F) s t) (hs : s.Initial)
    {V : List PeerId} (hhonest : ∀ peer ∈ V, F.honest peer) (hroster : t.FixedRoster F V)
    {certificate : RecoveryCertificateV1}
    (hshape : validateRecoveryCertificateShape C certificate V = .ok ())
    (hsigned : ∀ vote ∈ certificate.votes, verifyRecoveryVoteSignature C vote = .ok ())
    (hunforged : t.Unforged C F certificate.votes) {peer : PeerId} (hpeer : peer ∈ V)
    {stamp : Stamp} (hstamp : stamp ∈ t.logs peer) {current record : EpochRecordV1}
    (hcurrent : loadEpochRecord F.world stamp.node.store = .ok current)
    (hbase : certificate.ballot.base = current.generation)
    (hevent : stamp.event = .storedEpoch record) (hmode : record.mode = .recovery) :
    record.epochNumber = current.epochNumber + 1 ∧
      record.fencingToken = current.fencingToken + 1 ∧
      record.previousEpochHash = some (epochRecordHash C current) ∧
      record.authorityPeerId = certificate.ballot.candidatePeerId ∧
      ∃ own, stamp.node.store.recoveryCertificate = .present own ∧
        own.ballot.base = current.generation ∧
        own.ballot.targetEpoch = record.epochNumber ∧
        own.ballot.targetFencingToken = record.fencingToken ∧
        own.ballot.candidatePeerId = record.authorityPeerId ∧
        validateRecoveryCertificateShape C own V = .ok () ∧
        (∀ vote ∈ own.votes, verifyRecoveryVoteSignature C vote = .ok ()) ∧
        t.Unforged C F own.votes := by
  obtain ⟨heard, own, hrecovered, hstored, hownShape, hownUnforged⟩ :=
    Run.recovered_fixed hrun hs (hroster.past peer hpeer stamp hstamp) hstamp hevent hmode
  have hownBase := hrecovered.base_eq hcurrent
  have hvalue := value_eq_of_certificates hrun hs (List.ne_nil_of_mem hpeer) hhonest hownShape hshape
    hrecovered.signed hsigned hownUnforged hunforged (hownBase.trans hbase.symm)
  obtain ⟨hnumber, htoken, hprevious⟩ := hrecovered.follows current hcurrent
  obtain ⟨hepoch, hfencing, hauthority⟩ := hrecovered.named
  exact ⟨hnumber, htoken, hprevious, hauthority.trans (congrArg Prod.fst hvalue), own, hstored,
    hownBase, hepoch.symm, hfencing.symm, hauthority.symm, hownShape, hrecovered.signed,
    hownUnforged⟩

/-- The second member is certified and stores its record, which the third one accepts. -/
def certifiedSuccession : List Cue :=
  gather second third ++ canvass second third ++ [tick second, hand second third 0]

/-- The third member accepts the certified record of the second one. -/
theorem recovery_successor_certified_third :
    let f := numbered 3
    let t := (f.system .ideal).play .ideal f.fleet certifiedSuccession
    let certificate := f.certificate .ideal ⟨2⟩ 1 [⟨2⟩, ⟨3⟩]
    ∃ stamp ∈ t.logs third, ∃ record, stamp.event = .storedEpoch record ∧
      record.authorityPeerId = certificate.ballot.candidatePeerId ∧
      ∃ own, stamp.node.store.recoveryCertificate = .present own ∧
        own.ballot.candidatePeerId = record.authorityPeerId := by
  intro f t certificate
  have hplays : (f.system .ideal).Plays .ideal f.fleet certifiedSuccession := by decide +kernel
  have hroster : t.FixedRoster f.fleet [first, second, third] := by
    decide +kernel
  have hunforged : t.Unforged .ideal f.fleet certificate.votes := by decide +kernel
  have hstored : ∃ stamp ∈ t.logs third,
      loadEpochRecord f.fleet.world stamp.node.store = .ok (f.epoch .ideal) ∧
        stamp.event.stores (fun record => decide (record.mode = .recovery)) = true := by
    decide +kernel
  obtain ⟨stamp, hstamp, hcurrent, hstores⟩ := hstored
  obtain ⟨record, hevent, hmode⟩ := Event.stores_eq_true.mp hstores
  obtain ⟨_, _, _, hnamed, own, hown, _, _, _, hsame, _⟩ :=
    recovery_successor_certified (t := t) hplays.run (system_initial .ideal f)
      (fun _ _ => trivial) hroster (by decide +kernel) (by decide +kernel) hunforged
      (by decide) hstamp hcurrent (by decide +kernel) hevent (of_decide_eq_true hmode)
  exact ⟨stamp, hstamp, record, hevent, hnamed, own, hown, hsame⟩

/-- A peer runs a command on the transfer record that another one stores. -/
def withTransfer (holder peer : PeerId) (order : AuthorityTransferV1 → Command) : Cue := fun s =>
  match (s.nodes holder).store.transfer with
  | .present token => .input peer (.command (order token))
  | _ => .elapse 0

/-- A peer runs a command on the epoch record that another one accepts. -/
def withEpoch (holder peer : PeerId) (order : EpochRecordV1 → Command) : Cue := fun s =>
  match (s.nodes holder).store.epoch with
  | .present token => .input peer (.command (order token))
  | _ => .elapse 0

/-- The first authority ends its session and transfers its authority to another member, which has
the final snapshot. -/
def transferTo (target : PeerId) : List Cue :=
  [fun _ => .input first (.command (.finish [] (.transfer target)))] ++
    connect first target ++ [hand first target 0, withTransfer first target .acceptTransfer,
      withTransfer target first .commitTransfer, withTransfer first target .activateTransfer,
      withEpoch target first .observeTransfer]

/-- The second member is certified; before it can install its record, the third one, which voted
for it, takes over the authority by a transfer. -/
def transferPastPromise : List Cue :=
  gather second third ++ canvass second third ++ transferTo third

/-- A peer that promised the second member accepts a record of another mode, and so does a
majority, although a certificate on that generation exists. -/
theorem promise_not_fencing :
    let f := numbered 3
    let t := (f.system .ideal).play .ideal f.fleet transferPastPromise
    let certificate := f.certificate .ideal ⟨2⟩ 1 [⟨2⟩, ⟨3⟩]
    let other := fun record : EpochRecordV1 =>
      decide (record.mode ≠ .recovery ∧ record.generation = ⟨2, 2⟩)
    (f.system .ideal).Initial ∧ (f.system .ideal).Plays .ideal f.fleet transferPastPromise ∧
      t.FixedRoster f.fleet [first, second, third] ∧
      validateRecoveryCertificateShape .ideal certificate
        [first, second, third] = .ok () ∧
      (∀ vote ∈ certificate.votes, verifyRecoveryVoteSignature .ideal vote = .ok ()) ∧
      t.Unforged .ideal f.fleet certificate.votes ∧ certificate.ballot.base = ⟨1, 1⟩ ∧
      (∃ stamp ∈ t.logs third, promisedValue stamp.node.store.recoveryPromise =
            some ((f.epoch .ideal).generation, certificate.ballot.value) ∧
          loadEpochRecord f.fleet.world stamp.node.store = .ok (f.epoch .ideal) ∧
          stamp.event.stores other = true) ∧
      ∃ stamp ∈ t.logs first, stamp.event.stores other = true := by
  refine ⟨system_initial .ideal _, ?_, ?_, ?_, ?_, ?_, ?_, ?_, ?_⟩ <;> decide +kernel

end SwarmCraft
