import SwarmCraft.System.Genesis

/-!
# The stored promise and the ballot rule

The consensus layer states when a ballot may be promised; the storage layer decides it
again before it writes. The two rules split the comparison of the base and of the
candidate differently. Fed with the same ballots they give the same answers, and the
stored ballot is the one that the rule remembers.
-/

namespace SwarmCraft

open Checked

variable (C : Crypto)
variable {store : Store} {durable : Option RecoveryBallotV1}

/-- A ballot of a world with a vote for it, both well formed and named by their own keys. -/
structure Submission (world : WorldId) where
  ballot : RecoveryBallotV1
  vote : RecoveryVoteV1
  world_eq : ballot.worldId = world
  ballot_valid : ballot.validateSemantics = .ok ()
  vote_valid : vote.validateSemantics = .ok ()
  matching : vote.matchesBallot C ballot = true
  candidate_key : C.peerIdFromPublicKey ballot.candidatePublicKey = ballot.candidatePeerId
  voter_key : C.peerIdFromPublicKey vote.voterPublicKey = vote.voterPeerId

/-- The ballot of the promise on file. -/
def Store.promisedBallot (store : Store) : Option RecoveryBallotV1 :=
  match store.recoveryPromise with
  | .present promise => some promise.ballot
  | _ => none

/-- The ballot that the rule remembers after its decision. -/
def ruledBallot (durable : Option RecoveryBallotV1) (proposed : RecoveryBallotV1) :
    Option RecoveryBallotV1 :=
  match evaluateRecoveryBallot C durable proposed with
  | .ok .accept => some proposed
  | _ => durable

/-- Where the two rules stand after one more submission, and what they answered to it. -/
structure Comparison where
  answer : Except StorageError RecoveryPromiseResult
  decision : Except RecoveryBallotError RecoveryBallotDecision
  store : Store
  durable : Option RecoveryBallotV1

variable {world : WorldId}

/-- One submission, fed to both rules. -/
def compareOne (store : Store) (durable : Option RecoveryBallotV1)
    (submission : Submission C world) : Comparison where
  answer := (promiseRecoveryBallot C submission.ballot submission.vote store).map Prod.fst
  decision := evaluateRecoveryBallot C durable submission.ballot
  store :=
    match promiseRecoveryBallot C submission.ballot submission.vote store with
    | .ok (_, after) => after
    | .error _ => store
  durable := ruledBallot C durable submission.ballot

/-- A sequence of submissions, fed to both rules. -/
def compareAll : Store → Option RecoveryBallotV1 → List (Submission C world) → List Comparison
  | _, _, [] => []
  | store, durable, submission :: rest =>
    let comparison := compareOne C store durable submission
    comparison :: compareAll comparison.store comparison.durable rest

/-- The answers mean the same. -/
def RecoveryPromiseResult.Corresponds :
    RecoveryPromiseResult → Except RecoveryBallotError RecoveryBallotDecision → Prop
  | .accepted, decision => decision = .ok .accept
  | .idempotent, decision => decision = .ok .idempotent
  | .rejected _, decision => ∃ error, decision = .error error

/-- A later ballot keeps the base and the candidate of an earlier one, in no earlier round. -/
structure RecoveryBallotV1.Upgrades (later earlier : RecoveryBallotV1) : Prop where
  round : earlier.round ≤ later.round
  base : sameCanonicalBase earlier later = true
  candidate : earlier.candidatePeerId = later.candidatePeerId
  key : earlier.candidatePublicKey = later.candidatePublicKey

variable {C}

/-! ## One submission -/

/-- The storage rule compares the canonical base and the candidate. -/
theorem sameRecoveryBase_iff {a b : RecoveryBallotV1} :
    sameRecoveryBase a b = true ↔ sameCanonicalBase a b = true ∧
      a.candidatePeerId = b.candidatePeerId ∧ a.candidatePublicKey = b.candidatePublicKey := by
  simp only [sameRecoveryBase, sameCanonicalBase, Bool.and_eq_true, decide_eq_true_eq]
  constructor
  · rintro ⟨⟨⟨⟨⟨⟨⟨⟨⟨h₁, h₂⟩, h₃⟩, h₄⟩, h₅⟩, h₆⟩, h₇⟩, h₈⟩, h₉⟩, h₁₀⟩
    exact ⟨⟨⟨⟨⟨⟨⟨⟨h₁, h₂⟩, h₃⟩, h₄⟩, h₅⟩, h₈⟩, h₉⟩, h₁₀⟩, h₆, h₇⟩
  · rintro ⟨⟨⟨⟨⟨⟨⟨⟨h₁, h₂⟩, h₃⟩, h₄⟩, h₅⟩, h₈⟩, h₉⟩, h₁₀⟩, h₆, h₇⟩
    exact ⟨⟨⟨⟨⟨⟨⟨⟨⟨h₁, h₂⟩, h₃⟩, h₄⟩, h₅⟩, h₆⟩, h₇⟩, h₈⟩, h₉⟩, h₁₀⟩

/-- A submission passes the checks that precede the comparison with the stored promise. -/
theorem Submission.promisable_eq (submission : Submission C world) :
    promisable C submission.ballot submission.vote = true := by
  simp [promisable, submission.matching, submission.candidate_key, submission.voter_key]

/-- The generation of a submitted ballot is well formed. -/
theorem Submission.wellFormed (submission : Submission C world) :
    submission.ballot.generationIsWellFormed = true :=
  RecoveryBallotV1.validateSemantics_eq_ok.mp submission.ballot_valid

variable (C) in
/-- The promise on file is the remembered ballot with a vote for it. -/
def Store.Remembers (world : WorldId) (store : Store) (durable : Option RecoveryBallotV1) : Prop :=
  match durable with
  | none => store.recoveryPromise = .absent
  | some ballot => ∃ vote, loadRecoveryPromise C world store = .ok ⟨ballot, vote⟩

/-- The remembered ballot is the stored one. -/
theorem Store.Remembers.promisedBallot
    (h : store.Remembers C world durable) : store.promisedBallot = durable := by
  cases durable with
  | none =>
    rw [Store.promisedBallot, h]
  | some ballot =>
    obtain ⟨vote, hload⟩ := h
    rw [Store.promisedBallot, (DurableFile.load_eq_ok.mp hload).1]

/-- A submission that was just written is remembered. -/
theorem Submission.remembers (submission : Submission C world) (store : Store) :
    Store.Remembers C world
      { store with recoveryPromise := .present ⟨submission.ballot, submission.vote⟩ }
      (some submission.ballot) := by
  have hvoteWorld := (RecoveryVoteV1.matchesBallot_iff.mp submission.matching).2.1
  refine ⟨submission.vote, ?_⟩
  simp only [loadRecoveryPromise, DurableFile.load_eq_ok, bind_eq_ok, asStorage, mapError_eq_ok,
    ensure_eq_ok]
  exact ⟨trivial, (), submission.ballot_valid, (), submission.vote_valid, submission.world_eq,
    hvoteWorld.trans submission.world_eq, submission.matching⟩

/-- The storage rule of a submission is the comparison with the promise it finds. -/
theorem Submission.promise_eq (submission : Submission C world)
    {existing : DurableRecoveryPromiseV1}
    (hload : loadRecoveryPromise C world store = .ok existing) :
    promiseRecoveryBallot C submission.ballot submission.vote store =
      if submission.ballot.round < existing.ballot.round then
        .ok (.rejected existing.ballot.round, store)
      else if submission.ballot.round = existing.ballot.round then
        if submission.ballot.ballotHash C = existing.ballot.ballotHash C then
          .ok (.idempotent, store)
        else .ok (.rejected existing.ballot.round, store)
      else if sameRecoveryBase existing.ballot submission.ballot = false then
        .ok (.rejected existing.ballot.round, store)
      else .ok (.accepted,
        { store with recoveryPromise := .present ⟨submission.ballot, submission.vote⟩ }) := by
  have hfile := (DurableFile.load_eq_ok.mp hload).1
  have hfound : existingRecoveryPromise C submission.ballot.worldId store = .ok (some existing) := by
    simp [existingRecoveryPromise, hfile, DurableFile.exists, submission.world_eq, hload]
  simp only [promiseRecoveryBallot, asStorage, submission.ballot_valid, submission.vote_valid,
    submission.promisable_eq, hfound]
  rfl

/-- The consensus rule of a submission is the same comparison with the ballot it remembers. -/
theorem Submission.evaluate_eq (submission : Submission C world) (existing : RecoveryBallotV1) :
    (submission.ballot.round < existing.round →
      ∃ error, evaluateRecoveryBallot C (some existing) submission.ballot = .error error) ∧
    (submission.ballot.round = existing.round →
      if submission.ballot.ballotHash C = existing.ballotHash C then
        evaluateRecoveryBallot C (some existing) submission.ballot = .ok .idempotent
      else ∃ error, evaluateRecoveryBallot C (some existing) submission.ballot = .error error) ∧
    (existing.round < submission.ballot.round → if sameRecoveryBase existing submission.ballot then
        evaluateRecoveryBallot C (some existing) submission.ballot = .ok .accept
      else ∃ error, evaluateRecoveryBallot C (some existing) submission.ballot = .error error) := by
  refine ⟨fun hlow => ?_, fun hsame => ?_, fun hhigh => ?_⟩
  · refine ⟨.staleRound submission.ballot.round existing.round, ?_⟩
    simp [evaluateRecoveryBallot, submission.wellFormed, ensure, hlow, bind, Except.bind, throw,
      throwThe, MonadExceptOf.throw]
  · split
    · rename_i hhash
      simp [evaluateRecoveryBallot, submission.wellFormed, ensure, hsame, hhash]
    · rename_i hhash
      refine ⟨.conflictingSameRound submission.ballot.round, ?_⟩
      simp [evaluateRecoveryBallot, submission.wellFormed, ensure, hsame, hhash, bind, Except.bind,
        throw, throwThe, MonadExceptOf.throw]
  · have hnotLow : ¬ submission.ballot.round < existing.round := by omega
    have hnotSame : submission.ballot.round ≠ existing.round := by omega
    by_cases hbase : sameCanonicalBase existing submission.ballot = true
    · by_cases hcandidate : existing.candidatePeerId = submission.ballot.candidatePeerId ∧
          existing.candidatePublicKey = submission.ballot.candidatePublicKey
      · rw [if_pos (sameRecoveryBase_iff.mpr ⟨hbase, hcandidate⟩)]
        simp [evaluateRecoveryBallot, submission.wellFormed, ensure, hnotLow, hnotSame, hbase,
          hcandidate]
      · rw [if_neg fun h => hcandidate (sameRecoveryBase_iff.mp h).2]
        refine ⟨.acceptedValueChanged, ?_⟩
        simp [evaluateRecoveryBallot, submission.wellFormed, ensure, hnotLow, hnotSame, hbase,
          hcandidate, bind, Except.bind]
    · rw [if_neg fun h => hbase (sameRecoveryBase_iff.mp h).1]
      refine ⟨.canonicalBaseChanged, ?_⟩
      simp [evaluateRecoveryBallot, submission.wellFormed, ensure, hnotLow, hnotSame, hbase, bind,
        Except.bind]

theorem RecoveryBallotV1.Upgrades.refl (ballot : RecoveryBallotV1) : ballot.Upgrades ballot :=
  ⟨le_refl _, by simp [sameCanonicalBase], rfl, rfl⟩

/-- A rule that refuses or repeats a submission stays where it is. -/
theorem compareOne_of_kept (h : store.Remembers C world durable) {submission : Submission C world}
    {result : RecoveryPromiseResult}
    (hpromise : promiseRecoveryBallot C submission.ballot submission.vote store =
      .ok (result, store))
    (hcorresponds : result.Corresponds (evaluateRecoveryBallot C durable submission.ballot))
    (hresult : result ≠ .accepted) :
    let comparison := compareOne C store durable submission
    (∃ result, comparison.answer = .ok result ∧ result.Corresponds comparison.decision) ∧
      comparison.store.Remembers C world comparison.durable ∧
      ∀ earlier ∈ durable, ∃ later ∈ comparison.durable, later.Upgrades earlier := by
  intro comparison
  have hdurable : ruledBallot C durable submission.ballot = durable := by
    cases result with
    | accepted => exact absurd rfl hresult
    | idempotent =>
      change evaluateRecoveryBallot C durable submission.ballot = _ at hcorresponds
      rw [ruledBallot, hcorresponds]
    | rejected round =>
      obtain ⟨error, herror⟩ := hcorresponds
      rw [ruledBallot, herror]
  simp only [comparison, compareOne, hpromise, hdurable]
  exact ⟨⟨result, rfl, hcorresponds⟩, h, fun earlier hearlier => ⟨earlier, hearlier, .refl earlier⟩⟩

/-- One submission: the answers mean the same, the remembered ballot is the stored one again, and
a ballot that was remembered is kept or upgraded. -/
theorem compareOne_spec (h : store.Remembers C world durable) (submission : Submission C world) :
    let comparison := compareOne C store durable submission
    (∃ result, comparison.answer = .ok result ∧ result.Corresponds comparison.decision) ∧
      comparison.store.Remembers C world comparison.durable ∧
      ∀ earlier ∈ durable, ∃ later ∈ comparison.durable, later.Upgrades earlier := by
  intro comparison
  cases durable with
  | none =>
    have haccepted := promiseRecoveryBallot_accepted submission.ballot_valid submission.vote_valid
      submission.promisable_eq (.inl h)
    have hdecision : evaluateRecoveryBallot C none submission.ballot = .ok .accept := by
      simp [evaluateRecoveryBallot, submission.wellFormed, ensure]
    refine ⟨⟨.accepted, ?_, hdecision⟩, ?_, by simp⟩
    · simp only [comparison, compareOne, haccepted]
      rfl
    · simp only [comparison, compareOne, haccepted, ruledBallot, hdecision]
      exact submission.remembers store
  | some existing =>
    obtain ⟨vote, hload⟩ := id h
    have hpromise := submission.promise_eq hload
    dsimp only at hpromise
    obtain ⟨hstale, hrepeated, hnew⟩ := submission.evaluate_eq existing
    rcases lt_trichotomy submission.ballot.round existing.round with hlow | hsame | hhigh
    · rw [if_pos hlow] at hpromise
      exact compareOne_of_kept h hpromise (hstale hlow) (by simp)
    · rw [if_neg (by omega), if_pos hsame] at hpromise
      have hdecision := hrepeated hsame
      split at hdecision
      · rename_i hhash
        rw [if_pos hhash] at hpromise
        exact compareOne_of_kept h hpromise hdecision (by simp)
      · rename_i hhash
        rw [if_neg hhash] at hpromise
        exact compareOne_of_kept h hpromise hdecision (by simp)
    · rw [if_neg (by omega), if_neg (by omega)] at hpromise
      have hdecision := hnew hhigh
      split at hdecision
      · rename_i hbase
        rw [if_neg (by simp [hbase])] at hpromise
        obtain ⟨hcanonical, hcandidate, hkey⟩ := sameRecoveryBase_iff.mp hbase
        simp only [comparison, compareOne, hpromise, ruledBallot, hdecision]
        refine ⟨⟨.accepted, rfl, rfl⟩, submission.remembers store, ?_⟩
        rintro _ ⟨⟩
        exact ⟨_, rfl, hhigh.le, hcanonical, hcandidate, hkey⟩
      · rename_i hbase
        rw [if_pos (Bool.eq_false_of_not_eq_true hbase)] at hpromise
        exact compareOne_of_kept h hpromise hdecision (by simp)

/-! ## Any number of submissions -/

theorem RecoveryBallotV1.Upgrades.trans {a b c : RecoveryBallotV1} (h : c.Upgrades b)
    (h' : b.Upgrades a) : c.Upgrades a := by
  refine ⟨h'.round.trans h.round, ?_, h'.candidate.trans h.candidate, h'.key.trans h.key⟩
  have hfirst := h'.base
  have hsecond := h.base
  simp only [sameCanonicalBase, Bool.and_eq_true, decide_eq_true_eq] at hfirst hsecond ⊢
  obtain ⟨⟨⟨⟨⟨⟨⟨h₁, h₂⟩, h₃⟩, h₄⟩, h₅⟩, h₆⟩, h₇⟩, h₈⟩ := hfirst
  rw [h₁, h₂, h₃, h₄, h₅, h₆, h₇, h₈]
  exact hsecond

/-- A remembered ballot is kept or upgraded by every later submission. -/
theorem compareAll_upgrades
    (h : store.Remembers C world durable) (submissions : List (Submission C world)) :
    ∀ comparison ∈ compareAll C store durable submissions, ∀ earlier ∈ durable,
      ∃ later ∈ comparison.durable, later.Upgrades earlier := by
  induction submissions generalizing store durable with
  | nil => simp [compareAll]
  | cons submission rest ih =>
    obtain ⟨_, hremembers, hupgrades⟩ := compareOne_spec h submission
    intro comparison hmem earlier hearlier
    obtain ⟨middle, hmiddle, hfirst⟩ := hupgrades earlier hearlier
    rcases List.mem_cons.mp hmem with rfl | hrest
    · exact ⟨middle, hmiddle, hfirst⟩
    · obtain ⟨later, hlater, hsecond⟩ := ih hremembers comparison hrest middle hmiddle
      exact ⟨later, hlater, hsecond.trans hfirst⟩

/-- Whatever is submitted to a store without a promise, both rules give answers that mean the same,
the stored ballot is the remembered one, and it is only ever upgraded. -/
theorem promise_implements_rule (store : Store) (submissions : List (Submission C world)) :
    let comparisons := compareAll C { store with recoveryPromise := .absent } none submissions
    (∀ comparison ∈ comparisons,
      (∃ result, comparison.answer = .ok result ∧ result.Corresponds comparison.decision) ∧
        comparison.store.promisedBallot = comparison.durable) ∧
      comparisons.Pairwise fun earlier later => ∀ ballot ∈ earlier.store.promisedBallot,
        ∃ upgraded ∈ later.store.promisedBallot, upgraded.Upgrades ballot := by
  have hgeneral : ∀ (store : Store) (durable : Option RecoveryBallotV1),
      store.Remembers C world durable →
      (∀ comparison ∈ compareAll C store durable submissions,
        (∃ result, comparison.answer = .ok result ∧ result.Corresponds comparison.decision) ∧
          comparison.store.promisedBallot = comparison.durable) ∧
        (compareAll C store durable submissions).Pairwise fun earlier later =>
          ∀ ballot ∈ earlier.durable, ∃ upgraded ∈ later.durable, upgraded.Upgrades ballot := by
    induction submissions with
    | nil => simp [compareAll]
    | cons submission rest ih =>
      intro store durable h
      obtain ⟨hanswer, hremembers, _⟩ := compareOne_spec h submission
      obtain ⟨hrest, hpairs⟩ := ih _ _ hremembers
      refine ⟨fun comparison hmem => ?_, List.pairwise_cons.mpr ⟨?_, hpairs⟩⟩
      · rcases List.mem_cons.mp hmem with rfl | hmem
        · exact ⟨hanswer, hremembers.promisedBallot⟩
        · exact hrest comparison hmem
      · exact compareAll_upgrades hremembers rest
  intro comparisons
  obtain ⟨hall, hpairs⟩ := hgeneral { store with recoveryPromise := .absent } none rfl
  refine ⟨hall, hpairs.imp_of_mem ?_⟩
  intro earlier later hearlier hlater hupgrades
  rw [(hall earlier hearlier).2, (hall later hlater).2]
  exact hupgrades

/-- The ballot of a founding member with its own vote. -/
def Founding.submission (f : Founding) (candidate : PublicKey) (round : Nat) (hround : 0 < round) :
    Submission .ideal (f.world .ideal) where
  ballot := f.ballot .ideal candidate round
  vote := vote .ideal (f.ballot .ideal candidate round) candidate
  world_eq := rfl
  ballot_valid := by
    have hwell : (f.ballot .ideal candidate round).generationIsWellFormed = true :=
      RecoveryBallotV1.generationIsWellFormed_iff.mpr ⟨rfl, rfl, rfl, hround⟩
    exact RecoveryBallotV1.validateSemantics_eq_ok.mpr hwell
  vote_valid := rfl
  matching := RecoveryVoteV1.matchesBallot_iff.mpr ⟨rfl, rfl, rfl, rfl, rfl, rfl, rfl⟩
  candidate_key := rfl
  voter_key := rfl

example :
    let f := Founding.numbered 3
    let submissions := [f.submission ⟨2⟩ 1 (by decide), f.submission ⟨2⟩ 1 (by decide),
      f.submission ⟨3⟩ 2 (by decide), f.submission ⟨2⟩ 3 (by decide),
      f.submission ⟨2⟩ 1 (by decide)]
    (compareAll .ideal (f.store .ideal) none submissions).map Comparison.answer =
      [.ok .accepted, .ok .idempotent, .ok (.rejected 1), .ok .accepted, .ok (.rejected 3)] := by
  decide +kernel

end SwarmCraft
