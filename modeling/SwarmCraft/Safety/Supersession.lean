import Mathlib.Data.Finset.Lattice.Fold
import Mathlib.Order.Lattice.Nat
import SwarmCraft.Safety.RecoveryAgreement

/-!
# Superseding an abandoned ballot

A stored promise is replaced only by a higher round of the same candidate. A later
candidate can therefore not supersede an abandoned one at the peers that promised the
first: where the up members are split over several candidates, no ballot wins a majority
in any round. It can be won exactly where one of them has a majority that is free or its own.
-/

namespace SwarmCraft

open Checked Transition Quorum
open Founding (first second third numbered gather system_initial)

variable {C : Crypto} {F : Fleet C} {s t : System}
variable {store : Store} {ballot : RecoveryBallotV1} {up : Finset PeerId} {candidate : PeerId}

/-! ## Bases and ballots -/

/-- What a recovery is based on. -/
structure RecoveryBase where
  epoch : EpochRecordV1
  head : SnapshotManifestV1
  membership : MembershipRecordV1

variable (C F) in
/-- A ballot is on a base. -/
@[mk_iff]
structure RecoveryBase.Carries (base : RecoveryBase) (ballot : RecoveryBallotV1) : Prop where
  world : ballot.worldId = F.world
  baseEpoch : ballot.baseEpoch = base.epoch.epochNumber
  baseFencingToken : ballot.baseFencingToken = base.epoch.fencingToken
  targetEpoch : ballot.targetEpoch = base.epoch.epochNumber + 1
  targetFencingToken : ballot.targetFencingToken = base.epoch.fencingToken + 1
  baseSnapshotHash : ballot.baseSnapshotHash = base.head.manifestHash C
  baseStateHash : ballot.baseStateHash = base.head.stateRoot
  membershipHash : ballot.membershipHash = base.membership.recordHash C

variable (C F) in
/-- A peer accepts a base, and a promise that it stored is on it. -/
@[mk_iff]
structure RecoveryBase.Shared (base : RecoveryBase) (store : Store) : Prop where
  epoch : loadEpochRecord F.world store = .ok base.epoch
  head : latestSnapshot store = .ok (some base.head)
  membership : loadMembershipRecord F.world store = .ok base.membership
  promise : ∀ promise, store.recoveryPromise = .present promise →
    base.Carries C F promise.ballot

instance (base : RecoveryBase) (ballot : RecoveryBallotV1) :
    Decidable (base.Carries C F ballot) :=
  decidable_of_iff' _ (RecoveryBase.carries_iff C F base ballot)

instance (base : RecoveryBase) (store : Store) : Decidable (base.Shared C F store) :=
  decidable_of_iff' _ (RecoveryBase.shared_iff C F base store)

variable (C F) in
/-- A peer answers a ballot with a vote: the promise is accepted or was made before. -/
def System.Answers (s : System) (ballot : RecoveryBallotV1) (peer : PeerId) : Prop :=
  ∃ vote result store, recoveryVoteFor C (s.site C F peer) ballot = .ok vote ∧
    promiseRecoveryBallot C ballot vote (s.nodes peer).store = .ok (result, store) ∧
    (result = .accepted ∨ result = .idempotent)

variable (C F) in
/-- A well-formed ballot of a candidate on a base, above every round that the up members have
stored. -/
structure RecoveryBase.Supersedes (base : RecoveryBase) (s : System) (up : Finset PeerId)
    (candidate : PeerId) (ballot : RecoveryBallotV1) : Prop where
  signed : verifyRecoveryBallotSignature C ballot = .ok ()
  candidate : ballot.candidatePeerId = candidate
  carries : base.Carries C F ballot
  bounded : ballot.round ≤ u64Max
  above : ∀ peer ∈ up, ∀ promise, (s.nodes peer).store.recoveryPromise = .present promise →
    promise.ballot.round < ballot.round

/-- A peer has promised nothing or a ballot of the candidate. -/
def FreeFor (candidate : PeerId) (store : Store) : Prop :=
  ∀ promise, store.recoveryPromise = .present promise → promise.ballot.candidatePeerId = candidate

instance (candidate : PeerId) (store : Store) : Decidable (FreeFor candidate store) :=
  inferInstanceAs (Decidable (∀ promise, store.recoveryPromise = .present promise →
    promise.ballot.candidatePeerId = candidate))

/-- The counters of a base and of the stored promises can still advance. -/
structure RecoveryBase.Advances (base : RecoveryBase) (s : System) (up : Finset PeerId) : Prop where
  epoch : base.epoch.epochNumber < u64Max
  fencingToken : base.epoch.fencingToken < u64Max
  rounds : ∀ peer ∈ up, ∀ promise, (s.nodes peer).store.recoveryPromise = .present promise →
    promise.ballot.round < u64Max

/-! ## Stored promises -/

variable {site : Site} {heard : Heard} {a b : Peer}

variable (C) in
/-- A promise file is missing, or it holds a well-formed ballot and a vote for it. -/
def PromiseIntact : DurableFile DurableRecoveryPromiseV1 → Prop
  | .absent => True
  | .unreadable => False
  | .present promise => promise.ballot.validateSemantics = .ok () ∧
      promise.vote.validateSemantics = .ok () ∧ promisable C promise.ballot promise.vote = true

/-- An intact promise is read as it is stored. -/
theorem PromiseIntact.load {promise : DurableRecoveryPromiseV1}
    (h : PromiseIntact C store.recoveryPromise) (hfile : store.recoveryPromise = .present promise) :
    loadRecoveryPromise C promise.ballot.worldId store = .ok promise := by
  rw [hfile] at h
  obtain ⟨hballot, hvote, hpromisable⟩ := h
  simp only [promisable, Bool.and_eq_true] at hpromisable
  obtain ⟨⟨hmatches, _⟩, _⟩ := hpromisable
  have hworld : promise.vote.worldId = promise.ballot.worldId := by
    simp only [RecoveryVoteV1.matchesBallot, Bool.and_eq_true, decide_eq_true_eq] at hmatches
    exact hmatches.1.1.1.1.1.2
  simp only [loadRecoveryPromise, DurableFile.load_eq_ok, bind_eq_ok, asStorage, mapError_eq_ok,
    ensure_eq_ok]
  exact ⟨hfile, (), hballot, (), hvote, trivial, hworld, hmatches⟩

/-- Promising a ballot leaves an intact promise. -/
theorem PromiseIntact.promise {vote : RecoveryVoteV1}
    {store' : Store} {result : RecoveryPromiseResult} (h : PromiseIntact C store.recoveryPromise)
    (hsaved : promiseRecoveryBallot C ballot vote store = .ok (result, store')) :
    PromiseIntact C store'.recoveryPromise := by
  obtain ⟨hballot, hresult⟩ := promiseRecoveryBallot_eq_ok hsaved
  cases result with
  | rejected round => exact hresult ▸ h
  | idempotent => exact hresult.1 ▸ h
  | accepted =>
    obtain ⟨rfl, hpromisable, _⟩ := hresult
    simp only [promiseRecoveryBallot, bind_eq_ok, asStorage, mapError_eq_ok] at hsaved
    obtain ⟨_, hballot, _, hvote, _⟩ := hsaved
    exact ⟨hballot, hvote, hpromisable⟩

/-- A durable write leaves an intact promise. -/
theorem StoreMove.promiseIntact {node : Node} {events : List Event}
    (h : StoreMove C site heard node store events)
    (hnode : PromiseIntact C node.store.recoveryPromise) :
    PromiseIntact C store.recoveryPromise := by
  rcases h.recoveryPromise_cases with ⟨hsame, _⟩ | hmove
  · exact hsame ▸ hnode
  cases hmove with
  | @promised ballot vote wake result store votable own saved => exact hnode.promise saved
  | @released record stored =>
    rcases @clearRecoveryPromise_cases C site.world record.epochNumber node.store with
      hsame | ⟨_, _, _, hcleared⟩
    · rw [hsame]
      exact hnode
    · rw [hcleared]
      trivial

/-- Every stored promise of a run is intact. -/
theorem Run.promiseIntact (hrun : Run (Step C F) s t) (hs : s.Initial) (peer : PeerId) :
    PromiseIntact C (t.nodes peer).store.recoveryPromise := by
  refine Step.invariant (I := fun _ p => PromiseIntact C p.node.store.recoveryPromise)
    ?_ hrun ?_ peer
  · intro r peer heard a b _ ha hmove
    cases hmove with
    | stored move => exact move.promiseIntact ha
    | remembered move => exact ha
    | logged move => exact ha
    | confirmed told => exact ha
    | bookkept => exact ha
  · intro peer
    simp only [System.peer, hs.recoveryPromise]
    trivial

/-! ## Which ballots are answered -/

/-- The local vote for a ballot matches it. -/
theorem recoveryVoteFor_promisable (site : Site) (hballot : ballot.validateSemantics = .ok ())
    (hkey : C.peerIdFromPublicKey ballot.candidatePublicKey = ballot.candidatePeerId) :
    ∃ vote, recoveryVoteFor C site ballot = .ok vote ∧ vote.validateSemantics = .ok () ∧
      promisable C ballot vote = true := by
  have hversion := (RecoveryBallotV1.generationIsWellFormed_iff.mp
    (RecoveryBallotV1.validateSemantics_eq_ok.mp hballot)).1
  simp only [recoveryVoteFor, signRecoveryVote, ofCore_eq_ok, bind_eq_ok, pure_eq_ok,
    mapError_eq_ok]
  refine ⟨_, ⟨(), ?_, rfl⟩, ?_, ?_⟩
  · simp [RecoveryVoteV1.validateSemantics, requireProtocolVersion]
  · simp [RecoveryVoteV1.validateSemantics, requireProtocolVersion]
  · simp [promisable, RecoveryVoteV1.matchesBallot, hversion, hkey, PeerIdentity.peerId]

/-- Two ballots on one base and of one candidate have the same recovery base. -/
theorem RecoveryBase.Carries.sameRecoveryBase {base : RecoveryBase}
    {first second : RecoveryBallotV1} (hfirst : base.Carries C F first)
    (hsecond : base.Carries C F second) (hid : first.candidatePeerId = second.candidatePeerId)
    (hkey : first.candidatePublicKey = second.candidatePublicKey) :
    sameRecoveryBase first second = true := by
  simp only [SwarmCraft.sameRecoveryBase, Bool.and_eq_true, decide_eq_true_eq]
  exact ⟨⟨⟨⟨⟨⟨⟨⟨⟨hfirst.world.trans hsecond.world.symm,
    hfirst.baseEpoch.trans hsecond.baseEpoch.symm⟩,
    hfirst.baseFencingToken.trans hsecond.baseFencingToken.symm⟩,
    hfirst.targetEpoch.trans hsecond.targetEpoch.symm⟩,
    hfirst.targetFencingToken.trans hsecond.targetFencingToken.symm⟩, hid⟩, hkey⟩,
    hfirst.baseSnapshotHash.trans hsecond.baseSnapshotHash.symm⟩,
    hfirst.baseStateHash.trans hsecond.baseStateHash.symm⟩,
    hfirst.membershipHash.trans hsecond.membershipHash.symm⟩

/-- What a signature check says about the candidate of a ballot. -/
theorem verifyRecoveryBallotSignature_spec (h : verifyRecoveryBallotSignature C ballot = .ok ()) :
    ballot.validateSemantics = .ok () ∧
      C.peerIdFromPublicKey ballot.candidatePublicKey = ballot.candidatePeerId := by
  simp only [verifyRecoveryBallotSignature, bind_eq_ok, mapError_eq_ok] at h
  obtain ⟨⟨⟩, hballot, hsignature⟩ := h
  exact ⟨hballot, (verifySignature_eq_ok.mp hsignature).1⟩

/-- A superseding ballot is answered exactly at the peers that are free for its candidate. -/
theorem RecoveryBase.Supersedes.answers_iff {base : RecoveryBase}
    (hrun : Run (Step C F) s t) (hs : s.Initial)
    (h : base.Supersedes C F t up candidate ballot) {peer : PeerId} (hpeer : peer ∈ up)
    (hshared : base.Shared C F (t.nodes peer).store) :
    t.Answers C F ballot peer ↔ FreeFor candidate (t.nodes peer).store := by
  obtain ⟨hballot, hkey⟩ := verifyRecoveryBallotSignature_spec h.signed
  constructor
  · rintro ⟨vote, result, store, _, hsaved, hresult⟩ promise hpromise
    have hround := h.above peer hpeer promise hpromise
    obtain ⟨_, hspec⟩ := promiseRecoveryBallot_eq_ok hsaved
    rcases hresult with rfl | rfl
    · obtain ⟨_, _, habsent | ⟨existing, hexisting, _, hsame⟩⟩ := hspec
      · rw [habsent] at hpromise
        cases hpromise
      · rw [hexisting, DurableFile.present.injEq] at hpromise
        subst hpromise
        simp only [sameRecoveryBase, Bool.and_eq_true, decide_eq_true_eq] at hsame
        exact hsame.1.1.1.1.2.trans h.candidate
    · -- the stored ballot would have the round of this one, which is above it
      obtain ⟨_, _, existing, hexisting, hsame⟩ := hspec
      rw [(DurableFile.load_eq_ok.mp hexisting).1, DurableFile.present.injEq] at hpromise
      subst hpromise
      have hsameRound : existing.ballot.unsigned.round = ballot.unsigned.round := by rw [hsame]
      exact absurd hsameRound hround.ne
  · intro hfree
    obtain ⟨vote, hvote, hsemantics, hpromisable⟩ :=
      recoveryVoteFor_promisable (t.site C F peer) hballot hkey
    refine ⟨vote, _, _, hvote, promiseRecoveryBallot_accepted hballot hsemantics hpromisable ?_,
      .inl rfl⟩
    have hintact := Run.promiseIntact hrun hs peer
    cases hfile : (t.nodes peer).store.recoveryPromise with
    | absent => exact .inl rfl
    | unreadable =>
      rw [hfile] at hintact
      cases hintact
    | present promise =>
      have hcarries := hshared.promise promise hfile
      have hload := hintact.load hfile
      have hid := (hfree promise hfile).trans h.candidate.symm
      rw [hfile] at hintact
      simp only [PromiseIntact, promisable, Bool.and_eq_true, decide_eq_true_eq] at hintact
      have hpublic : promise.ballot.candidatePublicKey = ballot.candidatePublicKey :=
        C.peerId_injective (hintact.2.2.1.2.trans (hid.trans hkey.symm))
      rw [hcarries.world, ← h.carries.world] at hload
      exact .inr ⟨promise, hload, h.above peer hpeer promise hfile,
        hcarries.sameRecoveryBase h.carries hid hpublic⟩

/-- The round of a stored promise. -/
def storedRound : DurableFile DurableRecoveryPromiseV1 → Nat
  | .present promise => promise.ballot.round
  | _ => 0

variable (C F) in
/-- A ballot on a base, one round above every stored one, before it is signed. -/
def RecoveryBase.nextBallot (base : RecoveryBase) (s : System) (up : Finset PeerId)
    (candidate : PeerId) : RecoveryBallotV1 where
  protocolVersion := protocolVersionV1
  worldId := F.world
  baseEpoch := base.epoch.epochNumber
  baseFencingToken := base.epoch.fencingToken
  targetEpoch := base.epoch.epochNumber + 1
  targetFencingToken := base.epoch.fencingToken + 1
  round := (up.sup fun peer => storedRound (s.nodes peer).store.recoveryPromise) + 1
  candidatePeerId := candidate
  candidatePublicKey := F.key candidate
  baseSnapshotHash := base.head.manifestHash C
  baseStateHash := base.head.stateRoot
  membershipHash := base.membership.recordHash C
  signature := .empty

/-- The round of the next ballot is above every stored one. -/
theorem RecoveryBase.lt_round_nextBallot {base : RecoveryBase}
    {peer : PeerId} (hpeer : peer ∈ up) {promise : DurableRecoveryPromiseV1}
    (hpromise : (t.nodes peer).store.recoveryPromise = .present promise) :
    promise.ballot.round < (base.nextBallot C F t up candidate).round := by
  have hle := Finset.le_sup (f := fun peer => storedRound (t.nodes peer).store.recoveryPromise)
    hpeer
  simp only [hpromise, storedRound] at hle
  exact Nat.lt_succ_of_le hle

/-- The round of the next ballot is a machine number while the stored ones can advance. -/
theorem RecoveryBase.Advances.round_nextBallot_le {base : RecoveryBase} (h : base.Advances t up) :
    (base.nextBallot C F t up candidate).round ≤ u64Max := by
  have hpos : 0 < u64Max := by decide
  refine (Finset.sup_lt_iff hpos).mpr fun peer hpeer => ?_
  cases hfile : (t.nodes peer).store.recoveryPromise with
  | present promise => exact h.rounds peer hpeer promise hfile
  | absent => exact hpos
  | unreadable => exact hpos

/-- While the counters can advance, every honest peer can sign a superseding ballot. -/
theorem RecoveryBase.Advances.supersedes {base : RecoveryBase}
    (h : base.Advances t up) (hhonest : F.honest candidate) :
    ∃ ballot, base.Supersedes C F t up candidate ballot := by
  have hformed : (base.nextBallot C F t up candidate).generationIsWellFormed = true :=
    RecoveryBallotV1.generationIsWellFormed_iff.mpr ⟨rfl, checkedSucc_eq_some.mpr ⟨h.epoch, rfl⟩,
      checkedSucc_eq_some.mpr ⟨h.fencingToken, rfl⟩, Nat.succ_pos _⟩
  have hround : (base.nextBallot C F t up candidate).round ≤ u64Max := h.round_nextBallot_le
  have habove : ∀ peer ∈ up, ∀ promise, (t.nodes peer).store.recoveryPromise = .present promise →
      promise.ballot.round < (base.nextBallot C F t up candidate).round :=
    fun peer hpeer promise hpromise => RecoveryBase.lt_round_nextBallot hpeer hpromise
  refine ⟨{ base.nextBallot C F t up candidate with
      signature := C.sign (F.key candidate)
        (.recoveryBallot (base.nextBallot C F t up candidate)) },
    ?_, rfl, ⟨rfl, rfl, rfl, rfl, rfl, rfl, rfl, rfl⟩, hround, habove⟩
  simp only [verifyRecoveryBallotSignature, bind_eq_ok, mapError_eq_ok]
  exact ⟨(), RecoveryBallotV1.validateSemantics_eq_ok.mpr hformed,
    verifySignature_eq_ok.mpr ⟨F.key_spec candidate hhonest, C.verify_sign _ _⟩⟩

/-- A superseding ballot shows that the counters can advance. -/
theorem RecoveryBase.Supersedes.advances {base : RecoveryBase}
    (h : base.Supersedes C F t up candidate ballot) : base.Advances t up := by
  obtain ⟨hballot, _⟩ := verifyRecoveryBallotSignature_spec h.signed
  obtain ⟨_, hepoch, htoken, _⟩ := RecoveryBallotV1.generationIsWellFormed_iff.mp
    (RecoveryBallotV1.validateSemantics_eq_ok.mp hballot)
  refine ⟨?_, ?_, fun peer hpeer promise hpromise => ?_⟩
  · exact h.carries.baseEpoch ▸ (checkedSucc_eq_some.mp hepoch).1
  · exact h.carries.baseFencingToken ▸ (checkedSucc_eq_some.mp htoken).1
  · exact (h.above peer hpeer promise hpromise).trans_le h.bounded

/-! ## When recovery is not deadlocked -/

/-- Up members that share a base have a superseding ballot that wins a majority exactly where one
of them has a majority that is free for it. -/
theorem supersession_iff (hrun : Run (Step C F) s t) (hs : s.Initial) {V up : Finset PeerId}
    (hhonest : ∀ peer ∈ up, F.honest peer) {base : RecoveryBase}
    (hshared : ∀ peer ∈ up, base.Shared C F (t.nodes peer).store) :
    (∃ candidate ∈ up, ∃ ballot, base.Supersedes C F t up candidate ballot ∧
        ∃ voters, Majority V voters ∧ voters ⊆ up ∧ ∀ peer ∈ voters, t.Answers C F ballot peer) ↔
      base.Advances t up ∧ ∃ candidate ∈ up, ∃ voters, Majority V voters ∧ voters ⊆ up ∧
        ∀ peer ∈ voters, FreeFor candidate (t.nodes peer).store := by
  constructor
  · rintro ⟨candidate, hcandidate, ballot, hballot, voters, hmajority, hup, hanswers⟩
    refine ⟨hballot.advances, candidate, hcandidate, voters, hmajority, hup, fun peer hpeer => ?_⟩
    exact (hballot.answers_iff hrun hs (hup hpeer) (hshared peer (hup hpeer))).mp
      (hanswers peer hpeer)
  · rintro ⟨hadvances, candidate, hcandidate, voters, hmajority, hup, hfree⟩
    obtain ⟨ballot, hballot⟩ := hadvances.supersedes (C := C) (hhonest candidate hcandidate)
    refine ⟨candidate, hcandidate, ballot, hballot, voters, hmajority, hup, fun peer hpeer => ?_⟩
    exact (hballot.answers_iff hrun hs (hup hpeer) (hshared peer (hup hpeer))).mpr
      (hfree peer hpeer)

/-- What a recovery of a founded world is based on. -/
def Founding.base (f : Founding) : RecoveryBase :=
  ⟨f.epoch .ideal, f.snapshot .ideal, f.membership .ideal⟩

/-- The second member has promised its own ballot, the third nothing. -/
def lonelyBallot : List Cue :=
  gather second third ++ [tick second]

/-- Without the first authority, the second member can still win with a higher round. -/
theorem supersession_iff_lonely :
    let f := numbered 3
    let t := (f.system .ideal).play .ideal f.fleet lonelyBallot
    ∃ candidate ∈ ({second, third} : Finset PeerId), ∃ ballot,
      f.base.Supersedes .ideal f.fleet t {second, third} candidate ballot ∧
        ∃ voters, Majority {first, second, third} voters ∧
          voters ⊆ {second, third} ∧
          ∀ peer ∈ voters, t.Answers .ideal f.fleet ballot peer := by
  intro f t
  have hplays : (f.system .ideal).Plays .ideal f.fleet lonelyBallot := by decide +kernel
  have hshared : ∀ peer ∈ ({second, third} : Finset PeerId),
      f.base.Shared .ideal f.fleet (t.nodes peer).store := by decide +kernel
  have hfree : ∀ peer ∈ ({second, third} : Finset PeerId),
      FreeFor second (t.nodes peer).store := by decide +kernel
  have hrounds : ∀ peer ∈ ({second, third} : Finset PeerId), ∀ promise,
      (t.nodes peer).store.recoveryPromise = .present promise →
        promise.ballot.round < u64Max := by decide +kernel
  refine (supersession_iff (t := t) hplays.run (system_initial .ideal f)
    (fun _ _ => trivial) hshared).mpr ⟨⟨by decide, by decide, hrounds⟩, second,
      by decide, {second, third}, ⟨by decide, by decide⟩, subset_rfl, hfree⟩

/-- Each of the second and the third member knows the status of the other before it knows whether
the other can host, and promises its own ballot. -/
def splitBallots : List Cue :=
  [tick second, tick third] ++ connect second third ++ [wait 8000, tick second, hand second third 1,
      hand third second 0, tick third, hand third second 1, hand second third 0,
      tick second, tick third]

/-- Without the first authority, the others are deadlocked: no ballot of any round can win. -/
theorem supersession_deadlock :
    let f := numbered 3
    let t := (f.system .ideal).play .ideal f.fleet splitBallots
    (f.system .ideal).Initial ∧ (f.system .ideal).Plays .ideal f.fleet splitBallots ∧
      t.FixedRoster f.fleet [first, second, third] ∧
      (∀ peer ∈ ({second, third} : Finset PeerId),
        f.base.Shared .ideal f.fleet (t.nodes peer).store) ∧
      ¬ ∃ candidate ∈ ({second, third} : Finset PeerId), ∃ ballot,
        f.base.Supersedes .ideal f.fleet t {second, third} candidate ballot ∧
          ∃ voters, Majority {first, second, third} voters ∧
            voters ⊆ {second, third} ∧
            ∀ peer ∈ voters, t.Answers .ideal f.fleet ballot peer := by
  intro f t
  have hplays : (f.system .ideal).Plays .ideal f.fleet splitBallots := by decide +kernel
  have hshared : ∀ peer ∈ ({second, third} : Finset PeerId),
      f.base.Shared .ideal f.fleet (t.nodes peer).store := by decide +kernel
  refine ⟨system_initial .ideal f, hplays, by decide +kernel, hshared, ?_⟩
  rintro ⟨candidate, _, ballot, hballot, voters, hmajority, hup, hanswers⟩
  -- A majority of three consists of both up members.
  have hboth : ∀ peer ∈ ({second, third} : Finset PeerId),
      FreeFor candidate (t.nodes peer).store := by
    have hall : voters = {second, third} := by
      refine Finset.eq_of_subset_of_card_le hup ?_
      have hcard := hmajority.card_lt
      have hthree : ({first, second, third} : Finset PeerId).card = 3 :=
        rfl
      have htwo : ({second, third} : Finset PeerId).card = 2 := rfl
      omega
    intro peer hpeer
    exact (hballot.answers_iff hplays.run (system_initial .ideal f) hpeer
      (hshared peer hpeer)).mp (hanswers peer (hall ▸ hpeer))
  have hsecond : (t.nodes second).store.recoveryPromise =
      .present ⟨f.ballot .ideal ⟨2⟩ 1, Founding.vote .ideal (f.ballot .ideal ⟨2⟩ 1) ⟨2⟩⟩ := by
    decide +kernel
  have hthird : (t.nodes third).store.recoveryPromise =
      .present ⟨f.ballot .ideal ⟨3⟩ 1, Founding.vote .ideal (f.ballot .ideal ⟨3⟩ 1) ⟨3⟩⟩ := by
    decide +kernel
  have hone := hboth second (by decide) _ hsecond
  have hother := hboth third (by decide) _ hthird
  exact absurd (hone.trans hother.symm) (by decide)

end SwarmCraft
