import SwarmCraft.Protocol.Semantics
import SwarmCraft.Core.Quorum
import Mathlib.Data.List.Perm.Basic

/-!
# Quorums, authority election and membership certificates

Majorities of the canonical membership, the lexicographic order of authority generations with its
checked successor, and the choice of a recovery candidate: the maximum of the electable ones in an
order on what the election compares. Histories that one authority wrote alone are reconciled by
their ancestry only. A recovery certificate that passes the shape check against a member list
carries matching votes of a strict majority of its members.

A membership step is committed by votes of a majority of the old and a majority of
the new active voters. The tally counts the first vote of each voter and checks its
key against both configurations.
-/

namespace SwarmCraft

open Checked

variable {V A : Finset PeerId} {certificate : RecoveryCertificateV1} {members : List PeerId}

/-- `quorum_size`. -/
def quorumSize (memberCount : Nat) : Nat := if memberCount = 0 then 0 else memberCount / 2 + 1

/-- `has_quorum`. -/
def hasQuorum (memberCount visibleMemberCount : Nat) : Bool :=
  decide (memberCount ≠ 0) && decide (quorumSize memberCount ≤ visibleMemberCount)

/-- A quorum of a list without repetitions is a strict majority of its elements. -/
theorem majority_of_hasQuorum {n : Nat} (hV : V.card = n) (hA : A ⊆ V)
    {visible : Nat} (hq : hasQuorum n visible = true) (hcard : visible ≤ A.card) :
    Quorum.Majority V A := by
  rw [hasQuorum, Bool.and_eq_true] at hq
  have hne : n ≠ 0 := of_decide_eq_true hq.1
  have hle := of_decide_eq_true hq.2
  rw [quorumSize, if_neg hne] at hle
  exact .of_card hA (by omega)

/-- A set of at least `quorumSize` elements of a non-empty set is a strict majority. -/
theorem majority_of_quorumSize (hne : V.Nonempty) (hA : A ⊆ V)
    (hcard : quorumSize V.card ≤ A.card) : Quorum.Majority V A := by
  have hpos : V.card ≠ 0 := Finset.card_ne_zero.mpr hne
  rw [quorumSize, if_neg hpos] at hcard
  exact .of_card hA hcard

/-- One authority generation. -/
structure AuthorityGeneration where
  epoch : Nat
  fencingToken : Nat
  deriving DecidableEq

variable {a b g n : AuthorityGeneration}

/-- Generations are ordered by epoch, then by fencing token. -/
def AuthorityGeneration.lt (a b : AuthorityGeneration) : Prop :=
  a.epoch < b.epoch ∨ (a.epoch = b.epoch ∧ a.fencingToken < b.fencingToken)

instance : LT AuthorityGeneration := ⟨AuthorityGeneration.lt⟩

instance (a b : AuthorityGeneration) : Decidable (a < b) :=
  inferInstanceAs (Decidable (a.epoch < b.epoch ∨
    (a.epoch = b.epoch ∧ a.fencingToken < b.fencingToken)))

/-- The order of generations is the lexicographic one. -/
theorem AuthorityGeneration.lt_iff :
    a < b ↔ a.epoch < b.epoch ∨ (a.epoch = b.epoch ∧ a.fencingToken < b.fencingToken) :=
  Iff.rfl

/-- Generations are linearly ordered. -/
theorem AuthorityGeneration.trichotomy (a b : AuthorityGeneration) : a < b ∨ a = b ∨ b < a := by
  cases a
  cases b
  simp only [lt_iff, AuthorityGeneration.mk.injEq]
  omega

theorem AuthorityGeneration.lt_irrefl (a : AuthorityGeneration) : ¬ a < a := by
  simp only [lt_iff]
  omega

/-- The order of generations is transitive. -/
theorem AuthorityGeneration.lt_trans {c : AuthorityGeneration} (hab : a < b) (hbc : b < c) :
    a < c := by
  simp only [lt_iff] at *
  omega

/-- Counter exhaustion. -/
inductive GenerationError where
  | epochExhausted
  | fencingTokenExhausted
  deriving DecidableEq

/-- `AuthorityGeneration::checked_next`. -/
def AuthorityGeneration.checkedNext (g : AuthorityGeneration) :
    Except GenerationError AuthorityGeneration := do
  let epoch ← required (checkedSucc g.epoch) .epochExhausted
  let fencingToken ← required (checkedSucc g.fencingToken) .fencingTokenExhausted
  pure ⟨epoch, fencingToken⟩

/-- The next generation increments both counters. -/
theorem AuthorityGeneration.checkedNext_eq_ok
    (h : g.checkedNext = .ok n) : n = ⟨g.epoch + 1, g.fencingToken + 1⟩ := by
  simp only [checkedNext, bind_eq_ok, required_eq_ok, pure_eq_ok] at h
  obtain ⟨e, he, t, ht, rfl⟩ := h
  rw [(checkedSucc_eq_some.mp he).2, (checkedSucc_eq_some.mp ht).2]

/-- The next generation comes after the current one. -/
theorem AuthorityGeneration.lt_checkedNext (h : g.checkedNext = .ok n) : g < n := by
  rw [checkedNext_eq_ok h, lt_iff]
  left
  simp

/-- The generation of an epoch record. -/
def EpochRecordV1.generation (record : EpochRecordV1) : AuthorityGeneration :=
  ⟨record.epochNumber, record.fencingToken⟩

/-- What a peer knows about a possible successor. -/
structure AuthorityCandidate where
  peerId : PeerId
  acceptedEpoch : Nat
  canonicalSequence : Nat
  snapshotComplete : Bool
  compatible : Bool
  authorityEligible : Bool
  banned : Bool
  deriving DecidableEq

/-- A candidate that may become authority at all. -/
def AuthorityCandidate.electable (candidate : AuthorityCandidate) : Bool :=
  candidate.compatible && candidate.authorityEligible && candidate.snapshotComplete
    && !candidate.banned

/-- The election order: newer epoch, then longer history, then the smaller peer id. -/
def AuthorityCandidate.beats (a b : AuthorityCandidate) : Bool :=
  decide (b.acceptedEpoch < a.acceptedEpoch ∨ b.acceptedEpoch = a.acceptedEpoch ∧
    (b.canonicalSequence < a.canonicalSequence ∨ b.canonicalSequence = a.canonicalSequence ∧
      a.peerId < b.peerId))

/-- The last maximum of a list in the election order, as `Iterator::max_by` picks it. -/
def maxCandidate : List AuthorityCandidate → Option AuthorityCandidate
  | [] => none
  | candidate :: rest =>
    match maxCandidate rest with
    | none => some candidate
    | some best => if candidate.beats best then some candidate else some best

/-- `elect_authority`; the only failure is that nobody is electable. -/
def electAuthority (candidates : List AuthorityCandidate) : Option PeerId :=
  (maxCandidate (candidates.filter AuthorityCandidate.electable)).map AuthorityCandidate.peerId

/-! ## Solo histories -/

/-- The answers of `reconcile_solo_history`. -/
inductive SoloReconciliation where
  | equivalent
  | keepLocal
  | adoptRemote
  | conflict
  deriving DecidableEq

/-- The failures of `reconcile_solo_history`. -/
inductive SoloHistoryError where
  | differentWorlds
  | malformedHistory
  deriving DecidableEq

/-- `reconcile_solo_history`. -/
def reconcileSoloHistory (here remote : SoloBranchV1) :
    Except SoloHistoryError SoloReconciliation :=
  if here.worldId ≠ remote.worldId then .error .differentWorlds
  else if here.headEpoch < here.baseEpoch ∨ remote.headEpoch < remote.baseEpoch then
    .error .malformedHistory
  else if here.headSnapshotHash = remote.headSnapshotHash ∧ here.stateHash = remote.stateHash then
    .ok .equivalent
  else if here.headSnapshotHash = remote.baseSnapshotHash then .ok .adoptRemote
  else if remote.headSnapshotHash = here.baseSnapshotHash then .ok .keepLocal
  else .ok .conflict

/-! ## Recovery ballots and certificates -/

variable (C : Crypto)

/-- The two ways a ballot can be promised. -/
inductive RecoveryBallotDecision where
  | accept
  | idempotent
  deriving DecidableEq

/-- Why a ballot cannot be promised. -/
inductive RecoveryBallotError where
  | malformedGeneration
  | staleRound (received highest : Nat)
  | conflictingSameRound (round : Nat)
  | canonicalBaseChanged
  | acceptedValueChanged
  deriving DecidableEq

/-- `same_canonical_base`. -/
def sameCanonicalBase (a b : RecoveryBallotV1) : Bool :=
  decide (a.worldId = b.worldId)
    && decide (a.baseEpoch = b.baseEpoch)
    && decide (a.baseFencingToken = b.baseFencingToken)
    && decide (a.targetEpoch = b.targetEpoch)
    && decide (a.targetFencingToken = b.targetFencingToken)
    && decide (a.baseSnapshotHash = b.baseSnapshotHash)
    && decide (a.baseStateHash = b.baseStateHash)
    && decide (a.membershipHash = b.membershipHash)

/-- `evaluate_recovery_ballot`. -/
def evaluateRecoveryBallot (durable : Option RecoveryBallotV1) (proposed : RecoveryBallotV1) :
    Except RecoveryBallotError RecoveryBallotDecision := do
  ensure (proposed.generationIsWellFormed = true) RecoveryBallotError.malformedGeneration
  match durable with
  | none => pure .accept
  | some existing =>
    if proposed.round < existing.round then
      throw (.staleRound proposed.round existing.round)
    else if proposed.round = existing.round then
      if proposed.ballotHash C = existing.ballotHash C then pure .idempotent
      else throw (.conflictingSameRound proposed.round)
    else do
      ensure (sameCanonicalBase existing proposed = true) RecoveryBallotError.canonicalBaseChanged
      ensure (existing.candidatePeerId = proposed.candidatePeerId ∧
        existing.candidatePublicKey = proposed.candidatePublicKey)
        RecoveryBallotError.acceptedValueChanged
      pure .accept

/-- Why a recovery certificate is refused. -/
inductive RecoveryCertificateError where
  | malformedBallot
  | voteMismatch
  | nonMemberVote
  | quorumUnavailable (votes required : Nat)
  deriving DecidableEq

/-- `validate_recovery_certificate_shape`. -/
def validateRecoveryCertificateShape (certificate : RecoveryCertificateV1)
    (canonicalMembers : List PeerId) : Except RecoveryCertificateError Unit := do
  ensure (certificate.ballot.generationIsWellFormed = true) RecoveryCertificateError.malformedBallot
  certificate.votes.forM fun vote => do
    ensure (vote.matchesBallot C certificate.ballot = true) RecoveryCertificateError.voteMismatch
    ensure (vote.voterPeerId ∈ canonicalMembers) RecoveryCertificateError.nonMemberVote
  let voters := (certificate.votes.map RecoveryVoteV1.voterPeerId).dedup.length
  let needed := quorumSize canonicalMembers.dedup.length
  ensure (needed ≤ voters) (RecoveryCertificateError.quorumUnavailable voters needed)

/-- The peers that voted in a certificate. -/
def RecoveryCertificateV1.voters (certificate : RecoveryCertificateV1) : Finset PeerId :=
  (certificate.votes.map RecoveryVoteV1.voterPeerId).toFinset

variable {C}

/-- What the shape check of a recovery certificate establishes. -/
theorem validateRecoveryCertificateShape_eq_ok :
    validateRecoveryCertificateShape C certificate members = .ok () ↔
      certificate.ballot.generationIsWellFormed = true ∧
        (∀ vote ∈ certificate.votes, vote.matchesBallot C certificate.ballot = true ∧
          vote.voterPeerId ∈ members) ∧
        quorumSize members.toFinset.card ≤ certificate.voters.card := by
  simp only [validateRecoveryCertificateShape, bind_eq_ok, ensure_eq_ok, forM_eq_ok, exists_const,
    RecoveryCertificateV1.voters, List.card_toFinset]

/-- The voters of a checked certificate are a strict majority of a non-empty member list. -/
theorem RecoveryCertificateV1.voters_majority (hne : members ≠ [])
    (h : validateRecoveryCertificateShape C certificate members = .ok ()) :
    Quorum.Majority members.toFinset certificate.voters := by
  obtain ⟨_, hvotes, hcard⟩ := validateRecoveryCertificateShape_eq_ok.mp h
  have hsub : certificate.voters ⊆ members.toFinset := by
    intro peer hpeer
    simp only [voters, List.mem_toFinset, List.mem_map] at hpeer
    obtain ⟨vote, hvote, rfl⟩ := hpeer
    exact List.mem_toFinset.mpr (hvotes vote hvote).2
  have hnonempty : members.toFinset.Nonempty := by
    rw [List.toFinset_nonempty_iff]
    exact hne
  exact majority_of_quorumSize hnonempty hsub hcard

variable {a b : AuthorityCandidate} {candidates : List AuthorityCandidate}

/-- Why no authority is elected. -/
inductive ElectionError where
  | noEligibleCandidate
  | quorumUnavailable (visible members : Nat)
  deriving DecidableEq

/-- `elect_authority_with_quorum`. -/
def electAuthorityWithQuorum (canonicalMemberCount : Nat)
    (visibleCandidates : List AuthorityCandidate) : Except ElectionError PeerId := do
  ensure (hasQuorum canonicalMemberCount visibleCandidates.length = true)
    (.quorumUnavailable visibleCandidates.length canonicalMemberCount)
  required (electAuthority visibleCandidates) .noEligibleCandidate

/-- One candidate is at least as good as another: a later epoch, then a longer history, then a
smaller peer id. -/
structure AuthorityCandidate.Outranks (a b : AuthorityCandidate) : Prop where
  epoch : b.acceptedEpoch ≤ a.acceptedEpoch
  sequence : b.acceptedEpoch = a.acceptedEpoch → b.canonicalSequence ≤ a.canonicalSequence
  peer : b.acceptedEpoch = a.acceptedEpoch → b.canonicalSequence = a.canonicalSequence →
    a.peerId = b.peerId ∨ a.peerId < b.peerId

/-- The peer of an electable candidate that outranks all electable candidates. -/
def Elected (candidates : List AuthorityCandidate) (peer : PeerId) : Prop :=
  ∃ winner ∈ candidates, winner.electable = true ∧ winner.peerId = peer ∧
    ∀ other ∈ candidates, other.electable = true → winner.Outranks other

/-- How many peers the unbanned entries of a list name. -/
def distinctCandidates (candidates : List AuthorityCandidate) : Nat :=
  ((candidates.filter fun candidate => !candidate.banned).map
    AuthorityCandidate.peerId).toFinset.card

/-! ## The order of candidates -/

/-- Peer ids are ordered by their bytes. -/
theorem PeerId.lt_iff {a b : PeerId} : a < b ↔ a.bytes < b.bytes := Iff.rfl

namespace AuthorityCandidate

/-- The election order is the strict part of outranking. -/
theorem beats_eq_false_iff : b.beats a = false ↔ a.Outranks b := by
  have hpeer : a.peerId = b.peerId ↔ a.peerId.bytes = b.peerId.bytes := by
    cases a.peerId
    cases b.peerId
    simp
  have hstructure : a.Outranks b ↔ b.acceptedEpoch ≤ a.acceptedEpoch ∧
      (b.acceptedEpoch = a.acceptedEpoch → b.canonicalSequence ≤ a.canonicalSequence) ∧
      (b.acceptedEpoch = a.acceptedEpoch → b.canonicalSequence = a.canonicalSequence →
        a.peerId = b.peerId ∨ a.peerId < b.peerId) :=
    ⟨fun h => ⟨h.epoch, h.sequence, h.peer⟩, fun h => ⟨h.1, h.2.1, h.2.2⟩⟩
  rw [hstructure, hpeer, beats, decide_eq_false_iff_not]
  simp only [PeerId.lt_iff]
  omega

theorem Outranks.refl (a : AuthorityCandidate) : a.Outranks a :=
  ⟨le_refl _, fun _ => le_refl _, fun _ _ => .inl rfl⟩

theorem Outranks.trans {c : AuthorityCandidate} (hab : a.Outranks b)
    (hbc : b.Outranks c) : a.Outranks c := by
  rw [← beats_eq_false_iff] at *
  simp only [beats, decide_eq_false_iff_not, PeerId.lt_iff] at *
  omega

/-- A candidate that beats another one outranks it. -/
theorem outranks_of_beats (h : a.beats b = true) : a.Outranks b := by
  rw [← beats_eq_false_iff]
  simp only [beats, decide_eq_true_eq, decide_eq_false_iff_not, PeerId.lt_iff] at *
  omega

/-- Candidates that outrank each other are the same peer. -/
theorem Outranks.antisymm (hab : a.Outranks b)
    (hba : b.Outranks a) : a.peerId = b.peerId := by
  have hepoch := Nat.le_antisymm hba.epoch hab.epoch
  have hsequence := Nat.le_antisymm (hba.sequence hepoch) (hab.sequence hepoch.symm)
  rcases hab.peer hepoch.symm hsequence.symm with heq | hlt
  · exact heq
  · rcases hba.peer hepoch hsequence with heq | hgt
    · exact heq.symm
    · exact absurd hlt (Nat.lt_asymm hgt)

end AuthorityCandidate

/-! ## The elected peer -/

/-- The maximum of a list is an entry that outranks all entries; only the empty list has none. -/
theorem maxCandidate_spec (candidates : List AuthorityCandidate) :
    match maxCandidate candidates with
    | none => candidates = []
    | some best => best ∈ candidates ∧ ∀ other ∈ candidates, best.Outranks other := by
  induction candidates with
  | nil => rfl
  | cons candidate rest ih =>
    simp only [maxCandidate]
    cases hrest : maxCandidate rest with
    | none =>
      rw [hrest] at ih
      subst ih
      simp [AuthorityCandidate.Outranks.refl]
    | some best =>
      rw [hrest] at ih
      obtain ⟨hmem, hbest⟩ := ih
      by_cases hbeats : candidate.beats best = true
      · simp only [hbeats, if_true]
        have houtranks := AuthorityCandidate.outranks_of_beats hbeats
        refine ⟨List.mem_cons_self, fun other hother => ?_⟩
        rcases List.mem_cons.mp hother with rfl | hother
        · exact .refl _
        · exact houtranks.trans (hbest other hother)
      · simp only [hbeats]
        refine ⟨List.mem_cons_of_mem _ hmem, fun other hother => ?_⟩
        rcases List.mem_cons.mp hother with rfl | hother
        · exact AuthorityCandidate.beats_eq_false_iff.mp (Bool.eq_false_of_not_eq_true hbeats)
        · exact hbest other hother

theorem Elected.unique {peer other : PeerId}
    (h : Elected candidates peer) (h' : Elected candidates other) : peer = other := by
  obtain ⟨winner, hmem, helectable, rfl, hbest⟩ := h
  obtain ⟨winner', hmem', helectable', rfl, hbest'⟩ := h'
  exact (hbest winner' hmem' helectable').antisymm (hbest' winner hmem helectable)

/-- The election returns the elected peer. -/
theorem electAuthority_eq_some {peer : PeerId} :
    electAuthority candidates = some peer ↔ Elected candidates peer := by
  have hforward : ∀ peer, electAuthority candidates = some peer → Elected candidates peer := by
    intro peer h
    have hspec := maxCandidate_spec (candidates.filter AuthorityCandidate.electable)
    simp only [electAuthority, Option.map_eq_some_iff] at h
    obtain ⟨best, hbest, rfl⟩ := h
    rw [hbest] at hspec
    obtain ⟨hmem, hall⟩ := hspec
    obtain ⟨hlisted, helectable⟩ := List.mem_filter.mp hmem
    exact ⟨best, hlisted, helectable, rfl,
      fun other hother helect => hall other (List.mem_filter.mpr ⟨hother, helect⟩)⟩
  refine ⟨hforward peer, fun h => ?_⟩
  cases helect : electAuthority candidates with
  | some found => rw [(hforward found helect).unique h]
  | none =>
    have hspec := maxCandidate_spec (candidates.filter AuthorityCandidate.electable)
    rw [electAuthority, Option.map_eq_none_iff] at helect
    rw [helect] at hspec
    obtain ⟨winner, hmem, helectable, _⟩ := h
    have hlisted : winner ∈ candidates.filter AuthorityCandidate.electable :=
      List.mem_filter.mpr ⟨hmem, helectable⟩
    rw [hspec] at hlisted
    cases hlisted

/-- The election does not depend on the order of the list. -/
theorem electAuthority_perm {permuted : List AuthorityCandidate}
    (h : permuted.Perm candidates) : electAuthority permuted = electAuthority candidates := by
  ext peer
  rw [electAuthority_eq_some, electAuthority_eq_some]
  simp only [Elected, h.mem_iff]

/-- Somebody is elected exactly where somebody is electable. -/
theorem electAuthority_isSome_iff :
    (∃ peer, electAuthority candidates = some peer) ↔
      ∃ candidate ∈ candidates, candidate.electable = true := by
  constructor
  · rintro ⟨peer, h⟩
    obtain ⟨winner, hmem, helectable, _⟩ := electAuthority_eq_some.mp h
    exact ⟨winner, hmem, helectable⟩
  · rintro ⟨candidate, hmem, helectable⟩
    have hspec := maxCandidate_spec (candidates.filter AuthorityCandidate.electable)
    cases hmax : maxCandidate (candidates.filter AuthorityCandidate.electable) with
    | none =>
      rw [hmax] at hspec
      have hlisted : candidate ∈ candidates.filter AuthorityCandidate.electable :=
        List.mem_filter.mpr ⟨hmem, helectable⟩
      rw [hspec] at hlisted
      cases hlisted
    | some best => exact ⟨best.peerId, by rw [electAuthority, hmax, Option.map_some]⟩

/-! ## The quorum -/

/-- The list has enough entries for a quorum, somebody in it is electable, and it names too few
unbanned peers. -/
structure Inflated (memberCount : Nat) (candidates : List AuthorityCandidate) : Prop where
  members : memberCount ≠ 0
  entries : quorumSize memberCount ≤ candidates.length
  electable : ∃ candidate ∈ candidates, candidate.electable = true
  peers : distinctCandidates candidates < quorumSize memberCount

/-- The automatic election succeeds exactly where the list has enough entries and somebody is
electable. -/
theorem electAuthorityWithQuorum_isOk_iff {memberCount : Nat} :
    (∃ peer, electAuthorityWithQuorum memberCount candidates = .ok peer) ↔
      memberCount ≠ 0 ∧ quorumSize memberCount ≤ candidates.length ∧
        ∃ candidate ∈ candidates, candidate.electable = true := by
  rw [← electAuthority_isSome_iff]
  simp only [electAuthorityWithQuorum, bind_eq_ok, ensure_eq_ok, required_eq_ok, exists_const,
    hasQuorum, Bool.and_eq_true, decide_eq_true_eq, exists_and_left, and_assoc]

/-- The election is the same for every order of the list and elects the best candidate; an
automatic one is backed by a quorum of peers exactly where the list is not inflated. -/
theorem election_backed_iff (memberCount : Nat) (candidates : List AuthorityCandidate) :
    (∀ permuted, permuted.Perm candidates → electAuthority permuted = electAuthority candidates) ∧
      (∀ peer, electAuthority candidates = some peer → Elected candidates peer) ∧
      ((∀ peer, electAuthorityWithQuorum memberCount candidates = .ok peer →
          quorumSize memberCount ≤ distinctCandidates candidates) ↔
        ¬ Inflated memberCount candidates) := by
  refine ⟨fun permuted => electAuthority_perm, fun peer => electAuthority_eq_some.mp, ?_⟩
  constructor
  · intro hbacked hinflated
    obtain ⟨peer, hok⟩ := electAuthorityWithQuorum_isOk_iff.mpr
      ⟨hinflated.members, hinflated.entries, hinflated.electable⟩
    exact absurd (hbacked peer hok) (Nat.not_le.mpr hinflated.peers)
  · intro hnot peer hok
    obtain ⟨hmembers, hentries, helectable⟩ := electAuthorityWithQuorum_isOk_iff.mp ⟨peer, hok⟩
    by_contra hfew
    exact hnot ⟨hmembers, hentries, helectable, Nat.not_le.mp hfew⟩

/-- One peer that is listed twice is a quorum of three. -/
theorem repeated_candidate_elected :
    let candidate : AuthorityCandidate := ⟨⟨1⟩, 1, 0, true, true, true, false⟩
    electAuthorityWithQuorum 3 [candidate, candidate] = .ok ⟨1⟩ ∧
      distinctCandidates [candidate, candidate] < quorumSize 3 ∧
      Inflated 3 [candidate, candidate] := by
  intro candidate
  have hfew : distinctCandidates [candidate, candidate] < quorumSize 3 := by decide
  exact ⟨by decide, hfew, by decide, by decide, ⟨candidate, by decide, by decide⟩, hfew⟩

/-! ## Membership certificates -/

variable (C : Crypto)
variable {active : List (PeerId × PublicKey)} {record : MembershipRecordV1} {peer : PeerId}
variable {all : List PeerId} {members : List WorldMemberV1} {proposal : MembershipProposalV1}
  {key : PublicKey}

/-- Why a membership proposal or certificate is refused. -/
inductive MembershipConsensusError where
  | malformedProposal
  | duplicateMember (peer : PeerId)
  | authorityNotActive
  | voteMismatch
  | unknownVoter
  | voterKeyMismatch
  | oldQuorumUnavailable (votes required : Nat)
  | newQuorumUnavailable (votes required : Nat)
  | currentQuorumUnavailable (votes required : Nat)
  | malformedHistory
  | nonCanonicalSignerSet
  deriving DecidableEq

/-- The loop of `active_voters`, with the ids already seen. -/
def activeVotersFrom (all : List PeerId) :
    List WorldMemberV1 → Except MembershipConsensusError (List (PeerId × PublicKey))
  | [] => pure []
  | member :: rest => do
    ensure (member.peerId ∉ all) (.duplicateMember member.peerId)
    let active ← activeVotersFrom (member.peerId :: all) rest
    pure (if member.banned then active else (member.peerId, member.publicKey) :: active)

/-- `active_voters`: the keys of the members that are not banned. -/
def activeVoters (members : List WorldMemberV1) :
    Except MembershipConsensusError (List (PeerId × PublicKey)) :=
  activeVotersFrom [] members

/-- `validate_membership_proposal_shape`. -/
def validateMembershipProposalShape (proposal : MembershipProposalV1) :
    Except MembershipConsensusError Unit := do
  ensure (proposal.validateShape C = true) .malformedProposal
  let old ← activeVoters proposal.previous.members
  let new ← activeVoters proposal.proposed.members
  let key := proposal.previous.authorityPublicKey
  ensure (old.lookup proposal.previous.authorityPeerId = some key ∧
    new.lookup proposal.previous.authorityPeerId = some key)
    .authorityNotActive

/-- A vote is signed with the key that each configuration knows for its voter. -/
def voterKeyMatches (old new : List (PeerId × PublicKey)) (vote : MembershipVoteV1) : Bool :=
  (old.lookup vote.voterPeerId).all (fun key => decide (key = vote.voterPublicKey))
    && (new.lookup vote.voterPeerId).all (fun key => decide (key = vote.voterPublicKey))

/-- The vote loop of `validate_membership_certificate_shape`, with the voters already seen and
the running tallies of the two configurations. -/
def tallyVotes (proposal : MembershipProposalV1) (old new : List (PeerId × PublicKey)) :
    List PeerId → Nat × Nat → List MembershipVoteV1 → Except MembershipConsensusError (Nat × Nat)
  | _, tally, [] => pure tally
  | seen, tally, vote :: rest => do
    ensure (vote.matchesProposal C proposal = true) .voteMismatch
    if vote.voterPeerId ∈ seen then tallyVotes proposal old new seen tally rest
    else do
      ensure ((old.lookup vote.voterPeerId).isSome ∨ (new.lookup vote.voterPeerId).isSome)
        .unknownVoter
      ensure (voterKeyMatches old new vote = true) .voterKeyMismatch
      tallyVotes proposal old new (vote.voterPeerId :: seen)
        (tally.1 + (if (old.lookup vote.voterPeerId).isSome then 1 else 0),
          tally.2 + (if (new.lookup vote.voterPeerId).isSome then 1 else 0)) rest

/-- `validate_membership_certificate_shape`. -/
def validateMembershipCertificateShape (certificate : MembershipCertificateV1) :
    Except MembershipConsensusError Unit := do
  validateMembershipProposalShape C certificate.proposal
  let old ← activeVoters certificate.proposal.previous.members
  let new ← activeVoters certificate.proposal.proposed.members
  let tally ← tallyVotes C certificate.proposal old new [] (0, 0) certificate.votes
  ensure (quorumSize old.length ≤ tally.1)
    (.oldQuorumUnavailable tally.1 (quorumSize old.length))
  ensure (quorumSize new.length ≤ tally.2)
    (.newQuorumUnavailable tally.2 (quorumSize new.length))

/-- `membership_vote_for`, unsigned. -/
def membershipVoteFor (proposal : MembershipProposalV1) (voterPeerId : PeerId)
    (voterPublicKey : PublicKey) : MembershipVoteV1 where
  protocolVersion := protocolVersionV1
  worldId := proposal.proposed.worldId
  previousMembershipHash := proposal.previous.recordHash C
  proposedMembershipHash := proposal.proposed.recordHash C
  proposedSequence := proposal.proposed.sequence
  voterPeerId := voterPeerId
  voterPublicKey := voterPublicKey
  signature := .empty

/-- `sign_membership_vote`. -/
def signMembershipVote (identity : PeerIdentity) (proposal : MembershipProposalV1) :
    MembershipVoteV1 :=
  let vote := membershipVoteFor C proposal (identity.peerId C) identity.publicKey
  { vote with signature := C.sign identity.publicKey (.membershipVote vote.unsigned) }

/-- The ids of the members of a record that are not banned. -/
def MembershipRecordV1.activeIds (record : MembershipRecordV1) : List PeerId :=
  (record.members.filter fun member => !member.banned).map WorldMemberV1.peerId

/-- The members of a record that are not banned, with their keys. -/
def MembershipRecordV1.voterSet (record : MembershipRecordV1) : Finset (PeerId × PublicKey) :=
  ((record.members.filter fun member => !member.banned).map fun member =>
    (member.peerId, member.publicKey)).toFinset

/-! ## What a checked certificate contains -/

/-- The active voters are the unbanned members with their keys, in order. -/
theorem activeVotersFrom_pairs (h : activeVotersFrom all members = .ok active) :
    active = (members.filter fun member => !member.banned).map fun member =>
      (member.peerId, member.publicKey) := by
  induction members generalizing all active with
  | nil =>
    simp only [activeVotersFrom, pure_eq_ok] at h
    subst h
    rfl
  | cons member rest ih =>
    simp only [activeVotersFrom, bind_eq_ok, ensure_eq_ok, pure_eq_ok, exists_const] at h
    obtain ⟨_, tail, htail, rfl⟩ := h
    rw [ih htail]
    cases hban : member.banned <;> simp [hban]

/-- The voters that could be listed are the voter set of the record. -/
theorem activeVoters_toFinset
    (h : activeVoters record.members = .ok active) : active.toFinset = record.voterSet := by
  rw [activeVotersFrom_pairs h, MembershipRecordV1.voterSet]

/-- The ids of the voter set are the active ids. -/
theorem MembershipRecordV1.voterSet_ids (record : MembershipRecordV1) :
    record.voterSet.image Prod.fst = record.activeIds.toFinset := by
  ext peer
  simp [voterSet, activeIds]

/-- The active voters are the unbanned members, in order and without repetition. -/
theorem activeVotersFrom_eq_ok (h : activeVotersFrom all members = .ok active) :
    active.map Prod.fst = (members.filter fun member => !member.banned).map WorldMemberV1.peerId ∧
      (active.map Prod.fst).Nodup ∧ ∀ peer ∈ active.map Prod.fst, peer ∉ all := by
  induction members generalizing all active with
  | nil =>
    simp only [activeVotersFrom, pure_eq_ok] at h
    subst h
    simp
  | cons member rest ih =>
    simp only [activeVotersFrom, bind_eq_ok, ensure_eq_ok, pure_eq_ok, exists_const] at h
    obtain ⟨hnew, tail, htail, rfl⟩ := h
    obtain ⟨hmap, hnodup, hfresh⟩ := ih htail
    have hfreshAll : ∀ peer ∈ tail.map Prod.fst, peer ∉ all := fun peer hpeer hall =>
      hfresh peer hpeer (List.mem_cons_of_mem _ hall)
    cases hban : member.banned with
    | true =>
      simp only [hban, Bool.not_true, List.filter_cons_of_neg, if_true, Bool.false_eq_true,
        not_false_eq_true]
      exact ⟨hmap, hnodup, hfreshAll⟩
    | false =>
      have hnot : member.peerId ∉ tail.map Prod.fst := fun hmem =>
        hfresh member.peerId hmem List.mem_cons_self
      refine ⟨by simp [hban, hmap], ?_, ?_⟩
      · simpa using ⟨by simpa using hnot, hnodup⟩
      · intro peer hpeer
        simp only [Bool.false_eq_true, if_false, List.map_cons, List.mem_cons] at hpeer
        rcases hpeer with rfl | hpeer
        · exact hnew
        · exact hfreshAll peer hpeer

variable {C}

/-- A proposal whose shape was checked has valid shape. -/
theorem validateMembershipProposalShape_shape
    (h : validateMembershipProposalShape C proposal = .ok ()) :
    proposal.validateShape C = true := by
  simp only [validateMembershipProposalShape, bind_eq_ok, ensure_eq_ok, exists_const] at h
  exact h.1

/-- The tallies count the distinct voters of each configuration, and every voter that is counted
has a vote that matches the proposal and carries its key. -/
theorem tallyVotes_eq_ok {old new : List (PeerId × PublicKey)}
    {votes : List MembershipVoteV1} {seen : List PeerId} {tally result : Nat × Nat}
    (h : tallyVotes C proposal old new seen tally votes = .ok result) :
    ∃ A : Finset PeerId,
      result.1 = tally.1 + (A.filter fun peer => (old.lookup peer).isSome = true).card ∧
      result.2 = tally.2 + (A.filter fun peer => (new.lookup peer).isSome = true).card ∧
      (∀ peer ∈ A, peer ∉ seen) ∧
      ∀ peer ∈ A, ∃ vote ∈ votes, vote.voterPeerId = peer ∧
        vote.matchesProposal C proposal = true ∧ voterKeyMatches old new vote = true := by
  induction votes generalizing seen tally with
  | nil =>
    simp only [tallyVotes, pure_eq_ok] at h
    subst h
    exact ⟨∅, by simp, by simp, by simp, by simp⟩
  | cons vote rest ih =>
    simp only [tallyVotes, bind_eq_ok, ensure_eq_ok, exists_const] at h
    obtain ⟨hmatch, h⟩ := h
    split at h
    · obtain ⟨A, hold, hnew, hseen, hA⟩ := ih h
      refine ⟨A, hold, hnew, hseen, fun peer hpeer => ?_⟩
      obtain ⟨v, hv, hfacts⟩ := hA peer hpeer
      exact ⟨v, List.mem_cons_of_mem _ hv, hfacts⟩
    · rename_i hfresh
      simp only [bind_eq_ok, ensure_eq_ok, exists_const] at h
      obtain ⟨_, hkey, h⟩ := h
      obtain ⟨A, hold, hnew, hseen, hA⟩ := ih h
      have hnot : vote.voterPeerId ∉ A := fun hmem =>
        hseen vote.voterPeerId hmem List.mem_cons_self
      -- a configuration counts the voter exactly when it lists the voter
      have hcount : ∀ voters : List (PeerId × PublicKey),
          ((insert vote.voterPeerId A).filter fun peer => (voters.lookup peer).isSome = true).card =
            (if (voters.lookup vote.voterPeerId).isSome then 1 else 0) +
              (A.filter fun peer => (voters.lookup peer).isSome = true).card := by
        intro voters
        rw [Finset.filter_insert]
        by_cases hlisted : (voters.lookup vote.voterPeerId).isSome = true
        · have hnotFilter : vote.voterPeerId ∉
              A.filter fun peer => (voters.lookup peer).isSome = true := fun hmem =>
            hnot (Finset.mem_filter.mp hmem).1
          rw [if_pos hlisted, if_pos hlisted, Finset.card_insert_of_notMem hnotFilter]
          omega
        · rw [if_neg hlisted, if_neg hlisted, Nat.zero_add]
      refine ⟨insert vote.voterPeerId A, ?_, ?_, ?_, ?_⟩
      · rw [hcount, hold]
        omega
      · rw [hcount, hnew]
        omega
      · intro peer hpeer
        rcases Finset.mem_insert.mp hpeer with rfl | hpeer
        · exact hfresh
        · exact fun hmem => hseen peer hpeer (List.mem_cons_of_mem _ hmem)
      · intro peer hpeer
        rcases Finset.mem_insert.mp hpeer with rfl | hpeer
        · exact ⟨vote, List.mem_cons_self, rfl, hmatch, hkey⟩
        · obtain ⟨v, hv, hfacts⟩ := hA peer hpeer
          exact ⟨v, List.mem_cons_of_mem _ hv, hfacts⟩

/-- A peer that has a key in a list of voters is one of them. -/
theorem mem_of_lookup_isSome {voters : List (PeerId × PublicKey)}
    (h : (voters.lookup peer).isSome = true) : peer ∈ voters.map Prod.fst := by
  obtain ⟨key, hkey⟩ := Option.isSome_iff_exists.mp h
  obtain ⟨l, r, rfl, _⟩ := List.lookup_eq_some_iff.mp hkey
  simp

/-- The active ids of a record whose voters could be listed are distinct. -/
theorem activeVoters_eq_ok (h : activeVoters record.members = .ok active) :
    active.map Prod.fst = record.activeIds ∧ record.activeIds.Nodup := by
  obtain ⟨hmap, hnodup, _⟩ := activeVotersFrom_eq_ok h
  rw [hmap] at hnodup
  exact ⟨hmap, hnodup⟩

/-- The voters that a configuration counted are a majority of it. -/
theorem majority_of_tally {A : Finset PeerId} (hactive : activeVoters record.members = .ok active)
    (hne : record.activeIds ≠ []) (hquorum : quorumSize active.length ≤
      (A.filter fun peer => (active.lookup peer).isSome = true).card) :
    Quorum.Majority record.activeIds.toFinset
      (A.filter fun peer => (active.lookup peer).isSome = true) := by
  obtain ⟨hids, hnodup⟩ := activeVoters_eq_ok hactive
  apply majority_of_quorumSize
  · rwa [List.toFinset_nonempty_iff]
  · intro peer hpeer
    rw [List.mem_toFinset, ← hids]
    exact mem_of_lookup_isSome (Finset.mem_filter.mp hpeer).2
  · rw [List.toFinset_card_of_nodup hnodup, ← hids, List.length_map]
    exact hquorum

/-- A record of a checked proposal has an active voter, its authority. -/
theorem activeIds_ne_nil (hactive : activeVoters record.members = .ok active)
    (hkey : active.lookup peer = some key) : record.activeIds ≠ [] := by
  obtain ⟨hids, _⟩ := activeVoters_eq_ok hactive
  have hmem : peer ∈ record.activeIds := by
    rw [← hids]
    apply mem_of_lookup_isSome
    rw [hkey]
    rfl
  exact List.ne_nil_of_mem hmem

/-- Each of the peers has a vote for the proposal of the certificate, under the key that the record
has for the peer. -/
def MembershipCertificateV1.VotedBy (C : Crypto) (certificate : MembershipCertificateV1)
    (record : MembershipRecordV1) (A : Finset PeerId) : Prop :=
  ∀ peer ∈ A, ∃ vote ∈ certificate.votes, vote.voterPeerId = peer ∧
    (peer, vote.voterPublicKey) ∈ record.voterSet ∧
    vote.matchesProposal C certificate.proposal = true

/-- A vote with the listed key of its voter names a pair of the voter set. -/
theorem mem_voterSet_of_key (hactive : activeVoters record.members = .ok active)
    (hlisted : (active.lookup peer).isSome = true)
    (hkey : (active.lookup peer).all (fun expected => decide (expected = key)) = true) :
    (peer, key) ∈ record.voterSet := by
  obtain ⟨expected, hexpected⟩ := Option.isSome_iff_exists.mp hlisted
  rw [hexpected, Option.all_some, decide_eq_true_eq] at hkey
  subst hkey
  obtain ⟨l, r, hsplit, _⟩ := List.lookup_eq_some_iff.mp hexpected
  rw [← activeVoters_toFinset hactive, hsplit]
  simp

/-- The votes of a checked membership certificate come from a majority of the voters before the
change and from a majority of the voters after it. -/
theorem validateMembershipCertificateShape_majorities {certificate : MembershipCertificateV1}
    (h : validateMembershipCertificateShape C certificate = .ok ()) :
    certificate.proposal.validateShape C = true ∧ ∃ old new : Finset PeerId,
        Quorum.Majority certificate.proposal.previous.activeIds.toFinset old ∧
        Quorum.Majority certificate.proposal.proposed.activeIds.toFinset new ∧
        certificate.VotedBy C certificate.proposal.previous old ∧
        certificate.VotedBy C certificate.proposal.proposed new := by
  simp only [validateMembershipCertificateShape, validateMembershipProposalShape, bind_eq_ok,
    ensure_eq_ok, exists_const] at h
  obtain ⟨⟨hshape, old', hold', new', hnew', holdKey, hnewKey⟩, old, hold, new, hnew, tally, htally,
    holdQuorum, hnewQuorum⟩ := h
  obtain ⟨A, holdCard, hnewCard, _, hA⟩ := tallyVotes_eq_ok htally
  rw [holdCard, Nat.zero_add] at holdQuorum
  rw [hnewCard, Nat.zero_add] at hnewQuorum
  refine ⟨hshape, _, _, majority_of_tally hold (activeIds_ne_nil hold' holdKey) holdQuorum,
    majority_of_tally hnew (activeIds_ne_nil hnew' hnewKey) hnewQuorum, ?_, ?_⟩
  · intro peer hpeer
    obtain ⟨hmem, hlisted⟩ := Finset.mem_filter.mp hpeer
    obtain ⟨vote, hvote, rfl, hmatch, hkeys⟩ := hA peer hmem
    have hkey := (Bool.and_eq_true _ _ ▸ hkeys : _ ∧ _).1
    exact ⟨vote, hvote, rfl, mem_voterSet_of_key hold hlisted hkey, hmatch⟩
  · intro peer hpeer
    obtain ⟨hmem, hlisted⟩ := Finset.mem_filter.mp hpeer
    obtain ⟨vote, hvote, rfl, hmatch, hkeys⟩ := hA peer hmem
    have hkey := (Bool.and_eq_true _ _ ▸ hkeys : _ ∧ _).2
    exact ⟨vote, hvote, rfl, mem_voterSet_of_key hnew hlisted hkey, hmatch⟩

end SwarmCraft
