import Mathlib.Data.Finset.Card
import Mathlib.Data.List.Dedup

/-!
# Majorities and locked voting

Two strict majorities of one finite set share an element. A voter that locks a key
to one value before it votes, and gives the lock up only once the key is retired,
votes for at most one value of each key; with majorities, a key then has at most one
decided value.
-/

namespace Quorum

variable {α : Type} [DecidableEq α]

/-- `A` is a strict majority of `V`. -/
structure Majority (V A : Finset α) : Prop where
  /-- Every member of the majority belongs to the set. -/
  subset : A ⊆ V
  /-- More than half of the set belongs to the majority. -/
  card_lt : V.card < 2 * A.card

/-- Two strict majorities of one set share an element. -/
theorem Majority.meet {V A B : Finset α} (hA : Majority V A) (hB : Majority V B) :
    ∃ x ∈ A, x ∈ B := by
  have hcard : V.card < A.card + B.card := by
    have := hA.card_lt
    have := hB.card_lt
    omega
  obtain ⟨x, hx⟩ := Finset.inter_nonempty_of_card_lt_card_add_card hA.subset hB.subset hcard
  exact ⟨x, Finset.mem_inter.mp hx⟩

omit [DecidableEq α] in
/-- A set whose size is at least half of the whole, rounded down, plus one is a majority. -/
theorem Majority.of_card {V A : Finset α} (hsub : A ⊆ V) (hcard : V.card / 2 + 1 ≤ A.card) :
    Majority V A :=
  ⟨hsub, by omega⟩

/-! ## Locked voting -/

variable {K W : Type}

/-- The voting state of one voter. -/
structure Ballots (K W : Type) where
  /-- The key and value the voter is locked to. -/
  lock : Option (K × W)
  /-- Every vote the voter ever cast. -/
  cast : K → W → Prop
  /-- The keys on which the voter takes no new lock. -/
  retired : K → Prop

/-- The discipline of locked voting. -/
structure Ballots.Locked (b : Ballots K W) : Prop where
  /-- A vote on a key that is not retired is the one the voter is locked to. -/
  held : ∀ k w, b.cast k w → ¬ b.retired k → b.lock = some (k, w)
  /-- Every vote on the locked key has the locked value. -/
  agrees : ∀ k v w, b.lock = some (k, w) → b.cast k v → v = w
  /-- Two votes on one key have one value. -/
  unique : ∀ k v w, b.cast k v → b.cast k w → v = w

/-- What one action of a voter may do to its voting state; retired keys stay retired. -/
structure Ballots.Step (b b' : Ballots K W) : Prop where
  /-- A retired key stays retired. -/
  retired : ∀ k, b.retired k → b'.retired k
  /-- A new lock is taken by a free voter on a key that is not retired. -/
  acquired : ∀ k w, b'.lock = some (k, w) →
    b.lock = some (k, w) ∨ (b.lock = none ∧ ¬ b.retired k)
  /-- A lock is given up only once its key is retired. -/
  released : ∀ k w, b.lock = some (k, w) → b'.lock = none → b'.retired k
  /-- A new vote is for the value the voter is locked to after the action. -/
  cast : ∀ k w, b'.cast k w → b.cast k w ∨ b'.lock = some (k, w)

/-- No vote was cast on a key on which a free voter can take a lock. -/
theorem Ballots.Locked.not_cast_of_free {b : Ballots K W} (hb : b.Locked) {k : K}
    (hfree : b.lock = none) (hopen : ¬ b.retired k) (w : W) : ¬ b.cast k w := by
  intro hcast
  have hheld := hb.held k w hcast hopen
  rw [hfree] at hheld
  cases hheld

/-- The locked value of a key after an action is the value of every earlier vote on it. -/
theorem Ballots.Step.old_cast_eq {b b' : Ballots K W} (hb : b.Locked) (h : b.Step b') {k : K}
    {v w : W} (hlock : b'.lock = some (k, w)) (hcast : b.cast k v) : v = w := by
  rcases h.acquired k w hlock with hold | ⟨hfree, hopen⟩
  · exact hb.agrees k v w hold hcast
  · exact absurd hcast (hb.not_cast_of_free hfree hopen v)

/-- A lock stays until its key is retired. -/
theorem Ballots.Step.lock_or_retired {b b' : Ballots K W} (h : b.Step b') {k : K} {w : W}
    (hlock : b.lock = some (k, w)) : b'.lock = some (k, w) ∨ b'.retired k := by
  cases hlock' : b'.lock with
  | none => exact .inr (h.released k w hlock hlock')
  | some kw =>
    rcases h.acquired kw.1 kw.2 hlock' with hsame | ⟨hfree, _⟩
    · exact .inl (hsame.symm.trans hlock)
    · rw [hfree] at hlock
      cases hlock

/-- Locked voting is preserved by every action. -/
theorem Ballots.Step.locked {b b' : Ballots K W} (hb : b.Locked) (h : b.Step b') : b'.Locked := by
  have hagrees : ∀ k v w, b'.lock = some (k, w) → b'.cast k v → v = w := by
    intro k v w hlock hcast
    rcases h.cast k v hcast with hold | hnew
    · exact h.old_cast_eq hb hlock hold
    · rw [hlock] at hnew
      simp only [Option.some.injEq, Prod.mk.injEq, true_and] at hnew
      exact hnew.symm
  refine ⟨?_, hagrees, ?_⟩
  · intro k w hcast hopen
    rcases h.cast k w hcast with hold | hnew
    · have hheld := hb.held k w hold fun hret => hopen (h.retired k hret)
      exact (h.lock_or_retired hheld).resolve_right hopen
    · exact hnew
  · intro k v w hv hw
    rcases h.cast k v hv with hv | hv
    · rcases h.cast k w hw with hw | hw
      · exact hb.unique k v w hv hw
      · exact hagrees k v w hw (by assumption)
    · exact (hagrees k w v hv hw).symm

/-- Two values of one key that majorities of disciplined voters voted for are equal. -/
theorem Majority.decided_unique {V A B : Finset α} (hA : Majority V A) (hB : Majority V B)
    {b : α → Ballots K W} (hb : ∀ x ∈ V, (b x).Locked) {k : K} {v w : W}
    (hv : ∀ x ∈ A, (b x).cast k v) (hw : ∀ x ∈ B, (b x).cast k w) : v = w := by
  obtain ⟨x, hxA, hxB⟩ := hA.meet hB
  exact (hb x (hA.subset hxA)).unique k v w (hv x hxA) (hw x hxB)

end Quorum
