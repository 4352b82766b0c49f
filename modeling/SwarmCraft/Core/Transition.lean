import Mathlib.Logic.Relation
import Mathlib.Order.Basic
import Mathlib.Data.List.Pairwise
import Mathlib.Data.List.Destutter
import Mathlib.Data.List.ReduceOption
import Mathlib.Data.List.Range

/-!
# Runs of a transition system

What every step preserves, every run preserves. A log grows at its end; a relation between its
entries and later states that every step keeps holds between each entry and the states of all
entries after it. A slot holds one value after another; where every change relates the old value
to the new one, the successive distinct values form a chain.
-/

namespace Transition

variable {σ : Type} {step : σ → σ → Prop}

/-- The states that a run from `s` can end in. -/
abbrev Run (step : σ → σ → Prop) : σ → σ → Prop := Relation.ReflTransGen step

/-- A property kept by every step holds at the end of every run that starts in it. -/
theorem Run.invariant {I : σ → Prop} (hstep : ∀ s t, I s → step s t → I t) {s t : σ}
    (hrun : Run step s t) (hs : I s) : I t := by
  induction hrun with
  | refl => exact hs
  | tail _ hlast ih => exact hstep _ _ ih hlast

end Transition

/-! ## Logs -/

namespace History

variable {ε σ : Type} {R : ε → σ → Prop} {stateOf : ε → σ} {log new : List ε} {now next : σ}

/-- Each entry is related to the state of each later entry and to the current state. -/
structure Kept (R : ε → σ → Prop) (stateOf : ε → σ) (log : List ε) (now : σ) : Prop where
  /-- Each entry is related to the current state. -/
  current : ∀ a ∈ log, R a now
  /-- Each entry is related to the states of the entries after it. -/
  later : log.Pairwise fun a b => R a (stateOf b)

theorem Kept.nil : Kept R stateOf [] now := ⟨by simp, List.Pairwise.nil⟩

/-- A step that keeps the relation and adds at most one entry, made in the state before it. -/
theorem Kept.step (h : Kept R stateOf log now) (hkeep : ∀ a ∈ log, R a now → R a next)
    (hstate : ∀ a ∈ new, stateOf a = now) (hnew : ∀ a ∈ new, R a next)
    (hone : new.length ≤ 1) : Kept R stateOf (log ++ new) next := by
  refine ⟨fun a ha => ?_, List.pairwise_append.mpr ⟨h.later, ?_, fun a ha b hb => ?_⟩⟩
  · rcases List.mem_append.mp ha with hold | hmem
    · exact hkeep a hold (h.current a hold)
    · exact hnew a hmem
  · cases new with
    | nil => exact List.Pairwise.nil
    | cons a rest =>
      have hrest : rest = [] := List.eq_nil_of_length_eq_zero (by simpa using hone)
      rw [hrest]
      exact List.pairwise_singleton _ _
  · rw [hstate b hb]
    exact h.current a ha

/-- Of two different entries, one is related to the state of the other. -/
theorem Kept.related (h : Kept R stateOf log now) {a b : ε} (ha : a ∈ log) (hb : b ∈ log) :
    a = b ∨ R a (stateOf b) ∨ R b (stateOf a) := by
  have hlater := h.later
  clear h
  induction log with
  | nil => cases ha
  | cons c rest ih =>
    obtain ⟨hhead, htail⟩ := List.pairwise_cons.mp hlater
    rcases List.mem_cons.mp ha with rfl | harest
    · rcases List.mem_cons.mp hb with rfl | hbrest
      · exact .inl rfl
      · exact .inr (.inl (hhead b hbrest))
    · rcases List.mem_cons.mp hb with rfl | hbrest
      · exact .inr (.inr (hhead a harest))
      · exact ih harest hbrest htail

end History

/-! ## Slots -/

namespace Succession

variable {α : Type} {R : α → α → Prop} {slots : List (Option α)}

/-- The distinct values that a slot held, one after the other. -/
def successive [DecidableEq α] (slots : List (Option α)) : List α :=
  slots.reduceOption.destutter (· ≠ ·)

/-- The slot stays as it is, or it takes a value that is related to the one before. -/
def Succeeds (R : α → α → Prop) (before after : Option α) : Prop :=
  after = before ∨ ∃ new, after = some new ∧ ∀ old ∈ before, R old new

/-- The values beside each other are equal or related. -/
theorem chain_reduceOption (h : slots.IsChain (Succeeds R)) :
    slots.reduceOption.IsChain fun a b => a = b ∨ R a b := by
  induction slots with
  | nil => exact .nil
  | cons slot rest ih =>
    cases slot with
    | none =>
      rw [List.reduceOption_cons_of_none]
      exact ih h.tail
    | some value =>
      rw [List.reduceOption_cons_of_some]
      cases rest with
      | nil => exact .singleton value
      | cons next more =>
        have hnext : Succeeds R (some value) next := (List.isChain_cons_cons.mp h).1
        have hrest := ih h.tail
        rcases hnext with rfl | ⟨new, rfl, hnew⟩
        · rw [List.reduceOption_cons_of_some] at hrest ⊢
          exact .cons_cons (.inl rfl) hrest
        · rw [List.reduceOption_cons_of_some] at hrest ⊢
          exact .cons_cons (.inr (hnew value rfl)) hrest

/-- The first value stays the first one. -/
theorem head_destutter [DecidableEq α] (value : α) (rest : List α) :
    (rest.destutter' (· ≠ ·) value).head? = some value := by
  induction rest with
  | nil => rfl
  | cons next more ih =>
    by_cases hsame : value = next
    · subst hsame
      rw [List.destutter'_cons_neg more (not_not.mpr rfl)]
      exact ih
    · rw [List.destutter'_cons_pos more hsame]
      rfl

/-- Values that are equal or related become a chain once repetitions are dropped. -/
theorem chain_destutter [DecidableEq α] {values : List α}
    (h : values.IsChain fun a b => a = b ∨ R a b) : (values.destutter (· ≠ ·)).IsChain R := by
  cases values with
  | nil => exact .nil
  | cons value rest =>
    rw [List.destutter_cons']
    induction rest generalizing value with
    | nil => exact .singleton value
    | cons next more ih =>
      obtain ⟨hfirst, hrest⟩ := List.isChain_cons_cons.mp h
      by_cases hsame : value = next
      · subst hsame
        rw [List.destutter'_cons_neg more (not_not.mpr rfl)]
        exact ih value hrest
      · rw [List.destutter'_cons_pos more hsame]
        apply List.isChain_cons.mpr
        refine ⟨fun head hmem => ?_, ih next hrest⟩
        rw [head_destutter] at hmem
        cases hmem
        exact hfirst.resolve_left hsame

/-- The successive values of a slot are a chain. -/
theorem chain_successive [DecidableEq α] (h : slots.IsChain (Succeeds R)) :
    (successive slots).IsChain R :=
  chain_destutter (chain_reduceOption h)

/-- What holds of every value that an empty slot takes holds of the first one. -/
theorem head_successive [DecidableEq α] {P : α → Prop}
    (h : (none :: slots).IsChain fun before after => before = none → ∀ new ∈ after, P new) :
    ∀ first ∈ (successive (none :: slots)).head?, P first := by
  induction slots with
  | nil => simp [successive]
  | cons slot rest ih =>
    obtain ⟨hfirst, hrest⟩ := List.isChain_cons_cons.mp h
    cases slot with
    | none => exact ih hrest
    | some value =>
      rw [successive, List.reduceOption_cons_of_none, List.reduceOption_cons_of_some,
        List.destutter_cons', head_destutter]
      rintro _ ⟨⟩
      exact hfirst rfl value rfl

/-- A chain of successors counts up from its start. -/
theorem eq_range_of_chain {f : α → ℕ} {values : List α}
    (h : values.IsChain fun a b => f b = f a + 1) {start : ℕ}
    (hfirst : ∀ first ∈ values.head?, f first = start) :
    values.map f = List.range' start values.length := by
  induction values generalizing start with
  | nil => rfl
  | cons value rest ih =>
    have hvalue : f value = start := hfirst value rfl
    rw [List.map_cons, List.length_cons, List.range'_succ, hvalue]
    congr 1
    apply ih h.tail
    intro next hnext
    have hlink := (List.isChain_cons.mp h).1 next hnext
    omega

end Succession
