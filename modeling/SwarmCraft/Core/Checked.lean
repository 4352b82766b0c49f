import Mathlib.Data.List.Basic

/-!
# Fallible checks

A chain of guards is a computation in `Except`. The lemmas here invert such a
chain: a chain that returns a value passed every guard in it.
-/

namespace Checked

variable {ε ε' α β : Type}

/-- Fail with `e` unless `p` holds. -/
def ensure (p : Prop) [Decidable p] (e : ε) : Except ε Unit :=
  if p then .ok () else .error e

/-- The value of an option, or the failure `e` where there is none. -/
def required (o : Option α) (e : ε) : Except ε α :=
  match o with
  | some a => .ok a
  | none => .error e

/-- A failed computation is treated as an absent value. -/
def optional (x : Except ε α) : Option α :=
  match x with
  | .ok a => some a
  | .error _ => none

/-- Run a computation only where the condition holds. -/
def onlyIf {m : Type → Type} [Monad m] (p : Prop) [Decidable p] (x : m Unit) : m Unit :=
  if p then x else pure ()

/-- Run a computation on the value of an option, if there is one. -/
def onSome {m : Type → Type} [Monad m] (o : Option α) (f : α → m Unit) : m Unit :=
  match o with
  | some a => f a
  | none => pure ()

/-- A guard returns exactly when its condition holds. -/
@[simp] theorem ensure_eq_ok {p : Prop} [Decidable p] {e : ε} {u : Unit} :
    ensure p e = .ok u ↔ p := by
  unfold ensure
  split <;> simp_all

/-- A required value is the value of the option. -/
@[simp] theorem required_eq_ok {o : Option α} {e : ε} {a : α} :
    required o e = .ok a ↔ o = some a := by
  cases o <;> simp [required]

/-- An optional value is present exactly when the computation returned it. -/
@[simp] theorem optional_eq_some {x : Except ε α} {a : α} : optional x = some a ↔ x = .ok a := by
  cases x <;> simp [optional]

/-- An optional value is absent exactly when the computation never returns. -/
theorem optional_eq_none {x : Except ε α} : optional x = none ↔ ∀ a, x ≠ .ok a := by
  cases x <;> simp [optional]

/-- What holds of the result of a computation can be decided by running it. -/
instance decidableForallOk {p : α → Prop} [DecidablePred p] :
    (x : Except ε α) → Decidable (∀ a, x = .ok a → p a)
  | .ok a => decidable_of_iff (p a) ⟨fun h _ heq => by cases heq; exact h, fun h => h a rfl⟩
  | .error _ => isTrue fun _ heq => nomatch heq

/-- A sequence returns exactly when both of its parts do. -/
@[simp] theorem bind_eq_ok {x : Except ε α} {f : α → Except ε β} {b : β} :
    (x >>= f) = .ok b ↔ ∃ a, x = .ok a ∧ f a = .ok b := by
  cases x <;> simp [bind, Except.bind]

/-- Relabelling the failure of a computation keeps its results. -/
@[simp] theorem mapError_eq_ok {x : Except ε α} {f : ε → ε'} {a : α} :
    x.mapError f = .ok a ↔ x = .ok a := by
  cases x <;> simp [Except.mapError]

/-- Returning a value is a success with that value. -/
@[simp] theorem pure_eq_ok {a b : α} : (pure a : Except ε α) = .ok b ↔ a = b := by
  simp [pure, Except.pure]

/-- A thrown error is no success. -/
@[simp] theorem throw_ne_ok {e : ε} {a : α} : (throw e : Except ε α) ≠ .ok a := by
  simp [throw, throwThe, MonadExceptOf.throw]

/-- A conditional check returns exactly when the condition fails or the check returns. -/
@[simp] theorem onlyIf_eq_ok {p : Prop} [Decidable p] {x : Except ε Unit} {u : Unit} :
    onlyIf p x = .ok u ↔ (p → x = .ok ()) := by
  unfold onlyIf
  split <;> simp_all

/-- A check of an optional value returns exactly when it returns at the value. -/
@[simp] theorem onSome_eq_ok {o : Option α} {f : α → Except ε Unit} {u : Unit} :
    onSome o f = .ok u ↔ ∀ a, o = some a → f a = .ok () := by
  cases o <;> simp [onSome]

/-- A check run over a list returns exactly when it returns at every element. -/
@[simp] theorem forM_eq_ok {f : α → Except ε Unit} {l : List α} {u : Unit} :
    l.forM f = .ok u ↔ ∀ a ∈ l, f a = .ok () := by
  induction l with
  | nil => simp [List.forM, pure, Except.pure]
  | cons a l ih =>
    change (f a >>= fun _ => l.forM f) = .ok u ↔ _
    simp only [bind_eq_ok, List.mem_cons, forall_eq_or_imp]
    constructor
    · rintro ⟨⟨⟩, ha, hl⟩
      exact ⟨ha, ih.mp hl⟩
    · rintro ⟨ha, hl⟩
      exact ⟨(), ha, ih.mpr hl⟩

/-- A computation that returns at every element of a list returns on the whole list, and its
results are those at the elements. -/
theorem exists_mapM_ok {f : α → Except ε β} {l : List α} (h : ∀ a ∈ l, ∃ b, f a = .ok b) :
    ∃ results, l.mapM f = .ok results ∧ ∀ a ∈ l, ∀ b, f a = .ok b → b ∈ results := by
  induction l with
  | nil => exact ⟨[], rfl, fun _ ha => nomatch ha⟩
  | cons a l ih =>
    obtain ⟨b, hb⟩ := h a List.mem_cons_self
    obtain ⟨results, hrun, hresults⟩ := ih fun c hc => h c (List.mem_cons_of_mem _ hc)
    refine ⟨b :: results, ?_, fun c hc d hd => ?_⟩
    · rw [List.mapM_cons, hb, hrun]
      rfl
    · rcases List.mem_cons.mp hc with rfl | hc
      · rw [hb, Except.ok.injEq] at hd
        exact hd ▸ List.mem_cons_self
      · exact List.mem_cons_of_mem _ (hresults c hc d hd)

/-- The result at an element is one of the results. -/
theorem exists_of_mapM_ok {f : α → Except ε β} {l : List α} {results : List β}
    (h : l.mapM f = .ok results) {a : α} (ha : a ∈ l) : ∃ b, f a = .ok b ∧ b ∈ results := by
  induction l generalizing results with
  | nil => cases ha
  | cons first rest ih =>
    rw [List.mapM_cons] at h
    simp only [bind_eq_ok, pure_eq_ok] at h
    obtain ⟨b, hb, others, hothers, rfl⟩ := h
    rcases List.mem_cons.mp ha with rfl | ha
    · exact ⟨b, hb, List.mem_cons_self⟩
    · obtain ⟨c, hc, hmem⟩ := ih hothers ha
      exact ⟨c, hc, List.mem_cons_of_mem _ hmem⟩

/-- Every result on a list is one at an element. -/
theorem mem_of_mapM_ok {f : α → Except ε β} {l : List α} {results : List β}
    (h : l.mapM f = .ok results) {b : β} (hb : b ∈ results) : ∃ a ∈ l, f a = .ok b := by
  induction l generalizing results with
  | nil =>
    rw [List.mapM_nil, pure_eq_ok] at h
    subst h
    cases hb
  | cons a l ih =>
    rw [List.mapM_cons] at h
    simp only [bind_eq_ok, pure_eq_ok] at h
    obtain ⟨first, hfirst, rest, hrest, rfl⟩ := h
    rcases List.mem_cons.mp hb with rfl | hb
    · exact ⟨a, List.mem_cons_self, hfirst⟩
    · obtain ⟨c, hc, hcb⟩ := ih hrest hb
      exact ⟨c, List.mem_cons_of_mem _ hc, hcb⟩

end Checked
