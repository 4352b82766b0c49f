import SwarmCraft.Core.Checked

/-!
# Programs of durable steps

A program reads a durable state, changes it step by step and may fail. A crash stops it
between two steps, so the states that it can leave behind are the one it started from and
those that it passed. `Leaves m s t` says that a crash in `m`, run from `s`, may leave `t`, and
`Runs m s x t` that `m` ends with `x` in `t`; the rules below take a program apart along its steps.
A specification with crashes tells both how a program ends and what holds at every step.
-/

namespace Durable

open Checked

variable {ε σ α β : Type}

/-- How a program ends, and the durable states after each of its steps. -/
structure Outcome (ε σ α : Type) where
  /-- What it returns. -/
  result : Except ε α
  /-- The state in which it ends. -/
  final : σ
  /-- The states after its steps, in order. -/
  passed : List σ

/-- A program over durable states. -/
def Program (ε σ α : Type) : Type := σ → Outcome ε σ α

/-- Run the first program, then the second one on its result unless it failed. -/
def Program.bind (m : Program ε σ α) (k : α → Program ε σ β) : Program ε σ β := fun s =>
  match m s with
  | ⟨.ok a, t, passed⟩ => ⟨(k a t).result, (k a t).final, passed ++ (k a t).passed⟩
  | ⟨.error e, t, passed⟩ => ⟨.error e, t, passed⟩

instance : Monad (Program ε σ) where
  pure a := fun s => ⟨.ok a, s, []⟩
  bind := Program.bind

/-- Read the state. -/
def look : Program ε σ σ := fun s => ⟨.ok s, s, []⟩

/-- One durable step. -/
def step (f : σ → σ) : Program ε σ Unit := fun s => ⟨.ok (), f s, [f s]⟩

/-- A computation that does not touch the state. -/
def lift (x : Except ε α) : Program ε σ α := fun s => ⟨x, s, []⟩

/-- A crash of the program may leave the state behind. -/
def Leaves (m : Program ε σ α) (s t : σ) : Prop := t = s ∨ t ∈ (m s).passed

section Run

variable {m : Program ε σ α} {k : α → Program ε σ β} {s t : σ}

@[simp] theorem run_pure (a : α) : (pure a : Program ε σ α) s = ⟨.ok a, s, []⟩ := rfl

@[simp] theorem run_look : (look : Program ε σ σ) s = ⟨.ok s, s, []⟩ := rfl

@[simp] theorem run_step (f : σ → σ) : (step f : Program ε σ Unit) s = ⟨.ok (), f s, [f s]⟩ := rfl

@[simp] theorem run_lift (x : Except ε α) : (lift x : Program ε σ α) s = ⟨x, s, []⟩ := rfl

/-- The rest runs from where the first part returned. -/
theorem run_bind_ok {a : α} {passed : List σ} (h : m s = ⟨.ok a, t, passed⟩) :
    (m >>= k) s = ⟨(k a t).result, (k a t).final, passed ++ (k a t).passed⟩ := by
  change Program.bind m k s = _
  simp only [Program.bind, h]

/-- A first part that fails is the whole run. -/
theorem run_bind_error {e : ε} {passed : List σ} (h : m s = ⟨.error e, t, passed⟩) :
    (m >>= k) s = ⟨.error e, t, passed⟩ := by
  change Program.bind m k s = _
  simp only [Program.bind, h]

@[simp] theorem run_look_bind {k : σ → Program ε σ β} : (look >>= k) s = k s s := rfl

@[simp] theorem run_step_bind {f : σ → σ} {k : Unit → Program ε σ β} :
    (step f >>= k) s = ⟨(k () (f s)).result, (k () (f s)).final, f s :: (k () (f s)).passed⟩ := rfl

/-- A check that passes leaves no trace. -/
theorem run_lift_ok_bind {x : Except ε α} {a : α} (h : x = .ok a) : (lift x >>= k) s = k a s := by
  subst h
  rfl

/-- A check that fails ends the run. -/
theorem run_lift_error_bind {x : Except ε α} {e : ε} (h : x = .error e) :
    (lift x >>= k) s = ⟨.error e, s, []⟩ := by
  subst h
  rfl

end Run

section Ends

variable {m : Program ε σ α} {k : α → Program ε σ β} {s t u : σ} {x : Except ε β}

/-- The program ends with the result in the state. -/
def Runs (m : Program ε σ α) (s : σ) (x : Except ε α) (t : σ) : Prop :=
  (m s).result = x ∧ (m s).final = t

theorem runs_self : Runs m s (m s).result (m s).final := ⟨rfl, rfl⟩

/-- A program ends in one way. -/
theorem Runs.unique {y z : Except ε α} (h : Runs m s y t) (h' : Runs m s z u) : y = z ∧ t = u :=
  ⟨h.1.symm.trans h'.1, h.2.symm.trans h'.2⟩

theorem runs_pure (a : α) : Runs (pure a : Program ε σ α) s (.ok a) s := ⟨rfl, rfl⟩

theorem runs_lift (y : Except ε α) : Runs (lift y : Program ε σ α) s y s := ⟨rfl, rfl⟩

theorem runs_step (f : σ → σ) : Runs (step f : Program ε σ Unit) s (.ok ()) (f s) := ⟨rfl, rfl⟩

@[simp] theorem runs_look_bind {k : σ → Program ε σ β} : Runs (look >>= k) s x t ↔ Runs (k s) s x t :=
  Iff.rfl

@[simp] theorem runs_step_bind {f : σ → σ} {k : Unit → Program ε σ β} :
    Runs (step f >>= k) s x t ↔ Runs (k ()) (f s) x t := Iff.rfl

/-- A sequence goes on where its first part ended. -/
theorem Runs.bind {a : α} (h : Runs m s (.ok a) u) : Runs (m >>= k) s x t ↔ Runs (k a) u x t := by
  obtain ⟨hresult, rfl⟩ := h
  unfold Runs
  have hm : m s = ⟨.ok a, (m s).final, (m s).passed⟩ := by
    rw [← hresult]
  rw [run_bind_ok hm]

/-- A sequence ends where its first part failed. -/
theorem Runs.bind_error {e : ε} (h : Runs m s (.error e) u) : Runs (m >>= k) s (.error e) u := by
  obtain ⟨hresult, rfl⟩ := h
  have hm : m s = ⟨.error e, (m s).final, (m s).passed⟩ := by
    rw [← hresult]
  unfold Runs
  rw [run_bind_error hm]
  exact ⟨rfl, rfl⟩

end Ends

/-! ## Programs that returned -/

section

variable {ε σ α β : Type}

section Inversion

variable {m : Program ε σ α} {k : α → Program ε σ β} {s t : σ} {b : β}

/-- A sequence returns exactly if both parts do. -/
theorem runs_bind_ok_iff :
    Runs (m >>= k) s (.ok b) t ↔ ∃ a u, Runs m s (.ok a) u ∧ Runs (k a) u (.ok b) t := by
  constructor
  · intro h
    cases hresult : (m s).result with
    | error e =>
      have hfirst : Runs m s (.error e) (m s).final := ⟨hresult, rfl⟩
      cases (hfirst.bind_error (k := k)).1.symm.trans h.1
    | ok a =>
      have hfirst : Runs m s (.ok a) (m s).final := ⟨hresult, rfl⟩
      exact ⟨a, _, hfirst, hfirst.bind.mp h⟩
  · rintro ⟨a, u, hfirst, hrest⟩
    exact hfirst.bind.mpr hrest

/-- A value is returned in the state in which it was computed. -/
@[simp] theorem runs_pure_iff {a : α} {x : Except ε α} :
    Runs (pure a : Program ε σ α) s x t ↔ x = .ok a ∧ t = s := by
  constructor
  · rintro ⟨rfl, rfl⟩
    exact ⟨rfl, rfl⟩
  · rintro ⟨rfl, rfl⟩
    exact runs_pure a

/-- A check ends in the state it began in. -/
@[simp] theorem runs_lift_iff {x y : Except ε α} :
    Runs (lift y : Program ε σ α) s x t ↔ x = y ∧ t = s := by
  constructor
  · rintro ⟨rfl, rfl⟩
    exact ⟨rfl, rfl⟩
  · rintro ⟨rfl, rfl⟩
    exact runs_lift _

/-- A step returns nothing and ends in the state that it makes. -/
@[simp] theorem runs_step_iff {f : σ → σ} {x : Except ε Unit} :
    Runs (step f : Program ε σ Unit) s x t ↔ x = .ok () ∧ t = f s := by
  constructor
  · rintro ⟨rfl, rfl⟩
    exact ⟨rfl, rfl⟩
  · rintro ⟨rfl, rfl⟩
    exact runs_step f

/-- After a check the rest runs in the same state. -/
@[simp] theorem runs_lift_bind_ok_iff {x : Except ε α} :
    Runs (lift x >>= k) s (.ok b) t ↔ ∃ a, x = .ok a ∧ Runs (k a) s (.ok b) t := by
  rw [runs_bind_ok_iff]
  simp only [runs_lift_iff]
  constructor
  · rintro ⟨a, _, ⟨hx, rfl⟩, hrest⟩
    exact ⟨a, hx.symm, hrest⟩
  · rintro ⟨a, hx, hrest⟩
    exact ⟨a, s, ⟨hx.symm, rfl⟩, hrest⟩

end Inversion

/-! ## Changes that a program does not see -/

/-- The program does the same before and after the change of the state. -/
def Ignores (g : σ → σ) (m : Program ε σ α) : Prop :=
  ∀ s, m (g s) = ⟨(m s).result, g (m s).final, (m s).passed.map g⟩

section Ignores

variable {g : σ → σ} {m : Program ε σ α} {k : α → Program ε σ β}

theorem ignores_pure (a : α) : Ignores g (pure a : Program ε σ α) := fun _ => rfl

theorem ignores_lift (x : Except ε α) : Ignores g (lift x : Program ε σ α) := fun _ => rfl

/-- A step that commutes with the change. -/
theorem ignores_step {f : σ → σ} (h : ∀ s, f (g s) = g (f s)) :
    Ignores g (step f : Program ε σ Unit) := by
  intro s
  simp [h]

/-- A read in which the change does not show. -/
theorem ignores_look_bind {k : σ → Program ε σ β} (hread : ∀ s, k (g s) = k s)
    (hk : ∀ s, Ignores g (k s)) : Ignores g (look >>= k) := by
  intro s
  rw [run_look_bind, run_look_bind, hread]
  exact hk s s

/-- Two such programs in sequence. -/
theorem Ignores.bind (h : Ignores g m) (hk : ∀ a, Ignores g (k a)) : Ignores g (m >>= k) := by
  intro s
  have hfirst := h s
  cases hm : m s with
  | mk result t passed =>
    rw [hm] at hfirst
    cases result with
    | error e => rw [run_bind_error hfirst, run_bind_error hm]
    | ok a =>
      rw [run_bind_ok hfirst, run_bind_ok hm, hk a t]
      simp

theorem ignores_lift_bind {x : Except ε α} (hk : ∀ a, Ignores g (k a)) : Ignores g (lift x >>= k) :=
  (ignores_lift x).bind hk

theorem ignores_step_bind {f : σ → σ} {k : Unit → Program ε σ β} (h : ∀ s, f (g s) = g (f s))
    (hk : Ignores g (k ())) : Ignores g (step f >>= k) :=
  (ignores_step h).bind fun _ => hk

theorem ignores_onlyIf {p : Prop} [Decidable p] {m : Program ε σ Unit} (h : Ignores g m) :
    Ignores g (onlyIf p m) := by
  unfold onlyIf
  split
  · exact h
  · exact ignores_pure ()

/-- How the program ends after the change. -/
theorem Ignores.runs {s t : σ} {x : Except ε α} (h : Ignores g m) (hrun : Runs m s x t) :
    Runs m (g s) x (g t) := by
  obtain ⟨rfl, rfl⟩ := hrun
  unfold Runs
  rw [h s]
  exact ⟨rfl, rfl⟩

end Ignores

end

/-! ## Specifications with crashes -/

section Meets

variable {I J : σ → Prop} {R : Except ε α → σ → Prop} {Q : Except ε β → σ → Prop}
variable {m : Program ε σ α} {k : α → Program ε σ β} {s t : σ} {a : α}

/-- Every state that the program passes is as `I` says, and it ends as `R` says. -/
def Meets (I : σ → Prop) (R : Except ε α → σ → Prop) (m : Program ε σ α) (s : σ) : Prop :=
  (∀ t ∈ (m s).passed, I t) ∧ R (m s).result (m s).final

/-- The program returns the value in the state. -/
def Gives (I : σ → Prop) (m : Program ε σ α) (s : σ) (a : α) (t : σ) : Prop :=
  Meets I (fun x u => x = .ok a ∧ u = t) m s

/-- A specification can be weakened. -/
theorem Meets.mono {R' : Except ε α → σ → Prop} (h : Meets I R m s) (hI : ∀ t, I t → J t)
    (hR : ∀ x t, R x t → R' x t) : Meets J R' m s :=
  ⟨fun t ht => hI t (h.1 t ht), hR _ _ h.2⟩

theorem Gives.mono (h : Gives I m s a t) (hI : ∀ t, I t → J t) : Gives J m s a t :=
  Meets.mono h hI fun _ _ hx => hx

/-- A value that is as specified. -/
theorem meets_pure (h : R (.ok a) s) : Meets I R (pure a) s := ⟨by simp, h⟩

/-- A check whose result is as specified. -/
theorem meets_lift {x : Except ε α} (h : R x s) : Meets I R (lift x) s := ⟨by simp, h⟩

/-- A step to a state that is as specified. -/
theorem meets_step {f : σ → σ} {R : Except ε Unit → σ → Prop} (h : I (f s)) (hR : R (.ok ()) (f s)) :
    Meets I R (step f) s :=
  ⟨by simpa using h, hR⟩

/-- A sequence goes on from where its first part returned. -/
theorem Gives.bind (h : Gives I m s a t) (hk : Meets I Q (k a) t) : Meets I Q (m >>= k) s := by
  obtain ⟨hpasses, hresult, rfl⟩ := h
  have hm : m s = ⟨.ok a, (m s).final, (m s).passed⟩ := by rw [← hresult]
  unfold Meets
  rw [run_bind_ok hm]
  refine ⟨fun u hu => ?_, hk.2⟩
  rcases List.mem_append.mp hu with hu | hu
  · exact hpasses u hu
  · exact hk.1 u hu

/-- A read before the rest. -/
theorem meets_look_bind {k : σ → Program ε σ β} (h : Meets I Q (k s) s) : Meets I Q (look >>= k) s := h

/-- A check before the rest, which may rely on it. -/
theorem meets_lift_bind {x : Except ε α} (herror : ∀ e, x = .error e → Q (.error e) s)
    (hk : ∀ a, x = .ok a → Meets I Q (k a) s) : Meets I Q (lift x >>= k) s := by
  cases x with
  | error e => exact ⟨by simp [run_lift_error_bind], herror e rfl⟩
  | ok a => exact hk a rfl

/-- A check that is known to pass. -/
theorem meets_lift_ok_bind {x : Except ε α} (h : x = .ok a) (hk : Meets I Q (k a) s) :
    Meets I Q (lift x >>= k) s :=
  Gives.bind (meets_lift ⟨h, rfl⟩) hk

/-- A guard before the rest, which may rely on it. -/
theorem meets_guard_bind {p : Prop} [Decidable p] {e : ε} {k : Unit → Program ε σ β}
    (herror : ¬ p → Q (.error e) s) (hk : p → Meets I Q (k ()) s) :
    Meets I Q (lift (ensure p e) >>= k) s := by
  by_cases hp : p
  · exact meets_lift_ok_bind (ensure_eq_ok.mpr hp) (hk hp)
  · unfold ensure
    rw [if_neg hp]
    exact ⟨by simp [run_lift_error_bind], herror hp⟩

/-- A guard that is known to hold. -/
theorem meets_ensure_bind {p : Prop} [Decidable p] {e : ε} {k : Unit → Program ε σ β} (h : p)
    (hk : Meets I Q (k ()) s) : Meets I Q (lift (ensure p e) >>= k) s :=
  meets_guard_bind (absurd h) fun _ => hk

/-- A step before the rest. -/
theorem meets_step_bind {f : σ → σ} {k : Unit → Program ε σ β} (h : I (f s))
    (hk : Meets I Q (k ()) (f s)) : Meets I Q (step f >>= k) s :=
  Gives.bind (meets_step h ⟨rfl, rfl⟩) hk

/-- Sequences can be regrouped. -/
theorem bind_assoc {γ : Type} (m : Program ε σ α) (k : α → Program ε σ β) (l : β → Program ε σ γ) :
    m >>= k >>= l = m >>= fun a => k a >>= l := by
  funext s
  change Program.bind (Program.bind m k) l s = Program.bind m (fun a => Program.bind (k a) l) s
  unfold Program.bind
  rcases m s with ⟨_ | a, t, passed⟩
  · rfl
  · rcases hk : k a t with ⟨_ | b, u, more⟩ <;> simp [hk]

end Meets

end Durable
