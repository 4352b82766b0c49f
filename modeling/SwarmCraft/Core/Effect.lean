import SwarmCraft.Core.Checked

/-!
# Actions that may fail half way

An action reads and changes a state and may fail; what it did before it failed stays
done. `Along R m s` says that running `m` from `s`, to its end or to its failure,
moves the state along `R`; `Returns m s Q` says that `Q` holds of the result and the
state if it gets to its end. The rules below establish them for a whole action from
its parts, one rule for each way an action is put together.
-/

namespace Effect

open Checked

variable {ε σ α β : Type}

/-- A state change with a result or a failure. -/
def Action (ε σ α : Type) : Type := σ → Except ε α × σ

/-- Run the first action, then the second one on its result unless it failed. -/
def Action.bind (m : Action ε σ α) (k : α → Action ε σ β) : Action ε σ β := fun s =>
  match m s with
  | (.ok a, t) => k a t
  | (.error e, t) => (.error e, t)

instance : Monad (Action ε σ) where
  pure a := fun s => (.ok a, s)
  bind := Action.bind

/-- Change the state. -/
def modifyState (f : σ → σ) : Action ε σ Unit := fun s => (.ok (), f s)

/-- A computation that does not touch the state. -/
def lift (x : Except ε α) : Action ε σ α := fun s => (x, s)

/-- The state after the action, whether it failed or not. -/
def Action.after (m : Action ε σ α) (s : σ) : σ := (m s).2

/-- Running the action moves the state along `R`. -/
def Along (R : σ → σ → Prop) (m : Action ε σ α) (s : σ) : Prop := R s (m.after s)

section Rules

variable {R : σ → σ → Prop} {s : σ}

/-- A state change moves the state along `R` when the change itself does. -/
theorem along_modifyState {f : σ → σ} (h : R s (f s)) :
    Along R (modifyState f : Action ε σ Unit) s := h

variable [hrefl : Std.Refl R]

/-- Returning a value does not move the state. -/
theorem along_pure (a : α) : Along R (pure a : Action ε σ α) s := hrefl.refl s

/-- A check does not move the state. -/
theorem along_lift (x : Except ε α) : Along R (lift x : Action ε σ α) s := hrefl.refl s

/-- A check before an action: the action may rely on what the check returned. -/
theorem along_lift_bind {x : Except ε α} {k : α → Action ε σ β}
    (h : ∀ a, x = .ok a → Along R (k a) s) : Along R (lift x >>= k) s := by
  cases x with
  | error e => exact hrefl.refl s
  | ok a => exact h a rfl

/-- An action under a condition may rely on it. -/
theorem along_onlyIf {p : Prop} [Decidable p] {m : Action ε σ Unit} (h : p → Along R m s) :
    Along R (onlyIf p m) s := by
  unfold onlyIf
  split
  · rename_i hp
    exact h hp
  · exact along_pure ()

/-- An action on a value that may be missing. -/
theorem along_onSome {o : Option α} {f : α → Action ε σ Unit}
    (h : ∀ a, o = some a → Along R (f a) s) : Along R (onSome o f) s := by
  cases o with
  | none => exact along_pure ()
  | some a => exact h a rfl

variable [htrans : IsTrans σ R]

omit hrefl in
/-- Two actions, the second from where the first returned. -/
theorem along_bind {m : Action ε σ α} {k : α → Action ε σ β} (hm : Along R m s)
    (hk : ∀ a t, m s = (.ok a, t) → Along R (k a) t) : Along R (m >>= k) s := by
  unfold Along Action.after at *
  change R s (Action.bind m k s).2
  unfold Action.bind
  cases hrun : m s with
  | mk result t =>
    rw [hrun] at hm
    cases result with
    | error e => exact hm
    | ok a => exact htrans.trans _ _ _ hm (hk a t hrun)

omit hrefl in
theorem along_modifyState_bind {f : σ → σ} {k : Unit → Action ε σ β} (hf : R s (f s))
    (hk : Along R (k ()) (f s)) : Along R (modifyState f >>= k) s :=
  htrans.trans _ _ _ hf hk

/-- An action for each element of a list. -/
theorem along_forM {f : α → Action ε σ Unit} {l : List α} (h : ∀ a ∈ l, ∀ t, Along R (f a) t)
    (s : σ) : Along R (l.forM f) s := by
  induction l generalizing s with
  | nil => exact along_pure ()
  | cons a l ih =>
    refine along_bind (h a List.mem_cons_self s) fun _ t _ => ?_
    exact ih (fun b hb => h b (List.mem_cons_of_mem _ hb)) t

end Rules

/-! ## Results -/

section Results

variable {m : Action ε σ α} {k : α → Action ε σ β} {s : σ}

/-- If the action returns, its result and the state after it satisfy `Q`. -/
def Returns (m : Action ε σ α) (s : σ) (Q : α → σ → Prop) : Prop :=
  ∀ a t, m s = (.ok a, t) → Q a t

theorem returns_pure {Q : α → σ → Prop} {a : α} (h : Q a s) :
    Returns (pure a : Action ε σ α) s Q := by
  intro b t hrun
  cases hrun
  exact h

theorem returns_modifyState {Q : Unit → σ → Prop} {f : σ → σ} (h : Q () (f s)) :
    Returns (modifyState f : Action ε σ Unit) s Q := by
  intro b t hrun
  cases hrun
  exact h

theorem returns_lift {Q : α → σ → Prop} {x : Except ε α} (h : ∀ a, x = .ok a → Q a s) :
    Returns (lift x : Action ε σ α) s Q := by
  intro b t hrun
  cases hrun
  exact h b rfl

/-- Two actions in sequence: the second one relies on what the first one returned. -/
theorem returns_bind {Q : β → σ → Prop} (h : Returns m s fun a t => Returns (k a) t Q) :
    Returns (m >>= k) s Q := by
  intro b u hrun
  change Action.bind m k s = (.ok b, u) at hrun
  unfold Action.bind at hrun
  cases hm : m s with
  | mk result t =>
    rw [hm] at hrun
    cases result with
    | error e => cases hrun
    | ok a => exact h a t hm b u hrun

end Results

/-! ## Runs to the end -/

section Runs

variable {m : Action ε σ α} {k : α → Action ε σ β} {s t u : σ}

/-- A sequence runs to its end exactly when both of its parts do. -/
theorem run_bind {b : β} :
    (m >>= k) s = (.ok b, u) ↔ ∃ a t, m s = (.ok a, t) ∧ k a t = (.ok b, u) := by
  change Action.bind m k s = _ ↔ _
  unfold Action.bind
  cases hm : m s with
  | mk result t =>
    cases result with
    | error e => simp
    | ok a => simp

/-- A sequence whose first part runs to its end goes on from there. -/
theorem bind_of_run {a : α} (h : m s = (.ok a, t)) : (m >>= k) s = k a t := by
  change Action.bind m k s = _
  simp only [Action.bind, h]

/-- A value is returned where it was computed. -/
@[simp] theorem run_pure {a b : α} : (pure a : Action ε σ α) s = (.ok b, t) ↔ a = b ∧ s = t := by
  change (Except.ok a, s) = _ ↔ _
  simp

@[simp] theorem run_lift {x : Except ε α} {a : α} : lift x s = (.ok a, t) ↔ x = .ok a ∧ s = t := by
  simp [lift]

@[simp] theorem run_modifyState {f : σ → σ} {v : Unit} :
    (modifyState f : Action ε σ Unit) s = (.ok v, t) ↔ f s = t := by
  simp [modifyState]

end Runs

/-! ## Actions that move along `R` from every state -/

section Always

variable {R : σ → σ → Prop} {m : Action ε σ α} {k : α → Action ε σ β}

/-- From every state the action moves the state along `R`. -/
def Always (R : σ → σ → Prop) (m : Action ε σ α) : Prop := ∀ s, Along R m s

theorem Always.along {s : σ} (h : Always R m) : Along R m s := h s

/-- Where the state ends up when the action returns. -/
theorem Always.of_run {s t : σ} {a : α} (h : Always R m) (hrun : m s = (.ok a, t)) : R s t := by
  have hmove := h s
  unfold Along Action.after at hmove
  rwa [hrun] at hmove

variable [Std.Refl R]

theorem Always.pure (a : α) : Always R (Pure.pure a : Action ε σ α) := fun _ => along_pure a

theorem Always.lift (x : Except ε α) : Always R (lift x : Action ε σ α) := fun _ => along_lift x

/-- A check before an action that may rely on it. -/
theorem Always.lift_bind {x : Except ε α} (h : ∀ a, x = .ok a → Always R (k a)) :
    Always R (Effect.lift x >>= k) :=
  fun s => along_lift_bind fun a ha => h a ha s

theorem Always.onlyIf {p : Prop} [Decidable p] {m : Action ε σ Unit} (h : p → Always R m) :
    Always R (onlyIf p m) :=
  fun s => along_onlyIf fun hp => h hp s

theorem Always.onSome {o : Option α} {f : α → Action ε σ Unit}
    (h : ∀ a, o = some a → Always R (f a)) : Always R (onSome o f) :=
  fun s => along_onSome fun a ha => h a ha s

variable [IsTrans σ R]

omit [Std.Refl R] in
/-- Two actions that move along `R`. -/
theorem Always.bind (hm : Always R m) (hk : ∀ a, Always R (k a)) : Always R (m >>= k) :=
  fun s => along_bind (hm s) fun a t _ => hk a t

/-- An action for each element of a list. -/
theorem Always.forM {f : α → Action ε σ Unit} {l : List α} (h : ∀ a, Always R (f a)) :
    Always R (l.forM f) :=
  fun s => along_forM (fun a _ => h a) s

end Always

/-! ## Properties that stay true -/

/-- The property stays true. -/
def Kept (I : σ → Prop) (s t : σ) : Prop := I s → I t

instance {I : σ → Prop} : Std.Refl (Kept I) where
  refl _ h := h

instance {I : σ → Prop} : IsTrans σ (Kept I) where
  trans _ _ _ h₁ h₂ h := h₂ (h₁ h)

/-! ## Actions that never fail -/

section Completes

variable {R : σ → σ → Prop} {m : Action ε σ α} {k : α → Action ε σ β}

/-- From every state the action returns, and moves the state along `R`. -/
def Completes (R : σ → σ → Prop) (m : Action ε σ α) : Prop :=
  ∀ s, ∃ a t, m s = (.ok a, t) ∧ R s t

theorem Completes.modifyState {f : σ → σ} (h : ∀ s, R s (f s)) :
    Completes R (modifyState f : Action ε σ Unit) := fun s => ⟨(), f s, rfl, h s⟩

variable [hrefl : Std.Refl R]

theorem Completes.pure (a : α) : Completes R (Pure.pure a : Action ε σ α) :=
  fun s => ⟨a, s, rfl, hrefl.refl s⟩

theorem Completes.onlyIf {p : Prop} [Decidable p] {m : Action ε σ Unit}
    (h : p → Completes R m) : Completes R (onlyIf p m) := by
  unfold Checked.onlyIf
  split
  · rename_i hp
    exact h hp
  · exact .pure ()

theorem Completes.onSome {o : Option α} {f : α → Action ε σ Unit}
    (h : ∀ a, o = some a → Completes R (f a)) : Completes R (onSome o f) := by
  cases o with
  | none => exact .pure ()
  | some a => exact h a rfl

variable [htrans : IsTrans σ R]

omit hrefl in
/-- Two actions that never fail. -/
theorem Completes.bind (hm : Completes R m) (hk : ∀ a, Completes R (k a)) :
    Completes R (m >>= k) := by
  intro s
  obtain ⟨a, t, hrun, hfirst⟩ := hm s
  obtain ⟨b, u, hrest, hsecond⟩ := hk a t
  exact ⟨b, u, run_bind.mpr ⟨a, t, hrun, hrest⟩, htrans.trans _ _ _ hfirst hsecond⟩

/-- An action for each element of a list. -/
theorem Completes.forM {f : α → Action ε σ Unit} {l : List α} (h : ∀ a, Completes R (f a)) :
    Completes R (l.forM f) := by
  induction l with
  | nil => exact .pure ()
  | cons a l ih => exact .bind (h a) fun _ => ih

end Completes

/-! ## Actions that do nothing otherwise -/

/-- The state is the same unless the condition holds. -/
def Idle (p : Prop) (s t : σ) : Prop := t = s ∨ p

instance {p : Prop} : Std.Refl (Idle p : σ → σ → Prop) where
  refl _ := .inl rfl

end Effect

/-! ## Footprints -/

namespace Footprint

variable {ι σ : Type} {Content : ι → Type} (content : σ → (i : ι) → Content i)

/-- The states agree on every cell that is not listed. -/
def Apart (cells : List ι) (a b : σ) : Prop := ∀ i, i ∉ cells → content b i = content a i

/-- The property depends on the listed cells only. -/
def Reads (cells : List ι) (I : σ → Prop) : Prop :=
  ∀ a b, (∀ i ∈ cells, content b i = content a i) → I a → I b

section Facts

variable {content} {cells cells' : List ι} {a b c : σ}

theorem Apart.refl (cells : List ι) (a : σ) : Apart content cells a a := fun _ _ => rfl

/-- Two changes of the listed cells. -/
theorem Apart.trans (hab : Apart content cells a b) (hbc : Apart content cells b c) :
    Apart content cells a c :=
  fun i hi => (hbc i hi).trans (hab i hi)

/-- More cells may be listed. -/
theorem Apart.mono (h : Apart content cells a b) (hcells : cells ⊆ cells') :
    Apart content cells' a b :=
  fun i hi => h i fun hmem => hi (hcells hmem)

/-- A property of other cells is kept. -/
theorem Reads.keeps {read : List ι} {I : σ → Prop} (hI : Reads content read I)
    (h : Apart content cells a b) (hapart : ∀ i ∈ read, i ∉ cells) (ha : I a) : I b :=
  hI a b (fun i hi => h i (hapart i hi)) ha

end Facts

end Footprint
