import Mathlib.RingTheory.AdjoinRoot

/-!
# Remainders of messages

A list of coefficients is a message, its first coefficient being the leading one. A remainder by a
monic polynomial is known from the class modulo that polynomial, which is how shift registers are
followed. A polynomial that `X` does not divide tells messages of the same length apart that differ
in a window no longer than its degree.
-/

namespace SwarmCraft.Crc

open Polynomial

section Messages

variable {R : Type*} [CommRing R]

/-- The polynomial of a list of coefficients, highest first. -/
noncomputable def message : List R → R[X]
  | [] => 0
  | c :: rest => C c * X ^ rest.length + message rest

/-- The first part of a message is shifted by the second. -/
@[simp]
theorem message_append (u v : List R) :
    message (u ++ v) = message u * X ^ v.length + message v := by
  induction u with
  | nil => simp [message]
  | cons c u ih =>
    simp only [List.cons_append, message, List.length_append, ih]
    ring

/-- Zeros make the zero polynomial. -/
theorem message_zeros (n : Nat) : message (List.replicate n (0 : R)) = 0 := by
  induction n with
  | zero => rfl
  | succ n ih => simp [List.replicate_succ, message, ih]

/-- Messages of the same length are added coefficient by coefficient. -/
theorem message_map_add {α : Type*} (f g : α → R) (l : List α) :
    message (l.map fun a => f a + g a) = message (l.map f) + message (l.map g) := by
  induction l with
  | nil => simp [message]
  | cons a l ih =>
    simp only [List.map_cons, message, ih, List.length_map, C_add]
    ring

/-- The degree is below the length. -/
theorem degree_message_lt (l : List R) : (message l).degree < l.length := by
  induction l with
  | nil => simp [message]
  | cons c l ih =>
    refine (degree_add_le _ _).trans_lt (max_lt ?_ (ih.trans ?_))
    · refine (degree_C_mul_X_pow_le _ _).trans_lt ?_
      simp [-Nat.cast_add, Nat.cast_lt]
    · simp [-Nat.cast_add, Nat.cast_lt]

/-- The first coefficient of a message is the leading one. -/
theorem coeff_message_cons (c : R) (l : List R) : (message (c :: l)).coeff l.length = c := by
  simp [message, coeff_eq_zero_of_degree_lt (degree_message_lt l)]

/-- The length and the polynomial determine a message. -/
theorem message_injective {u v : List R} (hlength : u.length = v.length)
    (h : message u = message v) : u = v := by
  induction u generalizing v with
  | nil => exact (List.length_eq_zero_iff.mp hlength.symm).symm
  | cons c u ih =>
    obtain _ | ⟨d, v⟩ := v
    · cases hlength
    have hlength : u.length = v.length := Nat.succ.inj hlength
    have hfirst : c = d := by
      rw [← coeff_message_cons c u, h, hlength, coeff_message_cons]
    rw [message, message, hfirst, hlength, add_right_inj] at h
    rw [hfirst, ih hlength h]

/-- A polynomial of small degree is the remainder of every polynomial of its class. -/
theorem eq_modByMonic {P p q : R[X]} (hP : P.Monic) (hdegree : p.degree < P.degree)
    (h : AdjoinRoot.mk P p = AdjoinRoot.mk P q) : p = q %ₘ P := by
  obtain ⟨r, hr⟩ := AdjoinRoot.mk_eq_mk.mp h.symm
  refine ((div_modByMonic_unique r p hP ⟨?_, hdegree⟩).2).symm
  rw [← hr]
  ring

end Messages

variable {K : Type*} [Field K]

/-- A polynomial with a constant term tells messages apart that differ in a short window, however
far they are shifted. -/
theorem window_eq_of_dvd {P : K[X]} (hconstant : P.coeff 0 ≠ 0) {u v v' w : List K} {k : Nat}
    (hlength : v.length = v'.length) (hshort : v.length ≤ P.natDegree)
    (h : P ∣ (message (u ++ v ++ w) - message (u ++ v' ++ w)) * X ^ k) : v = v' := by
  have hcoprime : IsCoprime P X :=
    ((irreducible_X.coprime_iff_not_dvd).mpr fun hX => hconstant (X_dvd_iff.mp hX)).symm
  have hwindow : (message (u ++ v ++ w) - message (u ++ v' ++ w)) * X ^ k =
      (message v - message v') * X ^ (w.length + k) := by
    simp only [message_append, hlength]
    ring
  have hdvd : P ∣ message v - message v' := hcoprime.pow_right.dvd_of_dvd_mul_right (hwindow ▸ h)
  refine message_injective hlength (sub_eq_zero.mp (eq_zero_of_dvd_of_degree_lt hdvd ?_))
  have hP : P ≠ 0 := fun hzero => hconstant (by simp [hzero])
  rw [degree_eq_natDegree hP]
  refine (degree_sub_le _ _).trans_lt (max_lt ?_ ?_)
  · exact (degree_message_lt v).trans_le (by exact_mod_cast hshort)
  · exact (degree_message_lt v').trans_le (by exact_mod_cast hlength ▸ hshort)

end SwarmCraft.Crc
