import Mathlib.Algebra.Field.ZMod
import SwarmCraft.Core.Crc

/-!
# The checksum of ZIP entries

The extracted bytes of an entry are compared with its CRC-32. The register holds a polynomial over
the field of two elements with its lowest bit as the leading coefficient, and so does a byte. A
shift of the register multiplies by `X` modulo the polynomial of the CRC, from which the checksum of
every byte string is a remainder.
-/

namespace SwarmCraft.Checksum

open Polynomial Crc

/-- The inner loop of `crc32`. -/
def crcShift (crc : UInt32) : UInt32 :=
  let mask := 0 - (crc &&& 1)
  (crc >>> 1) ^^^ (0xedb88320 &&& mask)

/-- The outer loop of `crc32`: a byte enters the register, which is shifted eight times. -/
def crcByte (crc : UInt32) (byte : UInt8) : UInt32 :=
  crcShift^[8] (crc ^^^ byte.toUInt32)

/-- `crc32`. -/
def crc32 (bytes : List UInt8) : UInt32 := ~~~(bytes.foldl crcByte 0xffffffff)

/-- The bits of a word, lowest first. -/
def bits {w : Nat} (word : BitVec w) : List (ZMod 2) :=
  (List.range w).map fun i => if word.getLsbD i then 1 else 0

/-- The bits of a byte string, in the order in which they enter the register. -/
def messageBits (bytes : List UInt8) : List (ZMod 2) := bytes.flatMap fun byte => bits byte.toBitVec

/-- The polynomial that a register holds. -/
noncomputable def register (crc : UInt32) : (ZMod 2)[X] := message (bits crc.toBitVec)

/-- The polynomial of the CRC; the constant holds it without its leading term. -/
noncomputable def crcPolynomial : (ZMod 2)[X] := X ^ 32 + register 0xedb88320

/-- The checksum by polynomial arithmetic: the remainder of the bits, shifted by the width of the
register and with its initial ones in front, plus the final ones. -/
noncomputable def remainder (bytes : List UInt8) : (ZMod 2)[X] :=
  (register 0xffffffff * X ^ (messageBits bytes).length + message (messageBits bytes) * X ^ 32) %ₘ
    crcPolynomial + register 0xffffffff

/-! ## Words as polynomials -/

/-- A word has as many bits as its width. -/
theorem length_bits {w : Nat} (word : BitVec w) : (bits word).length = w := by simp [bits]

/-- A word is determined by its bits. -/
theorem bits_injective {w : Nat} {a b : BitVec w} (h : bits a = bits b) : a = b := by
  refine BitVec.eq_of_getLsbD_eq fun i hi => ?_
  have := List.map_inj_left.mp h i (List.mem_range.mpr hi)
  split at this <;> split at this <;> simp_all

/-- Exclusive or adds the polynomials. -/
theorem message_bits_xor {w : Nat} (a b : BitVec w) :
    message (bits (a ^^^ b)) = message (bits a) + message (bits b) := by
  rw [bits, bits, bits, ← message_map_add]
  congr 1
  refine List.map_congr_left fun i _ => ?_
  rw [BitVec.getLsbD_xor]
  cases a.getLsbD i <;> cases b.getLsbD i <;> decide

theorem register_injective {a b : UInt32} (h : register a = register b) : a = b := by
  have hbits := message_injective (by simp only [length_bits]) h
  exact UInt32.toBitVec_inj.mp (bits_injective hbits)

theorem register_xor (a b : UInt32) : register (a ^^^ b) = register a + register b := by
  simp only [register, UInt32.toBitVec_xor, message_bits_xor]

/-- A register has degree below 32. -/
theorem degree_register (crc : UInt32) : (register crc).degree < (32 : Nat) := by
  simpa only [register, length_bits] using degree_message_lt (bits crc.toBitVec)

/-- A byte in a register stands for its leading coefficients. -/
theorem register_byte (byte : UInt8) :
    register byte.toUInt32 = message (bits byte.toBitVec) * X ^ 24 := by
  have hbits : bits byte.toUInt32.toBitVec = bits byte.toBitVec ++ List.replicate 24 0 := by
    have hrange : List.range 32 = List.range 8 ++ (List.range 24).map (8 + ·) := by decide
    rw [bits, UInt8.toBitVec_toUInt32, hrange, List.map_append, List.map_map]
    congr 1
    refine List.eq_replicate_iff.mpr ⟨by simp, fun c hc => ?_⟩
    obtain ⟨i, -, rfl⟩ := List.mem_map.mp hc
    simp
  rw [register, hbits, message_append, message_zeros, List.length_replicate, add_zero]

/-! ## The loops -/

theorem monic_crcPolynomial : crcPolynomial.Monic := monic_X_pow_add (degree_register _)

theorem degree_crcPolynomial : crcPolynomial.degree = (32 : Nat) := by
  rw [crcPolynomial, degree_add_eq_left_of_degree_lt, degree_X_pow]
  rw [degree_X_pow]
  exact degree_register _

/-- The lowest bit of the register leaves it as the term of degree 32. -/
theorem register_shift (crc : UInt32) :
    register crc * X = (if crc.toBitVec.getLsbD 0 then X ^ 32 else 0) + register (crc >>> 1) := by
  have hbits : bits crc.toBitVec = (if crc.toBitVec.getLsbD 0 then 1 else 0) ::
      (List.range 31).map fun i => if crc.toBitVec.getLsbD (i + 1) then 1 else 0 := by
    simp [bits, List.range_succ_eq_map]
  have hshifted : bits (crc >>> 1).toBitVec =
      ((List.range 31).map fun i => if crc.toBitVec.getLsbD (i + 1) then 1 else 0) ++ [0] := by
    simp [bits, List.range_succ]
  rw [register, register, hbits, hshifted, message, message_append, List.length_map]
  split
  · simp only [C_1, message, List.length_range, List.length_singleton]
    simp
    ring
  · simp [message]

theorem crc_and_one (crc : UInt32) : crc &&& 1 = if crc.toBitVec.getLsbD 0 then 1 else 0 := by
  apply UInt32.toBitVec_inj.mp
  have hone : crc.toBitVec &&& 1#32 = _ := BitVec.and_one_eq_setWidth_ofBool_getLsbD
  rw [UInt32.toBitVec_and, UInt32.toBitVec_one, hone]
  cases crc.toBitVec.getLsbD 0 <;> rfl

theorem constant_crcPolynomial : crcPolynomial.coeff 0 ≠ 0 := by
  have hbits : bits (0xedb88320 : UInt32).toBitVec = bits 0x6db88320#31 ++ [1] := by decide
  rw [crcPolynomial, register, hbits]
  simp [message]

/-- Messages of one length are determined by their bits. -/
theorem messageBits_injective {a b : List UInt8} (hlength : a.length = b.length)
    (h : messageBits a = messageBits b) : a = b := by
  induction a generalizing b with
  | nil => exact (List.length_eq_zero_iff.mp hlength.symm).symm
  | cons x a ih =>
    obtain _ | ⟨y, b⟩ := b
    · cases hlength
    obtain ⟨hfirst, hrest⟩ := List.append_inj h (by simp only [length_bits])
    rw [UInt8.toBitVec_inj.mp (bits_injective hfirst), ih (Nat.succ.inj hlength) hrest]

/-- A shift multiplies by `X`. -/
theorem mk_crcShift (crc : UInt32) :
    AdjoinRoot.mk crcPolynomial (register (crcShift crc)) =
      AdjoinRoot.mk crcPolynomial (register crc * X) := by
  rw [register_shift, crcShift, crc_and_one, register_xor, AdjoinRoot.mk_eq_mk]
  cases crc.toBitVec.getLsbD 0 with
  | false =>
    have hnone : register 0 = 0 := message_zeros 32
    simp [hnone]
  | true =>
    have hall : (0xedb88320 : UInt32) &&& (0 - 1) = 0xedb88320 := by decide
    refine ⟨1, ?_⟩
    simp only [if_true, hall, crcPolynomial, mul_one]
    linear_combination -X ^ 32 * (CharTwo.two_eq_zero : (2 : (ZMod 2)[X]) = 0)

/-- A byte is added at the top and shifted eight times. -/
theorem mk_crcByte (crc : UInt32) (byte : UInt8) :
    AdjoinRoot.mk crcPolynomial (register (crcByte crc byte)) = AdjoinRoot.mk crcPolynomial
        (register crc * X ^ 8 + message (bits byte.toBitVec) * X ^ 32) := by
  have hshifts (n : Nat) (crc : UInt32) :
      AdjoinRoot.mk crcPolynomial (register (crcShift^[n] crc)) =
        AdjoinRoot.mk crcPolynomial (register crc * X ^ n) := by
    induction n generalizing crc with
    | zero => simp
    | succ n ih =>
      rw [Function.iterate_succ_apply, ih, map_mul, mk_crcShift, ← map_mul]
      ring_nf
  rw [crcByte, hshifts, register_xor, register_byte]
  ring_nf

/-- The loop over all bytes, modulo the polynomial. -/
theorem mk_foldl_crcByte (bytes : List UInt8) (crc : UInt32) :
    AdjoinRoot.mk crcPolynomial (register (bytes.foldl crcByte crc)) =
      AdjoinRoot.mk crcPolynomial (register crc * X ^ (messageBits bytes).length +
        message (messageBits bytes) * X ^ 32) := by
  induction bytes generalizing crc with
  | nil => simp [messageBits, message]
  | cons byte bytes ih =>
    rw [List.foldl_cons, ih, map_add, map_mul, mk_crcByte, ← map_mul, ← map_add]
    simp only [messageBits, List.flatMap_cons, List.length_append, length_bits, message_append]
    ring_nf

/-- The checksum is the word that holds the remainder. -/
theorem register_crc32 (bytes : List UInt8) : register (crc32 bytes) = remainder bytes := by
  have hcomplement (crc : UInt32) : ~~~crc = crc ^^^ 0xffffffff := by
    apply UInt32.toBitVec_inj.mp
    rw [UInt32.toBitVec_not, UInt32.toBitVec_xor]
    exact BitVec.xor_allOnes.symm
  rw [crc32, hcomplement, register_xor, remainder]
  congr 1
  refine eq_modByMonic monic_crcPolynomial ?_ (mk_foldl_crcByte bytes _)
  rw [degree_crcPolynomial]
  exact degree_register _

/-- The checksum of a byte string is the remainder of polynomial division by the polynomial of the
CRC. Two byte strings of the same length that differ only in a window of at most 32 bits have
different checksums. -/
theorem crc32_remainder_and_bursts :
    (∀ bytes word, crc32 bytes = word ↔ register word = remainder bytes) ∧
      ∀ a b : List UInt8, a.length = b.length → a ≠ b → ∀ u v v' w : List (ZMod 2),
        messageBits a = u ++ v ++ w → messageBits b = u ++ v' ++ w → v.length = v'.length →
        v.length ≤ 32 → crc32 a ≠ crc32 b := by
  constructor
  · intro bytes word
    rw [← register_crc32]
    exact ⟨fun h => h ▸ rfl, fun h => register_injective h.symm⟩
  · intro a b hlength hne u v v' w ha hb hwindow hshort heq
    have hbits : (messageBits a).length = (messageBits b).length := by
      rw [ha, hb]
      simp [hwindow]
    have hmk := mk_foldl_crcByte a 0xffffffff
    rw [UInt32.not_inj.mp heq, mk_foldl_crcByte, AdjoinRoot.mk_eq_mk, hbits, ha, hb] at hmk
    have hsame : v' = v := by
      refine window_eq_of_dvd constant_crcPolynomial hwindow.symm ?_ (u := u) (w := w) (k := 32) ?_
      · rw [← hwindow, natDegree_eq_of_degree_eq_some degree_crcPolynomial]
        exact hshort
      · convert hmk using 1
        ring
    exact hne (messageBits_injective hlength (by rw [ha, hb, hsame]))

end SwarmCraft.Checksum
