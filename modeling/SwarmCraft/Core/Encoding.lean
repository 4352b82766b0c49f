import Mathlib.Logic.Function.Basic

/-!
# Symbolic encodings

Byte strings without a length bound, as terms, and types whose values are determined by
their encoding. A structure is encoded through the tuple of its fields.
-/

namespace Encoding

/-- Symbolic byte strings. -/
inductive Code where
  /-- A number. -/
  | atom (n : Nat)
  /-- A text. -/
  | text (s : String)
  /-- Two byte strings, kept apart. -/
  | pair (a b : Code)
  deriving DecidableEq

/-- A type whose values have different codes. -/
class Encode (α : Type) where
  /-- The code of a value. -/
  code : α → Code
  /-- The code determines the value. -/
  injective : Function.Injective code

open Encode

variable {α β : Type}

/-- A type that is determined by a function into an encoded type is encoded through it. -/
@[reducible] def Encode.through [Encode β] (f : α → β) (hf : Function.Injective f) : Encode α where
  code a := code (f a)
  injective := Encode.injective.comp hf

instance : Encode Nat where
  code n := .atom n
  injective _ _ h := Code.atom.inj h

instance : Encode String where
  code s := .text s
  injective _ _ h := Code.text.inj h

instance : Encode Code where
  code c := c
  injective _ _ h := h

instance : Encode Bool := .through Bool.toNat fun a b h => by cases a <;> cases b <;> simp_all

instance [Encode α] [Encode β] : Encode (α × β) where
  code p := .pair (code p.1) (code p.2)
  injective a b h := by
    obtain ⟨h₁, h₂⟩ := Code.pair.inj h
    exact Prod.ext (Encode.injective h₁) (Encode.injective h₂)

/-- The code of an optional value. -/
def optionCode [Encode α] : Option α → Code
  | none => .atom 0
  | some a => .pair (.atom 0) (code a)

instance [Encode α] : Encode (Option α) where
  code := optionCode
  injective a b h := by
    cases a with
    | none =>
      cases b with
      | none => rfl
      | some b => cases h
    | some a =>
      cases b with
      | none => cases h
      | some b => rw [Encode.injective (Code.pair.inj h).2]

/-- The code of a list. -/
def listCode [Encode α] : List α → Code
  | [] => .atom 0
  | a :: l => .pair (code a) (listCode l)

/-- A list is determined by its code. -/
theorem listCode_injective [Encode α] : Function.Injective (listCode : List α → Code) := by
  intro l
  induction l with
  | nil =>
    intro m h
    cases m with
    | nil => rfl
    | cons b m => cases h
  | cons a l ih =>
    intro m h
    cases m with
    | nil => cases h
    | cons b m =>
      obtain ⟨hhead, htail⟩ := Code.pair.inj h
      rw [Encode.injective hhead, ih htail]

instance [Encode α] : Encode (List α) := ⟨listCode, listCode_injective⟩

/-- A code with a number in front, for the cases of a sum. -/
def tagged [Encode α] (tag : Nat) (a : α) : Code := .pair (.atom tag) (code a)

/-- A tagged code determines its value. -/
theorem tagged_inj [Encode α] {tag : Nat} {a b : α} (h : tagged tag a = tagged tag b) : a = b :=
  Encode.injective (Code.pair.inj h).2

/-- Codes with different tags differ. -/
theorem tagged_ne [Encode α] [Encode β] {tag tag' : Nat} (htag : tag ≠ tag') (a : α) (b : β) :
    tagged tag a ≠ tagged tag' b :=
  fun h => htag (Code.atom.inj (Code.pair.inj h).1)

end Encoding
