import Mathlib.Data.List.AList

/-!
# Lookup tables

A table maps keys to values; each key occurs once. Lookups after an insertion or a removal are
stated for every key at once, so that a proof splits on the key only where it has to.
-/

/-- A finite map. -/
abbrev Table (κ ν : Type) : Type := AList fun _ : κ => ν

namespace Table

variable {κ ν : Type} [DecidableEq κ] {table : Table κ ν} {key other : κ} {value : ν}

/-- What a table holds after an insertion. -/
@[simp] theorem lookup_insert : AList.lookup other (AList.insert key value table) =
    if other = key then some value else AList.lookup other table := by
  by_cases h : other = key
  · rw [if_pos h, h, AList.lookup_insert]
  · rw [if_neg h, AList.lookup_insert_ne h]

/-- What a table holds after a removal. -/
@[simp] theorem lookup_erase : AList.lookup other (AList.erase key table) =
    if other = key then none else AList.lookup other table := by
  by_cases h : other = key
  · rw [if_pos h, h, AList.lookup_erase]
  · rw [if_neg h, AList.lookup_erase_ne h]

/-- Remove the key if its value passes the test. -/
def eraseIf (key : κ) (test : ν → Bool) (table : Table κ ν) : Table κ ν :=
  if (AList.lookup key table).any test then AList.erase key table else table

/-- What a table holds after a removal under a test. -/
@[simp] theorem lookup_eraseIf {test : ν → Bool} : AList.lookup other (eraseIf key test table) =
    if other = key then (AList.lookup key table).filter (fun value => !test value)
    else AList.lookup other table := by
  unfold eraseIf
  by_cases h : other = key
  · subst h
    cases hvalue : AList.lookup other table with
    | none => simp [hvalue]
    | some value => by_cases htest : test value = true <;> simp [hvalue, htest, Option.filter]
  · split <;> simp [h]

end Table
