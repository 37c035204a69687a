/-!
# Unsigned numerals

A numeral is a run of ASCII digits, leading zeros allowed, with at most one `+` in front.  It is
read into a 64-bit word and refused when its value does not fit.  The law at the end says that the
usual decimal text of a word reads back as that word.
-/

namespace ContactReplay.Text

/-- The value of a run of decimal digits, `none` for an empty run or another character. -/
def digitsValue? (digits : List Char) : Option Nat :=
  if digits ≠ [] ∧ digits.all Char.isDigit then some (Nat.ofDigitChars 10 digits 0) else none

/-- Take one leading `+` away. -/
def dropPlus : List Char → List Char
  | '+' :: rest => rest
  | text => text

def natural? (text : List Char) : Option Nat := digitsValue? (dropPlus text)

/-- The value of a numeral if it is at most 2^64 - 1. -/
def numeral? (text : List Char) : Option UInt64 := do
  let value ← natural? text
  if value < UInt64.size then some (UInt64.ofNat value) else none

/-! ## Laws -/

theorem digitsValue?_toDigits (value : Nat) :
    digitsValue? (Nat.toDigits 10 value) = some value := by
  have digits : (Nat.toDigits 10 value).all Char.isDigit = true :=
    List.all_eq_true.mpr fun _ member =>
      Nat.isDigit_of_mem_toDigits (by decide) (by decide) member
  simp [digitsValue?, Nat.toDigits_ne_nil, digits, Nat.ofDigitChars_ten_toDigits]

theorem dropPlus_of_head_isDigit {first : Char} {rest : List Char}
    (digit : first.isDigit = true) : dropPlus (first :: rest) = first :: rest := by
  unfold dropPlus
  split
  · rename_i shape
    simp only [List.cons.injEq] at shape
    rw [shape.1] at digit
    exact absurd digit (by decide)
  · rfl

theorem dropPlus_toDigits (value : Nat) :
    dropPlus (Nat.toDigits 10 value) = Nat.toDigits 10 value := by
  cases shape : Nat.toDigits 10 value with
  | nil => exact absurd shape Nat.toDigits_ne_nil
  | cons first rest =>
      refine dropPlus_of_head_isDigit
        (Nat.isDigit_of_mem_toDigits (n := value) (b := 10) (by decide) (by decide) ?_)
      rw [shape]
      exact List.mem_cons_self

theorem numeral?_repr (value : UInt64) : numeral? (toString value.toNat).toList = some value := by
  have text : (toString value.toNat).toList = Nat.toDigits 10 value.toNat := Nat.toList_repr
  simp only [numeral?, natural?, text, dropPlus_toDigits, digitsValue?_toDigits]
  simp [UInt64.toNat_lt_size]

end ContactReplay.Text
