import ContactReplay.Text.Numeral

/-!
# JSON values

A `Json` value keeps all that a reader may have to look at:

* a number is kept as the literal in the text, so `1`, `1.0` and `-0` stay different;
* a text is missing where its literal has an escaped surrogate without its partner, because such a
  literal stands for no sequence of characters;
* the members of an object keep their order, and a key may stand twice.
-/

namespace ContactReplay

/-- A JSON value. -/
inductive Json where
  | null
  | bool (value : Bool)
  | number (literal : String)
  | text (value : Option String)
  | array (items : List Json)
  | object (members : List (Option String × Json))
  deriving Repr, Inhabited

namespace Json

/-! ## Making values -/

def ofString (value : String) : Json := .text (some value)

def ofNat (value : Nat) : Json := .number (toString value)

def ofInt (value : Int) : Json := .number (toString value)

def ofFields (fields : List (String × Json)) : Json :=
  .object (fields.map fun (name, value) => (some name, value))

/-- A value that may be absent; absence is `null`. -/
def ofOption (value : Option Json) : Json := value.getD .null

/-! ## Looking into values -/

def bool? : Json → Option Bool
  | .bool value => some value
  | _ => none

def string? : Json → Option String
  | .text value => value
  | _ => none

def items? : Json → Option (List Json)
  | .array items => some items
  | _ => none

/-- The integer that a number's literal writes without a fraction or an exponent.  Zero has no
negative form. -/
def integer? : Json → Option Int
  | .number literal =>
      match literal.toList with
      | '-' :: digits => do
          let value ← Text.digitsValue? digits
          if value = 0 then none else some (-value)
      | digits => (Text.digitsValue? digits).map Int.ofNat
  | _ => none

def integerIn? (lowest highest : Int) (value : Json) : Option Int := do
  let found ← value.integer?
  if lowest ≤ found ∧ found ≤ highest then some found else none

def naturalUpTo? (highest : Nat) (value : Json) : Option Nat :=
  (value.integerIn? 0 highest).map Int.toNat

/-- The value of the first member with a name; `none` outside objects. -/
def member? (name : String) : Json → Option Json
  | .object members => (members.find? fun member => member.1 = some name).map (·.2)
  | _ => none

end Json

end ContactReplay
