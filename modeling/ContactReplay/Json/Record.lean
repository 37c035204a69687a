import ContactReplay.Json.Value
import ContactReplay.Table

/-!
# Records in JSON

A record is a value with named fields.  In JSON it stands in one of two forms:

* an object, whose members with other names are ignored and whose fields stand once at most;
* an array of the fields in the order of their declaration, of which the last ones may be missing.

`Json.record?` brings both into one form, a table of the fields that are there.  The readers of
words and texts refuse whatever is not exactly of their kind.
-/

namespace ContactReplay

namespace Json

abbrev Fields := Table String Json

/-- Whether no name stands twice among the names of fields. -/
def namedOnce (names : List String) (keys : List String) : Bool :=
  names.all fun name => keys.count name ≤ 1

/-- The fields of a record whose fields have the given names in the given order. -/
def record? (names : List String) : Json → Option Fields
  | .array items =>
      if items.length ≤ names.length then some (.ofList (names.zip items)) else none
  | .object members => do
      let fields ← members.mapM fun (key, value) => key.map fun name => (name, value)
      if namedOnce names (fields.map (·.1)) then
        some (.ofList (fields.filter fun field => names.contains field.1))
      else none
  | _ => none

def Fields.read {α : Type} (fields : Fields) (name : String) (reader : Json → Option α)
    (default : α) : Option α :=
  match fields.get? name with
  | some value => reader value
  | none => some default

def Fields.demand {α : Type} (fields : Fields) (name : String) (reader : Json → Option α) :
    Option α :=
  (fields.get? name).bind reader

/-! ## Readers -/

/-- An 8-bit word. -/
def word8? (value : Json) : Option UInt8 := (value.naturalUpTo? (UInt8.size - 1)).map UInt8.ofNat

/-- A 32-bit word. -/
def word32? (value : Json) : Option UInt32 :=
  (value.naturalUpTo? (UInt32.size - 1)).map UInt32.ofNat

/-- A 64-bit word. -/
def word64? (value : Json) : Option UInt64 :=
  (value.naturalUpTo? (UInt64.size - 1)).map UInt64.ofNat

/-- A signed 32-bit integer. -/
def int32? (value : Json) : Option Int32 :=
  (value.integerIn? Int32.minValue.toInt Int32.maxValue.toInt).map Int32.ofInt

/-- A value that `null` stands in for when it is absent. -/
def nullable {α : Type} (reader : Json → Option α) : Json → Option (Option α)
  | .null => some none
  | value => (reader value).map some

end Json

end ContactReplay
