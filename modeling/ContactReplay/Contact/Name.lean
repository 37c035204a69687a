import ContactReplay.Pair
import ContactReplay.Text.Numeral

/-!
# Names of nodes in a contact trace

A trace names a node by a number or by any other text:

* a text that is an unsigned 64-bit numeral is the number, so `5`, `05` and `+5` name one node;
* numbers come before texts, numbers in their own order and texts in the order of their code points;
* in a graph stream a number `5` is written `n5` and a text stands for itself.
-/

namespace ContactReplay

/-- The name of a node in a contact trace. -/
inductive NodeName where
  | number (value : UInt64)
  | text (value : String)
  deriving DecidableEq, Repr

namespace NodeName

def ofText (raw : String) : NodeName :=
  match Text.numeral? raw.toList with
  | some value => .number value
  | none => .text raw

def label : NodeName → String
  | .number value => s!"n{value}"
  | .text value => value

instance : ToString NodeName := ⟨label⟩

/-- Numbers first, each kind in its own order. -/
def order : NodeName → NodeName → Ordering
  | .number left, .number right => compare left right
  | .number _, .text _ => .lt
  | .text _, .number _ => .gt
  | .text left, .text right => compare left right

instance : Ord NodeName := ⟨order⟩

instance : Std.TransOrd NodeName where
  eq_swap {left right} := by
    cases left <;> cases right
    · exact Std.OrientedOrd.eq_swap (α := UInt64)
    · rfl
    · rfl
    · exact Std.OrientedOrd.eq_swap (α := String)
  isLE_trans {left middle right} leftMiddle middleRight := by
    cases left <;> cases middle <;> cases right
    · exact @Std.TransCmp.isLE_trans UInt64 compare _ _ _ _ leftMiddle middleRight
    · rfl
    · cases middleRight
    · rfl
    · cases leftMiddle
    · cases leftMiddle
    · cases middleRight
    · exact @Std.TransCmp.isLE_trans String compare _ _ _ _ leftMiddle middleRight

instance : Std.LawfulEqOrd NodeName where
  compare_self {name} := by
    cases name
    · exact @Std.ReflCmp.compare_self UInt64 compare _ _
    · exact @Std.ReflCmp.compare_self String compare _ _
  eq_of_compare {left right} same := by
    cases left <;> cases right
    · exact congrArg NodeName.number (Std.LawfulEqOrd.eq_of_compare (α := UInt64) same)
    · exact nomatch same
    · exact nomatch same
    · exact congrArg NodeName.text (Std.LawfulEqOrd.eq_of_compare (α := String) same)

end NodeName

end ContactReplay
