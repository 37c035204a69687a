import ContactReplay.Json.Token

/-!
# Reading JSON texts

`Json.read?` reads a text that is one JSON value with nothing else around it but blanks.  The tokens
are taken one after the other by `Reader.step`; what is begun and not yet closed waits in a list of
frames, innermost first, so nesting may be of any depth.
-/

namespace ContactReplay.Json

/-- An array or an object that is not closed yet; its parts are listed newest first. -/
inductive Frame where
  | array (items : List Json)
  | object (members : List (Option String × Json)) (key : Option String)
  deriving Repr, Inhabited

/-- What has been read and what may follow. -/
inductive Reader where
  /-- A value has to follow; right after an opening bracket the array may also close. -/
  | awaitingValue (mayClose : Bool) (frames : List Frame)
  /-- A key has to follow; right after an opening brace the object may also close. -/
  | awaitingKey (mayClose : Bool) (members : List (Option String × Json)) (frames : List Frame)
  /-- The colon after a key has to follow. -/
  | awaitingColon (key : Option String) (members : List (Option String × Json))
      (frames : List Frame)
  /-- A value is complete. -/
  | complete (value : Json) (frames : List Frame)
  deriving Repr, Inhabited

namespace Reader

def start : Reader := .awaitingValue false []

/-- Take the next token in, `none` when it cannot stand here. -/
def step : Reader → Token → Option Reader
  | .awaitingValue _ frames, .scalar value => some (.complete value frames)
  | .awaitingValue _ frames, .openArray => some (.awaitingValue true (.array [] :: frames))
  | .awaitingValue _ frames, .openObject => some (.awaitingKey true [] frames)
  | .awaitingValue true (.array items :: frames), .closeArray =>
      some (.complete (.array items.reverse) frames)
  | .awaitingKey _ members frames, .scalar (.text key) => some (.awaitingColon key members frames)
  | .awaitingKey true members frames, .closeObject =>
      some (.complete (.object members.reverse) frames)
  | .awaitingColon key members frames, .colon =>
      some (.awaitingValue false (.object members key :: frames))
  | .complete value (.array items :: frames), .comma =>
      some (.awaitingValue false (.array (value :: items) :: frames))
  | .complete value (.array items :: frames), .closeArray =>
      some (.complete (.array (value :: items).reverse) frames)
  | .complete value (.object members key :: frames), .comma =>
      some (.awaitingKey false ((key, value) :: members) frames)
  | .complete value (.object members key :: frames), .closeObject =>
      some (.complete (.object ((key, value) :: members).reverse) frames)
  | _, _ => none

def value? : Reader → Option Json
  | .complete value [] => some value
  | _ => none

end Reader

def read? (text : String) : Option Json := do
  let tokens ← tokens? text.toList
  let reader ← tokens.foldlM Reader.step Reader.start
  reader.value?

end ContactReplay.Json
