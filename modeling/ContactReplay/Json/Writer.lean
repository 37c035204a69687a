import ContactReplay.Json.Value

/-!
# Writing JSON texts

A value is written in one of two forms:

* `compact` puts everything on one line without blanks;
* `pretty` puts every part of a non-empty array or object on a line of its own, two blanks further
  in.

In a text only the quote, the backslash and the control characters are escaped, those with a short
escape by it and the others by four hexadecimal digits.
-/

namespace ContactReplay.Json

/-- The two characters that a short escape is written with. -/
def shortEscape (mark : Char) : List Char := ['\\', mark]

def escape (character : Char) : List Char :=
  match character with
  | '"' => shortEscape '"'
  | '\\' => shortEscape '\\'
  | '\x08' => shortEscape 'b'
  | '\x0c' => shortEscape 'f'
  | '\n' => shortEscape 'n'
  | '\r' => shortEscape 'r'
  | '\t' => shortEscape 't'
  | character =>
      if character.toNat < 0x20 then
        let code := character.toNat
        shortEscape 'u' ++ ['0', '0', (code / 16).digitChar, (code % 16).digitChar]
      else [character]

/-- A quoted text; one that stands for no characters is an escaped surrogate. -/
def quote : Option String → String
  | some content => "\"" ++ String.ofList (content.toList.flatMap escape) ++ "\""
  | none => "\"" ++ String.ofList (shortEscape 'u') ++ "d800\""

/-! ## One line -/

mutual

def compact : Json → String
  | .null => "null"
  | .bool value => if value then "true" else "false"
  | .number literal => literal
  | .text value => quote value
  | .array items => "[" ++ ",".intercalate (compactItems items) ++ "]"
  | .object members => "\x7b" ++ ",".intercalate (compactMembers members) ++ "\x7d"

def compactItems : List Json → List String
  | [] => []
  | item :: items => compact item :: compactItems items

def compactMembers : List (Option String × Json) → List String
  | [] => []
  | (key, value) :: members => (quote key ++ ":" ++ compact value) :: compactMembers members

end

/-! ## One line for each part -/

/-- A line break and the blanks that a depth of nesting asks for. -/
def lineBreak (depth : Nat) : String := "\n" ++ String.ofList (List.replicate (2 * depth) ' ')

def block (opening closing : String) (depth : Nat) (parts : List String) : String :=
  if parts.isEmpty then opening ++ closing
  else
    opening ++ lineBreak (depth + 1) ++ ("," ++ lineBreak (depth + 1)).intercalate parts
      ++ lineBreak depth ++ closing

mutual

def prettyAt (depth : Nat) : Json → String
  | .null => "null"
  | .bool value => if value then "true" else "false"
  | .number literal => literal
  | .text value => quote value
  | .array items => block "[" "]" depth (prettyItems (depth + 1) items)
  | .object members => block "\x7b" "\x7d" depth (prettyMembers (depth + 1) members)

def prettyItems (depth : Nat) : List Json → List String
  | [] => []
  | item :: items => prettyAt depth item :: prettyItems depth items

def prettyMembers (depth : Nat) : List (Option String × Json) → List String
  | [] => []
  | (key, value) :: members =>
      (quote key ++ ": " ++ prettyAt depth value) :: prettyMembers depth members

end

def pretty (value : Json) : String := value.prettyAt 0

end ContactReplay.Json
