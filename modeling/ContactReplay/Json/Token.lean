import ContactReplay.Json.Value

/-!
# Tokens of JSON texts

A JSON text is first cut into tokens: the six structural characters, quoted texts, and runs of the
characters that words and numbers are made of.  Only space, tab, line feed and carriage return may
stand between tokens.  The law at the end says that reading a quoted text uses characters up, which
is why cutting a text into tokens comes to an end.
-/

namespace ContactReplay.Json

/-- A token of a JSON text. -/
inductive Token where
  | openArray
  | closeArray
  | openObject
  | closeObject
  | comma
  | colon
  | scalar (value : Json)
  deriving Repr, Inhabited

/-! ## Quoted texts -/

def hexDigit? (digit : Char) : Option Nat :=
  if digit.isDigit then some (digit.toNat - '0'.toNat)
  else if 'a' ≤ digit ∧ digit ≤ 'f' then some (digit.toNat - 'a'.toNat + 10)
  else if 'A' ≤ digit ∧ digit ≤ 'F' then some (digit.toNat - 'A'.toNat + 10)
  else none

/-- The 16-bit unit that four hexadecimal digits write. -/
def unit? (first second third fourth : Char) : Option Nat := do
  return (((← hexDigit? first) * 16 + (← hexDigit? second)) * 16 + (← hexDigit? third)) * 16
    + (← hexDigit? fourth)

/-- The character that a short escape stands for, by its mark. -/
def shortEscape? : Char → Option Char
  | '"' => some '"'
  | '\\' => some '\\'
  | '/' => some '/'
  | 'b' => some '\x08'
  | 'f' => some '\x0c'
  | 'n' => some '\n'
  | 'r' => some '\r'
  | 't' => some '\t'
  | _ => none

/-- The code units of a quoted text after its opening quote, and what follows the closing one.  A
character that stands for itself is one unit, however large, so a unit in the surrogate range always
comes from an escape.  Control characters have to be escaped. -/
def quotedUnits : List Char → Option (List Nat × List Char)
  | [] => none
  | '"' :: rest => some ([], rest)
  | '\\' :: 'u' :: first :: second :: third :: fourth :: rest => do
      let unit ← unit? first second third fourth
      let (units, after) ← quotedUnits rest
      some (unit :: units, after)
  | '\\' :: mark :: rest => do
      let character ← shortEscape? mark
      let (units, after) ← quotedUnits rest
      some (character.toNat :: units, after)
  | character :: rest =>
      if character = '\\' ∨ character.toNat < 0x20 then none
      else do
        let (units, after) ← quotedUnits rest
        some (character.toNat :: units, after)

/-- Whether a unit is the first half of a surrogate pair. -/
def isHighSurrogate (unit : Nat) : Bool := 0xD800 ≤ unit && unit < 0xDC00

/-- Whether a unit is the second half of a surrogate pair. -/
def isLowSurrogate (unit : Nat) : Bool := 0xDC00 ≤ unit && unit < 0xE000

/-- The characters of a list of units; `none` when a surrogate stands without its partner. -/
def characters? : List Nat → Option (List Char)
  | [] => some []
  | [unit] =>
      if isHighSurrogate unit || isLowSurrogate unit then none else some [Char.ofNat unit]
  | unit :: next :: rest =>
      if isHighSurrogate unit then
        if isLowSurrogate next then
          (characters? rest).map
            (Char.ofNat (0x10000 + (unit - 0xD800) * 0x400 + (next - 0xDC00)) :: ·)
        else none
      else if isLowSurrogate unit then none
      else (characters? (next :: rest)).map (Char.ofNat unit :: ·)

/-! ## Words and numbers -/

/-- Whether a character can be part of a word or a number. -/
def isWordPart (character : Char) : Bool :=
  character.isAlphanum || character = '+' || character = '-' || character = '.'

/-- Whether a text is the part of a number after its integer part: a fraction, an exponent, both or
nothing. -/
def isNumberTail (text : List Char) : Bool :=
  let exponentOk : List Char → Bool
    | [] => true
    | mark :: rest =>
        let digits := match rest with
          | '+' :: digits => digits
          | '-' :: digits => digits
          | digits => digits
        (mark = 'e' || mark = 'E') && !digits.isEmpty && digits.all Char.isDigit
  match text with
  | '.' :: rest =>
      !(rest.takeWhile Char.isDigit).isEmpty && exponentOk (rest.dropWhile Char.isDigit)
  | text => exponentOk text

/-- Whether a text is a number: an integer part without superfluous zeros, perhaps negative, and a
tail. -/
def isNumber (text : List Char) : Bool :=
  let unsigned := match text with
    | '-' :: rest => rest
    | text => text
  match unsigned with
  | '0' :: rest => isNumberTail rest
  | unsigned =>
      !(unsigned.takeWhile Char.isDigit).isEmpty && isNumberTail (unsigned.dropWhile Char.isDigit)

def word? (word : List Char) : Option Json :=
  if word = "null".toList then some .null
  else if word = "true".toList then some (.bool true)
  else if word = "false".toList then some (.bool false)
  else if isNumber word then some (.number (String.ofList word))
  else none

/-! ## Cutting a text -/

theorem length_quotedUnits {text after : List Char} {units : List Nat}
    (read : quotedUnits text = some (units, after)) : after.length < text.length := by
  fun_induction quotedUnits text generalizing units with
  | case1 => simp at read
  | case2 rest => simp_all
  | case3 first second third fourth rest inductionHypothesis =>
      simp only [Option.bind_eq_bind, Option.bind_eq_some_iff, Option.some.injEq,
        Prod.exists, Prod.mk.injEq] at read
      obtain ⟨_, _, _, _, inner, _, rfl⟩ := read
      have := inductionHypothesis inner
      simp only [List.length_cons]
      omega
  | case4 mark rest _ inductionHypothesis =>
      simp only [Option.bind_eq_bind, Option.bind_eq_some_iff, Option.some.injEq,
        Prod.exists, Prod.mk.injEq] at read
      obtain ⟨_, _, _, _, inner, _, rfl⟩ := read
      have := inductionHypothesis inner
      simp only [List.length_cons]
      omega
  | case5 => simp at read
  | case6 character rest _ _ _ _ inductionHypothesis =>
      simp only [Option.bind_eq_bind, Option.bind_eq_some_iff, Option.some.injEq,
        Prod.exists, Prod.mk.injEq] at read
      obtain ⟨_, _, inner, _, rfl⟩ := read
      have := inductionHypothesis inner
      simp only [List.length_cons]
      omega

/-- The tokens of a text, `none` when some part of it is no token. -/
def tokens? (text : List Char) : Option (List Token) :=
  match text with
  | [] => some []
  | '[' :: rest => (tokens? rest).map (.openArray :: ·)
  | ']' :: rest => (tokens? rest).map (.closeArray :: ·)
  | '\x7b' :: rest => (tokens? rest).map (.openObject :: ·)
  | '\x7d' :: rest => (tokens? rest).map (.closeObject :: ·)
  | ',' :: rest => (tokens? rest).map (.comma :: ·)
  | ':' :: rest => (tokens? rest).map (.colon :: ·)
  | '"' :: rest =>
      match read : quotedUnits rest with
      | none => none
      | some (units, after) =>
          have := length_quotedUnits read
          (tokens? after).map (.scalar (.text ((characters? units).map String.ofList)) :: ·)
  | character :: rest =>
      if character = ' ' ∨ character = '\t' ∨ character = '\n' ∨ character = '\r' then tokens? rest
      else if isWordPart character then do
        let value ← word? (character :: rest.takeWhile isWordPart)
        have : (rest.dropWhile isWordPart).length ≤ rest.length := by
          simpa using (List.dropWhile_suffix isWordPart).length_le
        let following ← tokens? (rest.dropWhile isWordPart)
        some (.scalar value :: following)
      else none
  termination_by text.length

end ContactReplay.Json
