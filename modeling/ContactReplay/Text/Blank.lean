/-!
# Blank characters

A character is blank when it has the Unicode property White_Space.  Texts are read as lists of
characters, and three readings of blanks are given:

* `trim` takes the blanks away at both ends;
* `tokens` lists the longest runs without a blank;
* `isToken` says that a text is one such run and nothing else.

The laws at the end say that trimming leaves no blank at the front and that a token is the only
token of itself.
-/

namespace ContactReplay.Text

/-- The ranges of code points with the property White_Space, ascending. -/
def blankRanges : List (Nat × Nat) :=
  [(0x09, 0x0D), (0x20, 0x20), (0x85, 0x85), (0xA0, 0xA0), (0x1680, 0x1680), (0x2000, 0x200A),
    (0x2028, 0x2029), (0x202F, 0x202F), (0x205F, 0x205F), (0x3000, 0x3000)]

/-- Whether a character has the property White_Space. -/
def isBlank (character : Char) : Bool :=
  blankRanges.any fun range => range.1 ≤ character.toNat && character.toNat ≤ range.2

def trimStart (text : List Char) : List Char := text.dropWhile isBlank

def trimEnd (text : List Char) : List Char := (text.reverse.dropWhile isBlank).reverse

def trim (text : List Char) : List Char := trimEnd (trimStart text)

/-- Put a character in front of the first piece of a split text. -/
def consFirst (character : Char) : List (List Char) → List (List Char)
  | [] => [[character]]
  | piece :: pieces => (character :: piece) :: pieces

/-- The pieces between the characters that separate, empty pieces included; one more piece than
there are separators. -/
def splitAt (separates : Char → Bool) : List Char → List (List Char)
  | [] => [[]]
  | character :: rest =>
      if separates character then [] :: splitAt separates rest
      else consFirst character (splitAt separates rest)

/-- The longest runs of characters that are not blank, in order. -/
def tokens (text : List Char) : List (List Char) :=
  (splitAt isBlank text).filter fun piece => !piece.isEmpty

/-- Whether a text is a single token: not empty and free of blanks. -/
def isToken (text : List Char) : Bool := !text.isEmpty && !text.any isBlank

/-! ## Laws -/

/-- The table holds the 25 code points of the property. -/
theorem blankRanges_count :
    blankRanges.foldl (fun count range => count + (range.2 + 1 - range.1)) 0 = 25 := by decide

@[simp]
theorem trim_nil : trim [] = [] := rfl

theorem head_trimStart_not_blank {text : List Char} {first : Char} {rest : List Char}
    (shape : trimStart text = first :: rest) : isBlank first = false := by
  induction text with
  | nil => simp [trimStart] at shape
  | cons head tail inductionHypothesis =>
      by_cases blank : isBlank head = true
      · exact inductionHypothesis (by simpa [trimStart, blank] using shape)
      · have same : head = first := by
          have := shape
          simp only [trimStart, List.dropWhile_cons, blank, Bool.false_eq_true, if_false] at this
          exact (List.cons.inj this).1
        simpa [same] using blank

theorem splitAt_of_none {separates : Char → Bool} {text : List Char}
    (none : text.any separates = false) : splitAt separates text = [text] := by
  induction text with
  | nil => rfl
  | cons head tail inductionHypothesis =>
      simp only [List.any_cons, Bool.or_eq_false_iff] at none
      simp [splitAt, none.1, inductionHypothesis none.2, consFirst]

theorem tokens_of_isToken {text : List Char} (token : isToken text = true) :
    tokens text = [text] := by
  simp only [isToken, Bool.and_eq_true, Bool.not_eq_true'] at token
  simp [tokens, splitAt_of_none token.2, token.1]

end ContactReplay.Text
