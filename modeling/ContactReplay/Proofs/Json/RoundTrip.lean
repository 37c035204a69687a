import ContactReplay.Json.Reader
import ContactReplay.Json.Writer

/-!
# JSON texts are read back

A value that is written with a line for each part is read back as itself (`Legible.read?_pretty`),
if its numbers are written as numbers; any text may stand in it.  The proof follows the two stages
of the reader:

* a written text is cut into the tokens of its value, whatever comes after it (`CutInto`), where a
  word ends at a character that can be no part of it;
* these tokens take a reader from awaiting a value to having it complete (`Writes`), inside any
  arrays and objects.

Arrays and objects differ only in their brackets and in what a part is, so `writes_block` is proved
once for both.
-/

namespace ContactReplay.Json

/-! ## Quoted texts -/

theorem hexDigit?_digitChar : ∀ digit < 16, hexDigit? (Nat.digitChar digit) = some digit := by
  decide

theorem unit?_digitChar {code : Nat} (small : code < 0x20) :
    unit? '0' '0' (code / 16).digitChar (code % 16).digitChar = some code := by
  have zero : hexDigit? '0' = some 0 := by decide
  rw [unit?, zero, hexDigit?_digitChar _ (by omega), hexDigit?_digitChar _ (by omega)]
  simp only [Option.pure_def, Option.bind_eq_bind, Option.bind_some, Option.some.injEq]
  omega

/-- An escaped character is one unit of a quoted text. -/
theorem quotedUnits_escape (character : Char) (rest : List Char) :
    quotedUnits (escape character ++ rest) =
      (quotedUnits rest).map fun read => (character.toNat :: read.1, read.2) := by
  unfold escape
  split
  case h_8 =>
    split
    · rename_i small
      simp only [shortEscape, List.cons_append, List.nil_append]
      rw [quotedUnits, unit?_digitChar small]
      cases quotedUnits rest <;> rfl
    · simp only [List.cons_append, List.nil_append]
      rw [quotedUnits]
      · rw [if_neg]
        · cases quotedUnits rest <;> rfl
        · simp_all
      all_goals simp_all
  all_goals
    simp only [shortEscape, List.cons_append, List.nil_append]
    rw [quotedUnits]
    · cases quotedUnits rest <;> rfl
    · simp

theorem quotedUnits_flatMap_escape (characters rest : List Char) :
    quotedUnits (characters.flatMap escape ++ '"' :: rest) =
      some (characters.map Char.toNat, rest) := by
  induction characters with
  | nil => rfl
  | cons character others inductionHypothesis =>
      rw [List.flatMap_cons, List.append_assoc, quotedUnits_escape, inductionHypothesis]
      rfl

/-- A character is no half of a surrogate pair. -/
theorem isSurrogate_toNat (character : Char) :
    isHighSurrogate character.toNat = false ∧ isLowSurrogate character.toNat = false := by
  have valid : character.toNat < 0xD800 ∨ 0xDFFF < character.toNat ∧ character.toNat < 0x110000 :=
    character.valid
  simp only [isHighSurrogate, isLowSurrogate, Bool.and_eq_false_iff, decide_eq_false_iff_not]
  omega

theorem characters?_map_toNat (characters : List Char) :
    characters? (characters.map Char.toNat) = some characters := by
  induction characters with
  | nil => rfl
  | cons character rest inductionHypothesis =>
      obtain ⟨high, low⟩ := isSurrogate_toNat character
      cases rest with
      | nil => simp [characters?, high, low]
      | cons next others =>
          rw [List.map_cons, List.map_cons, characters?, high, low, ← List.map_cons,
            inductionHypothesis]
          simp

/-! ## Tokens -/

theorem tokens?_of_quotedUnits {text rest : List Char} {units : List Nat}
    (read : quotedUnits text = some (units, rest)) :
    tokens? ('"' :: text) =
      (tokens? rest).map (.scalar (.text ((characters? units).map String.ofList)) :: ·) := by
  rw [tokens?]
  split
  · rename_i none
    rw [read] at none
    cases none
  · rename_i found
    rw [read] at found
    cases found
    rfl

/-- A quoted text is one token. -/
theorem tokens?_quote (value : Option String) (rest : List Char) :
    tokens? ((quote value).toList ++ rest) = (tokens? rest).map (.scalar (.text value) :: ·) := by
  cases value with
  | none =>
      have read : quotedUnits ((shortEscape 'u' ++ "d800".toList) ++ '"' :: rest) =
          some ([0xD800], rest) := rfl
      have shape : (quote none).toList ++ rest =
          '"' :: ((shortEscape 'u' ++ "d800".toList) ++ '"' :: rest) := by
        simp [quote, shortEscape]
      rw [shape, tokens?_of_quotedUnits read]
      rfl
  | some content =>
      have read := quotedUnits_flatMap_escape content.toList rest
      have shape : (quote (some content)).toList ++ rest =
          '"' :: (content.toList.flatMap escape ++ '"' :: rest) := by
        simp [quote]
      rw [shape, tokens?_of_quotedUnits read, characters?_map_toNat]
      simp

/-- A text ends, or it goes on with a character that is no part of a word. -/
def Stops (text : List Char) : Prop := ∀ character ∈ text.head?, isWordPart character = false

theorem stops_nil : Stops [] := nofun

theorem stops_cons {first : Char} (stopped : isWordPart first = false) (rest : List Char) :
    Stops (first :: rest) := by
  intro character head
  obtain rfl : first = character := Option.some.inj head
  exact stopped

theorem span_isWordPart {word rest : List Char} (parts : word.all isWordPart = true)
    (stops : Stops rest) :
    (word ++ rest).takeWhile isWordPart = word ∧ (word ++ rest).dropWhile isWordPart = rest := by
  have all : ∀ character ∈ word, isWordPart character = true := List.all_eq_true.mp parts
  have ends : rest.takeWhile isWordPart = [] ∧ rest.dropWhile isWordPart = rest := by
    cases rest with
    | nil => exact ⟨rfl, rfl⟩
    | cons first others =>
        have stopped : isWordPart first = false := stops first rfl
        simp [stopped]
  rw [List.takeWhile_append_of_pos all, List.dropWhile_append_of_pos all, ends.1, ends.2]
  exact ⟨List.append_nil _, rfl⟩

theorem tokens?_word {first : Char} {others rest : List Char} {value : Json}
    (parts : (first :: others).all isWordPart = true) (read : word? (first :: others) = some value)
    (stops : Stops rest) :
    tokens? (first :: (others ++ rest)) = (tokens? rest).map (.scalar value :: ·) := by
  rw [List.all_cons, Bool.and_eq_true] at parts
  obtain ⟨part, otherParts⟩ := parts
  obtain ⟨taken, dropped⟩ := span_isWordPart otherParts stops
  have differs : ∀ character : Char, isWordPart character = false → first ≠ character := by
    rintro character other rfl
    rw [part] at other
    cases other
  have blank : ¬(first = ' ' ∨ first = '\t' ∨ first = '\n' ∨ first = '\r') := by
    simp only [not_or]
    exact ⟨differs _ (by decide), differs _ (by decide), differs _ (by decide),
      differs _ (by decide)⟩
  rw [tokens?, if_neg blank, if_pos part]
  · simp only [taken, dropped, read]
    cases tokens? rest <;> rfl
  all_goals exact differs _ (by decide)

theorem toList_lineBreak (depth : Nat) :
    (lineBreak depth).toList = '\n' :: List.replicate (2 * depth) ' ' := by
  simp [lineBreak]

theorem tokens?_lineBreak (depth : Nat) (rest : List Char) :
    tokens? ((lineBreak depth).toList ++ rest) = tokens? rest := by
  have blanks : ∀ count, tokens? (List.replicate count ' ' ++ rest) = tokens? rest := by
    intro count
    induction count with
    | zero => rfl
    | succ fewer inductionHypothesis =>
        rw [List.replicate_succ, List.cons_append, tokens?, inductionHypothesis]
        · simp
        all_goals simp
  rw [toList_lineBreak, List.cons_append, tokens?, blanks]
  · simp
  all_goals simp

/-! ## Values -/

/-- A text is cut into some tokens, whatever follows that does not go on with its last word. -/
def CutInto (text : List Char) (tokens : List Token) : Prop :=
  ∀ rest, Stops rest → tokens? (text ++ rest) = (tokens? rest).map (tokens ++ ·)

/-- A text writes a value: it is cut into tokens that a reader takes for this value. -/
def Writes (text : List Char) (value : Json) : Prop :=
  ∃ tokens, CutInto text tokens ∧ ∀ mayClose frames,
    tokens.foldlM Reader.step (.awaitingValue mayClose frames) = some (.complete value frames)

theorem writes_of_scalar {text : List Char} {value : Json} (cut : CutInto text [.scalar value]) :
    Writes text value :=
  ⟨_, cut, fun _ _ => rfl⟩

section Parts

variable {α : Type} {await : List Frame → Bool → List α → Reader}
  {whole : List Frame → List α → Reader} {close : Token} {render : α → String}

/-- A text writes a part of an array or an object, after which there is a comma or its end. -/
def WritesPart (await : List Frame → Bool → List α → Reader)
    (whole : List Frame → List α → Reader) (close : Token) (text : List Char) (part : α) : Prop :=
  ∃ tokens, CutInto text tokens ∧ ∀ frames mayClose done,
    (tokens ++ [Token.comma]).foldlM Reader.step (await frames mayClose done) =
        some (await frames false (part :: done)) ∧
      (tokens ++ [close]).foldlM Reader.step (await frames mayClose done) =
        some (whole frames (part :: done).reverse)

/-- Parts on lines of their own, from the first one up to the end of their array or object. -/
theorem exists_tokens_parts {closing : Char}
    (closes : ∀ rest, tokens? (closing :: rest) = (tokens? rest).map (close :: ·)) (depth : Nat)
    {part : α} {parts : List α}
    (writes : ∀ each ∈ part :: parts, WritesPart await whole close (render each).toList each) :
    ∃ tokens,
      (∀ rest, tokens? ((',' :: (lineBreak (depth + 1)).toList).intercalate
          ((part :: parts).map fun each => (render each).toList) ++
            ((lineBreak depth).toList ++ closing :: rest)) = (tokens? rest).map (tokens ++ ·)) ∧
      ∀ frames mayClose done, tokens.foldlM Reader.step (await frames mayClose done) =
        some (whole frames (done.reverse ++ part :: parts)) := by
  -- The induction is on the parts after the first one: either a comma or the end comes next.
  induction parts generalizing part with
  | nil =>
      obtain ⟨tokens, cut, read⟩ := writes part List.mem_cons_self
      refine ⟨tokens ++ [close], fun rest => ?_, fun frames mayClose done => ?_⟩
      · have stops : Stops ((lineBreak depth).toList ++ closing :: rest) := by
          rw [toList_lineBreak]
          exact stops_cons (by decide) _
        rw [List.map_cons, List.map_nil, List.intercalate_singleton, cut _ stops, tokens?_lineBreak,
          closes]
        cases tokens? rest <;> simp
      · rw [(read frames mayClose done).2, List.reverse_cons]
  | cons next parts inductionHypothesis =>
      obtain ⟨first, others⟩ := List.forall_mem_cons.mp writes
      obtain ⟨tokens, cut, read⟩ := first
      obtain ⟨later, laterCut, laterRead⟩ := inductionHypothesis others
      refine ⟨tokens ++ [.comma] ++ later, fun rest => ?_, fun frames mayClose done => ?_⟩
      · have stops : ∀ rest, Stops (',' :: rest) := stops_cons (by decide)
        have comma : ∀ rest, tokens? (',' :: rest) = (tokens? rest).map (.comma :: ·) :=
          fun rest => by rw [tokens?]
        rw [List.map_cons] at laterCut
        rw [List.map_cons, List.map_cons, List.intercalate_cons_cons, List.append_assoc,
          List.append_assoc, List.cons_append, cut _ (stops _), comma, tokens?_lineBreak, laterCut]
        cases tokens? rest <;> simp
      · have goesOn := laterRead frames false (part :: done)
        rw [List.reverse_cons, List.append_assoc] at goesOn
        rw [List.foldlM_append, (read frames mayClose done).1]
        exact goesOn

/-- Parts on lines of their own between brackets write a value if the brackets begin and end it. -/
theorem writes_block {opening closing : Char} {openToken : Token} {value : Json}
    (opens : ∀ rest, tokens? (opening :: rest) = (tokens? rest).map (openToken :: ·))
    (closes : ∀ rest, tokens? (closing :: rest) = (tokens? rest).map (close :: ·)) (depth : Nat)
    {parts : List α}
    (begins : ∀ mayClose frames, Reader.step (.awaitingValue mayClose frames) openToken =
      some (await frames true []))
    (ends : ∀ frames, Reader.step (await frames true []) close = some (whole frames []))
    (completes : ∀ frames, whole frames parts = .complete value frames)
    (writes : ∀ part ∈ parts, WritesPart await whole close (render part).toList part) :
    Writes (block (String.singleton opening) (String.singleton closing) depth
      (parts.map render)).toList value := by
  cases parts with
  | nil =>
      -- Brackets around nothing stand side by side, and the reader may close at once.
      refine ⟨[openToken, close], fun rest _ => ?_, fun mayClose frames => ?_⟩
      · have shape : (block (String.singleton opening) (String.singleton closing) depth
            ([].map render)).toList ++ rest = opening :: closing :: rest := by
          simp [block]
        rw [shape, opens, closes]
        cases tokens? rest <;> rfl
      · rw [List.foldlM_cons, begins, Option.bind_eq_bind, Option.bind_some, List.foldlM_cons,
          ends, ← completes]
        rfl
  | cons part parts =>
      obtain ⟨tokens, cut, read⟩ := exists_tokens_parts closes depth writes
      refine ⟨openToken :: tokens, fun rest _ => ?_, fun mayClose frames => ?_⟩
      · have shape : (block (String.singleton opening) (String.singleton closing) depth
            ((part :: parts).map render)).toList ++ rest =
              opening :: ((lineBreak (depth + 1)).toList ++
                ((',' :: (lineBreak (depth + 1)).toList).intercalate
                  ((part :: parts).map fun each => (render each).toList) ++
                ((lineBreak depth).toList ++ closing :: rest))) := by
          simp [block, Function.comp_def]
        rw [shape, opens, tokens?_lineBreak, cut]
        cases tokens? rest <;> rfl
      · rw [List.foldlM_cons, begins, ← completes]
        exact read frames true []

end Parts

/-! ## Values in full -/

/-- All numbers in a value are written as numbers. -/
inductive Legible : Json → Prop
  | null : Legible .null
  | bool (value : Bool) : Legible (.bool value)
  | number {literal : String} (parts : literal.toList.all isWordPart = true)
      (read : word? literal.toList = some (.number literal)) : Legible (.number literal)
  | text (value : Option String) : Legible (.text value)
  | array {items : List Json} (each : ∀ item ∈ items, Legible item) : Legible (.array items)
  | object {members : List (Option String × Json)} (each : ∀ member ∈ members, Legible member.2) :
      Legible (.object members)

theorem writes_word {word : String} {value : Json} (parts : word.toList.all isWordPart = true)
    (read : word? word.toList = some value) : Writes word.toList value := by
  refine writes_of_scalar fun rest stops => ?_
  cases shape : word.toList with
  | nil =>
      rw [shape] at read
      cases read
  | cons first others =>
      rw [shape] at parts read
      exact tokens?_word parts read stops

theorem prettyItems_eq_map (depth : Nat) (items : List Json) :
    prettyItems depth items = items.map (prettyAt depth) := by
  induction items with
  | nil => rfl
  | cons item rest inductionHypothesis => rw [prettyItems, inductionHypothesis, List.map_cons]

theorem prettyMembers_eq_map (depth : Nat) (members : List (Option String × Json)) :
    prettyMembers depth members =
      members.map fun member => quote member.1 ++ ": " ++ prettyAt depth member.2 := by
  induction members with
  | nil => rfl
  | cons member rest inductionHypothesis => rw [prettyMembers, inductionHypothesis, List.map_cons]

theorem writesPart_item {text : List Char} {item : Json} (writes : Writes text item) :
    WritesPart (fun frames mayClose done => .awaitingValue mayClose (.array done :: frames))
      (fun frames items => .complete (.array items) frames) .closeArray text item := by
  obtain ⟨tokens, cut, read⟩ := writes
  refine ⟨tokens, cut, fun frames mayClose done => ?_⟩
  rw [List.foldlM_append, List.foldlM_append, read]
  exact ⟨rfl, rfl⟩

theorem writesPart_member {text : List Char} {member : Option String × Json}
    (writes : Writes text member.2) :
    WritesPart (fun frames mayClose done => .awaitingKey mayClose done frames)
      (fun frames members => .complete (.object members) frames) .closeObject
      ((quote member.1).toList ++ ':' :: ' ' :: text) member := by
  obtain ⟨tokens, cut, read⟩ := writes
  refine ⟨.scalar (.text member.1) :: .colon :: tokens, fun rest stops => ?_,
    fun frames mayClose done => ?_⟩
  · have colon : ∀ rest, tokens? (':' :: ' ' :: rest) = (tokens? rest).map (.colon :: ·) :=
      fun rest => by
        rw [tokens?, tokens?]
        · simp
        all_goals simp
    rw [List.append_assoc, tokens?_quote, List.cons_append, List.cons_append, colon, cut rest stops]
    cases tokens? rest <;> rfl
  · have value : ∀ others, (tokens ++ others).foldlM Reader.step
        (.awaitingValue false (.object done member.1 :: frames)) =
          others.foldlM Reader.step (.complete member.2 (.object done member.1 :: frames)) := by
      intro others
      rw [List.foldlM_append, read]
      rfl
    exact ⟨value [.comma], value [.closeObject]⟩

/-- A legible value is written as a text of this value, at any depth. -/
theorem Legible.writes {value : Json} (legible : value.Legible) (depth : Nat) :
    Writes (value.prettyAt depth).toList value := by
  induction legible generalizing depth with
  | null =>
      rw [prettyAt]
      exact writes_word (by decide) rfl
  | bool value =>
      rw [prettyAt]
      cases value <;> exact writes_word (by decide) rfl
  | number parts read => exact writes_word parts read
  | text value => exact writes_of_scalar fun rest _ => tokens?_quote value rest
  | @array items each inductionHypothesis =>
      rw [prettyAt, prettyItems_eq_map]
      have opens : ∀ rest, tokens? ('[' :: rest) = (tokens? rest).map (.openArray :: ·) :=
        fun rest => by rw [tokens?]
      have closes : ∀ rest, tokens? (']' :: rest) = (tokens? rest).map (.closeArray :: ·) :=
        fun rest => by rw [tokens?]
      have parts := fun item member => writesPart_item (inductionHypothesis item member (depth + 1))
      exact writes_block opens closes depth (fun _ _ => rfl) (fun _ => rfl) (fun _ => rfl) parts
  | @object members each inductionHypothesis =>
      rw [prettyAt, prettyMembers_eq_map]
      have opens : ∀ rest, tokens? ('\x7b' :: rest) = (tokens? rest).map (.openObject :: ·) :=
        fun rest => by rw [tokens?]
      have closes : ∀ rest, tokens? ('\x7d' :: rest) = (tokens? rest).map (.closeObject :: ·) :=
        fun rest => by rw [tokens?]
      have shape : ∀ member : Option String × Json,
          (quote member.1 ++ ": " ++ prettyAt (depth + 1) member.2).toList =
            (quote member.1).toList ++ ':' :: ' ' :: (prettyAt (depth + 1) member.2).toList := by
        simp
      have parts := fun member among =>
        shape member ▸ writesPart_member (inductionHypothesis member among (depth + 1))
      exact writes_block opens closes depth (fun _ _ => rfl) (fun _ => rfl) (fun _ => rfl) parts

/-- A legible value that has been written is read back. -/
theorem Legible.read?_pretty {value : Json} (legible : value.Legible) :
    read? value.pretty = some value := by
  obtain ⟨tokens, cut, read⟩ := legible.writes 0
  have whole := cut [] stops_nil
  rw [List.append_nil] at whole
  rw [read?, pretty, whole, tokens?]
  simp only [Option.map_some, List.append_nil, Option.bind_eq_bind, Option.bind_some]
  rw [Reader.start, read]
  rfl

/-! ## Numbers -/

theorem exists_toDigits_cons {value : Nat} (positive : 0 < value) :
    ∃ first rest, Nat.toDigits 10 value = first :: rest ∧ first ≠ '0' := by
  induction value using Nat.strongRecOn with
  | ind value inductionHypothesis =>
      by_cases small : value < 10
      · have differs : ∀ digit < 10, 0 < digit → Nat.digitChar digit ≠ '0' := by decide
        exact ⟨_, [], Nat.toDigits_of_lt_base small, differs value small positive⟩
      · obtain ⟨first, rest, shape, differs⟩ :=
          inductionHypothesis (value / 10) (by omega) (by omega)
        refine ⟨first, rest ++ [(value % 10).digitChar], ?_, differs⟩
        rw [Nat.toDigits_of_base_le (by decide) (by omega), shape, List.cons_append]

theorem isNumber_of_digits {first : Char} {rest : List Char}
    (digits : ∀ character ∈ first :: rest, character.isDigit = true) (differs : first ≠ '0') :
    isNumber (first :: rest) = true ∧ isNumber ('-' :: first :: rest) = true := by
  have unsigned : first ≠ '-' := by
    rintro rfl
    cases digits '-' List.mem_cons_self
  have taken : (first :: rest).takeWhile Char.isDigit = first :: rest := by
    rw [← List.append_nil (first :: rest), List.takeWhile_append_of_pos digits]
    rfl
  have dropped : (first :: rest).dropWhile Char.isDigit = [] := by
    rw [← List.append_nil (first :: rest), List.dropWhile_append_of_pos digits]
    rfl
  have tail : isNumberTail [] = true := by decide
  constructor
  · simp [isNumber, unsigned, differs, taken, dropped, tail]
  · simp [isNumber, differs, taken, dropped, tail]

theorem isNumber_toDigits (value : Nat) :
    isNumber (Nat.toDigits 10 value) = true ∧ isNumber ('-' :: Nat.toDigits 10 value) = true := by
  rcases Nat.eq_zero_or_pos value with rfl | positive
  · decide
  · have digits : ∀ character ∈ Nat.toDigits 10 value, character.isDigit = true :=
      fun _ member => Nat.isDigit_of_mem_toDigits (by decide) (by decide) member
    obtain ⟨first, rest, shape, differs⟩ := exists_toDigits_cons positive
    rw [shape] at digits ⊢
    exact isNumber_of_digits digits differs

/-- A number is read as a number if its literal begins with a digit or a sign. -/
theorem legible_number {literal : String} {first : Char} {rest : List Char}
    (shape : literal.toList = first :: rest) (begins : first.isDigit = true ∨ first = '-')
    (parts : (first :: rest).all isWordPart = true) (number : isNumber (first :: rest) = true) :
    (Json.number literal).Legible := by
  refine .number (shape ▸ parts) ?_
  have differs : ∀ letter, letter.isDigit = false → letter ≠ '-' → first ≠ letter := by
    rintro letter noDigit noSign rfl
    rcases begins with digit | sign
    · rw [noDigit] at digit
      cases digit
    · exact noSign sign
  have same : String.ofList (first :: rest) = literal := by rw [← shape, String.ofList_toList]
  simp [word?, shape, number, same, differs 'n' (by decide) (by decide),
    differs 't' (by decide) (by decide), differs 'f' (by decide) (by decide)]

theorem isWordPart_toDigits (value : Nat) : (Nat.toDigits 10 value).all isWordPart = true := by
  rw [List.all_eq_true]
  intro character member
  have digit : character.isDigit = true :=
    Nat.isDigit_of_mem_toDigits (by decide) (by decide) member
  simp [isWordPart, Char.isAlphanum, digit]

@[simp]
theorem legible_ofNat (value : Nat) : (ofNat value).Legible := by
  have digits : (toString value).toList = Nat.toDigits 10 value := Nat.toList_repr
  have parts := isWordPart_toDigits value
  have number := (isNumber_toDigits value).1
  cases shape : Nat.toDigits 10 value with
  | nil => exact absurd shape Nat.toDigits_ne_nil
  | cons first rest =>
      have digit : first.isDigit = true :=
        Nat.isDigit_of_mem_toDigits (n := value) (b := 10) (by decide) (by decide)
          (shape ▸ List.mem_cons_self)
      rw [shape] at parts number
      exact legible_number (digits.trans shape) (Or.inl digit) parts number

@[simp]
theorem legible_ofInt (value : Int) : (ofInt value).Legible := by
  cases value with
  | ofNat value => exact legible_ofNat value
  | negSucc value =>
      have digits : (toString (Int.negSucc value)).toList = '-' :: Nat.toDigits 10 (value + 1) := by
        have spelled : toString (Int.negSucc value) = "-" ++ toString (value + 1) := rfl
        rw [spelled, String.toList_append]
        exact congrArg (['-'] ++ ·) Nat.toList_repr
      have parts : ('-' :: Nat.toDigits 10 (value + 1)).all isWordPart = true :=
        isWordPart_toDigits (value + 1)
      exact legible_number digits (Or.inr rfl) parts (isNumber_toDigits (value + 1)).2

@[simp]
theorem legible_ofString (value : String) : (ofString value).Legible := .text value

@[simp]
theorem legible_ofFields_iff {fields : List (String × Json)} :
    (ofFields fields).Legible ↔ ∀ field ∈ fields, field.2.Legible := by
  constructor
  · intro legible field among
    cases legible with
    | object each => exact each _ (List.mem_map_of_mem among)
  · refine fun each => .object fun member among => ?_
    obtain ⟨field, inFields, rfl⟩ := List.mem_map.mp among
    exact each field inFields

end ContactReplay.Json
