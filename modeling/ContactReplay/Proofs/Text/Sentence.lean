import ContactReplay.GraphStream.Reader

/-!
# Sentences

A line of a graph stream is written as words with one blank between two of them.  `sentence` writes
such a line, and a line that is written so is read as it was meant:

* its tokens are those of its words;
* a `Firm` text begins and ends with a visible character and holds no line feed, so trimming does
  not change it and it comes back whole when it is written on a line of its own
  (`spokenLines_firm`);
* a line whose first character makes it a comment is silent, and every other one is found under its
  number (`spoken_sentences`).
-/

namespace ContactReplay.Text

/-- Words with one blank between two of them. -/
def sentence : List (List Char) → List Char
  | [] => []
  | [word] => word
  | word :: second :: rest => word ++ ' ' :: sentence (second :: rest)

/-! ## Words -/

theorem isToken_iff {word : List Char} :
    isToken word = true ↔ word ≠ [] ∧ ∀ character ∈ word, isBlank character = false := by
  simp [isToken]

theorem splitAt_ne_nil (separates : Char → Bool) (text : List Char) :
    splitAt separates text ≠ [] := by
  cases text with
  | nil => simp [splitAt]
  | cons head tail =>
      rw [splitAt]
      split
      · simp
      · cases splitAt separates tail <;> simp [consFirst]

theorem splitAt_append_separator {separates : Char → Bool} {separator : Char}
    (separating : separates separator = true) (first second : List Char) :
    splitAt separates (first ++ separator :: second) =
      splitAt separates first ++ splitAt separates second := by
  induction first with
  | nil => simp [splitAt, separating]
  | cons head tail inductionHypothesis =>
      obtain ⟨piece, pieces, shape⟩ := List.exists_cons_of_ne_nil (splitAt_ne_nil separates tail)
      by_cases cut : separates head = true
      · simp [splitAt, cut, inductionHypothesis]
      · simp [splitAt, cut, inductionHypothesis, shape, consFirst]

theorem tokens_append_blank {blank : Char} (isBlank : isBlank blank = true)
    (first second : List Char) :
    tokens (first ++ blank :: second) = tokens first ++ tokens second := by
  rw [tokens, splitAt_append_separator isBlank, List.filter_append]
  rfl

theorem tokens_ne_nil {text : List Char} {character : Char} (member : character ∈ text)
    (visible : isBlank character = false) : tokens text ≠ [] := by
  induction text with
  | nil => cases member
  | cons head tail inductionHypothesis =>
      obtain ⟨piece, pieces, shape⟩ := List.exists_cons_of_ne_nil (splitAt_ne_nil isBlank tail)
      by_cases blank : isBlank head = true
      · have later : character ∈ tail := by
          rcases List.mem_cons.mp member with rfl | later
          · exact absurd (visible.symm.trans blank) Bool.false_ne_true
          · exact later
        simpa [tokens, splitAt, blank] using inductionHypothesis later
      · simp [tokens, splitAt, blank, shape, consFirst]

theorem tokens_sentence {words : List (List Char)} (tokens : ∀ word ∈ words, isToken word = true) :
    Text.tokens (sentence words) = words := by
  induction words with
  | nil => rfl
  | cons word rest inductionHypothesis =>
      have wordToken := tokens word List.mem_cons_self
      cases rest with
      | nil => exact tokens_of_isToken wordToken
      | cons second rest =>
          rw [sentence, tokens_append_blank (by decide), tokens_of_isToken wordToken,
            inductionHypothesis fun other member => tokens other (List.mem_cons_of_mem _ member)]
          rfl

theorem not_mem_sentence {character : Char} (visible : character ≠ ' ') {words : List (List Char)}
    (absent : ∀ word ∈ words, character ∉ word) : character ∉ sentence words := by
  induction words with
  | nil => exact List.not_mem_nil
  | cons word rest inductionHypothesis =>
      obtain ⟨wordAbsent, restAbsent⟩ := List.forall_mem_cons.mp absent
      cases rest with
      | nil => exact wordAbsent
      | cons second rest =>
          rw [sentence, List.mem_append, List.mem_cons]
          rintro (inWord | same | later)
          · exact wordAbsent inWord
          · exact visible same
          · exact inductionHypothesis restAbsent later

/-! ## Trimming -/

theorem trimStart_eq_self {text : List Char} {first : Char} (head : text.head? = some first)
    (visible : isBlank first = false) : trimStart text = text := by
  cases text with
  | nil => rfl
  | cons character rest =>
      obtain rfl : character = first := by simpa using head
      simp [trimStart, visible]

theorem trim_eq_self_of_ends {text : List Char} {first last : Char}
    (head : text.head? = some first) (firstVisible : isBlank first = false)
    (ending : text.getLast? = some last) (lastVisible : isBlank last = false) :
    trim text = text := by
  rw [trim, trimStart_eq_self head firstVisible, trimEnd]
  have reversed : text.reverse.head? = some last := by rw [List.head?_reverse, ending]
  have kept : text.reverse.dropWhile isBlank = text.reverse :=
    trimStart_eq_self reversed lastVisible
  rw [kept, List.reverse_reverse]

theorem head?_sentence {word : List Char} {rest : List (List Char)} (nonempty : word ≠ []) :
    (sentence (word :: rest)).head? = word.head? := by
  obtain ⟨first, wordRest, rfl⟩ := List.exists_cons_of_ne_nil nonempty
  cases rest with
  | nil => rfl
  | cons second rest => rfl

/-! ## Firm texts -/

/-- A text without a line feed that is not blank at either end. -/
structure Firm (text : List Char) : Prop where
  first : ∃ character, text.head? = some character ∧ isBlank character = false
  last : ∃ character, text.getLast? = some character ∧ isBlank character = false
  unbroken : '\n' ∉ text

namespace Firm

variable {text : List Char}

theorem trim_eq (firm : Firm text) : trim text = text := by
  obtain ⟨first, begins, firstVisible⟩ := firm.first
  obtain ⟨last, ends, lastVisible⟩ := firm.last
  exact trim_eq_self_of_ends begins firstVisible ends lastVisible

theorem ne_nil (firm : Firm text) : text ≠ [] := by
  obtain ⟨first, begins, -⟩ := firm.first
  exact fun empty => by simp [empty] at begins

theorem of_isToken (token : isToken text = true) : Firm text := by
  obtain ⟨nonempty, clear⟩ := isToken_iff.mp token
  refine ⟨⟨text.head nonempty, List.head?_eq_some_head nonempty, clear _ (List.head_mem nonempty)⟩,
    ⟨text.getLast nonempty, List.getLast?_eq_some_getLast nonempty,
      clear _ (List.getLast_mem nonempty)⟩, fun feed => ?_⟩
  exact absurd (clear _ feed) (by decide)

theorem append_blank {first second : List Char} (firstFirm : Firm first)
    (secondFirm : Firm second) : Firm (first ++ ' ' :: second) where
  first := by
    obtain ⟨character, begins, visible⟩ := firstFirm.first
    exact ⟨character, by simp [List.head?_append, begins], visible⟩
  last := by
    obtain ⟨character, ends, visible⟩ := secondFirm.last
    exact ⟨character, by simp [List.getLast?_append, List.getLast?_cons, ends], visible⟩
  unbroken := by
    simp [firstFirm.unbroken, secondFirm.unbroken]

theorem sentence {words : List (List Char)} (firm : ∀ word ∈ words, Firm word)
    (nonempty : words ≠ []) : Firm (sentence words) := by
  induction words with
  | nil => exact absurd rfl nonempty
  | cons word rest inductionHypothesis =>
      obtain ⟨wordFirm, restFirm⟩ := List.forall_mem_cons.mp firm
      cases rest with
      | nil => exact wordFirm
      | cons second rest =>
          exact wordFirm.append_blank (inductionHypothesis restFirm (List.cons_ne_nil _ _))

/-- A firm text that consists of one token is that token. -/
theorem isToken_of_length (firm : Firm text) (single : (tokens text).length = 1) :
    isToken text = true := by
  refine isToken_iff.mpr ⟨firm.ne_nil, fun character member => ?_⟩
  rw [← Bool.not_eq_true]
  intro blank
  -- A blank within the text stands between its first and its last character.
  obtain ⟨before, behind, rfl⟩ := List.append_of_mem member
  obtain ⟨first, begins, firstVisible⟩ := firm.first
  obtain ⟨last, ends, lastVisible⟩ := firm.last
  have firstMember : first ∈ before := by
    cases before with
    | nil =>
        obtain rfl : character = first := by simpa using begins
        exact absurd (firstVisible.symm.trans blank) Bool.false_ne_true
    | cons head tail =>
        obtain rfl : head = first := by simpa using begins
        exact List.mem_cons_self
  have lastMember : last ∈ behind := by
    rw [List.getLast?_append, List.getLast?_cons, Option.some_or, Option.some.injEq] at ends
    cases found : behind.getLast? with
    | none =>
        obtain rfl : character = last := by simpa [found] using ends
        exact absurd (lastVisible.symm.trans blank) Bool.false_ne_true
    | some final =>
        obtain rfl : final = last := by simpa [found] using ends
        exact List.mem_of_getLast? found
  have beforeSome := List.length_pos_iff.mpr (tokens_ne_nil firstMember firstVisible)
  have behindSome := List.length_pos_iff.mpr (tokens_ne_nil lastMember lastVisible)
  rw [tokens_append_blank blank, List.length_append] at single
  omega

end Firm

/-! ## Lines -/

/-- A line that holds no line end comes back as it is. -/
theorem lines_append_newline {line rest : List Char} (unbroken : '\n' ∉ line)
    (ending : line.getLast? ≠ some '\r') : lines (line ++ '\n' :: rest) = line :: lines rest := by
  induction line with
  | nil => rw [List.nil_append, lines]
  | cons head tail inductionHypothesis =>
      rw [List.mem_cons, not_or] at unbroken
      have tailEnding : tail.getLast? ≠ some '\r' := by
        intro found
        exact ending (by simp [List.getLast?_cons, found])
      rw [List.cons_append, lines, inductionHypothesis unbroken.2 tailEnding, consFirst]
      · intro other carriage begins
        cases tail with
        | nil => exact ending (by rw [carriage]; rfl)
        | cons second others =>
            exact unbroken.2 (List.mem_cons.mpr (Or.inl (List.cons.inj begins).1.symm))
      · exact Ne.symm unbroken.1

theorem lines_of_firm {texts : List (List Char)} (firm : ∀ text ∈ texts, Firm text) :
    lines (texts.flatMap (· ++ ['\n'])) = texts := by
  induction texts with
  | nil => rfl
  | cons text rest inductionHypothesis =>
      obtain ⟨textFirm, restFirm⟩ := List.forall_mem_cons.mp firm
      have ending : text.getLast? ≠ some '\r' := by
        obtain ⟨last, ends, visible⟩ := textFirm.last
        rw [ends]
        rintro ⟨⟩
        exact absurd visible (by decide)
      rw [List.flatMap_cons, List.append_assoc, List.singleton_append,
        lines_append_newline textFirm.unbroken ending, inductionHypothesis restFirm]

/-- A text whose last line has its end. -/
def Complete (text : List Char) : Prop := text = [] ∨ text.getLast? = some '\n'

theorem Complete.of_cons {character : Char} {rest : List Char}
    (complete : Complete (character :: rest)) : Complete rest := by
  cases rest with
  | nil => exact Or.inl rfl
  | cons second others =>
      rcases complete with impossible | ends
      · cases impossible
      · exact Or.inr (by rwa [List.getLast?_cons_cons] at ends)

theorem Complete.cons {character : Char} {rest : List Char} (complete : Complete rest)
    (feeds : rest = [] → character = '\n') : Complete (character :: rest) := by
  cases rest with
  | nil => exact Or.inr (congrArg some (feeds rfl))
  | cons second others =>
      rcases complete with impossible | ends
      · cases impossible
      · exact Or.inr (by rwa [List.getLast?_cons_cons])

theorem lines_eq_nil_iff {text : List Char} : lines text = [] ↔ text = [] := by
  fun_cases lines text with
  | case1 => simp
  | case2 rest => simp
  | case3 rest => simp
  | case4 character rest => cases lines rest <;> simp [consFirst]

/-- The lines of a text that is continued after a line end. -/
theorem lines_append {first : List Char} (complete : Complete first) (second : List Char) :
    lines (first ++ second) = lines first ++ lines second := by
  fun_induction lines first with
  | case1 => rfl
  | case2 rest inductionHypothesis =>
      rw [List.cons_append, List.cons_append, lines, inductionHypothesis complete.of_cons.of_cons,
        List.cons_append]
  | case3 rest inductionHypothesis =>
      rw [List.cons_append, lines, inductionHypothesis complete.of_cons, List.cons_append]
  | case4 character rest notReturn notFeed inductionHypothesis =>
      cases rest with
      | nil =>
          rcases complete with impossible | ends
          · cases impossible
          · exact absurd (Option.some.inj ends) notFeed
      | cons next others =>
          obtain ⟨piece, pieces, shape⟩ := List.exists_cons_of_ne_nil
            (mt lines_eq_nil_iff.mp (List.cons_ne_nil next others))
          rw [List.cons_append, lines, inductionHypothesis complete.of_cons, shape]
          · rfl
          · intro more carriage begins
            exact notReturn others carriage (by rw [(List.cons.inj begins).1])
          · exact notFeed

/-- Lines that hold no line feed are the pieces between the line feeds that end them. -/
theorem splitAt_lines {texts : List (List Char)} (unbroken : ∀ text ∈ texts, '\n' ∉ text) :
    splitAt (· == '\n') (texts.flatMap (· ++ ['\n'])) = texts ++ [[]] := by
  induction texts with
  | nil => rfl
  | cons text rest inductionHypothesis =>
      obtain ⟨textUnbroken, restUnbroken⟩ := List.forall_mem_cons.mp unbroken
      have whole : text.any (· == '\n') = false := by
        rw [List.any_beq', List.contains_eq_mem, decide_eq_false textUnbroken]
      rw [List.flatMap_cons, List.append_assoc, List.singleton_append,
        splitAt_append_separator (by decide), splitAt_of_none whole,
        inductionHypothesis restUnbroken]
      rfl

/-- The lines that say something, the first line with a given number. -/
def spoken (number : Nat) : List (List Char) → List Line
  | [] => []
  | text :: rest =>
      if isSilent text then spoken (number + 1) rest
      else ⟨number, text⟩ :: spoken (number + 1) rest

theorem spoken_cons_of_silent {text : List Char} (silent : isSilent text = true) (number : Nat)
    (rest : List (List Char)) : spoken number (text :: rest) = spoken (number + 1) rest :=
  if_pos silent

theorem spoken_cons_of_loud {text : List Char} (loud : isSilent text = false) (number : Nat)
    (rest : List (List Char)) :
    spoken number (text :: rest) = ⟨number, text⟩ :: spoken (number + 1) rest :=
  if_neg (by simp [loud])

theorem spoken_append (number : Nat) (first second : List (List Char)) :
    spoken number (first ++ second) =
      spoken number first ++ spoken (number + first.length) second := by
  induction first generalizing number with
  | nil => rfl
  | cons text rest inductionHypothesis =>
      have later : number + (text :: rest).length = number + 1 + rest.length := by
        rw [List.length_cons]
        omega
      rw [List.cons_append, later]
      cases silent : isSilent text with
      | true =>
          rw [spoken_cons_of_silent silent, spoken_cons_of_silent silent, inductionHypothesis]
      | false =>
          rw [spoken_cons_of_loud silent, spoken_cons_of_loud silent, inductionHypothesis,
            List.cons_append]

/-- What a text says is what its trimmed lines say. -/
theorem spokenLines_eq_spoken (text : List Char) :
    spokenLines text = spoken 1 ((lines text).map trim) := by
  suffices general : ∀ (pieces : List (List Char)) (number : Nat),
      ((pieces.zipIdx number).filterMap fun entry =>
        if isSilent (trim entry.1) then none else some (⟨entry.2, trim entry.1⟩ : Line)) =
          spoken number (pieces.map trim) by
    exact general (lines text) 1
  intro pieces
  induction pieces with
  | nil => exact fun _ => rfl
  | cons piece rest inductionHypothesis =>
      intro number
      rw [List.zipIdx_cons, List.filterMap_cons, inductionHypothesis, List.map_cons, spoken]
      cases isSilent (trim piece) <;> rfl

theorem map_trim_of_firm {texts : List (List Char)} (firm : ∀ text ∈ texts, Firm text) :
    texts.map trim = texts := by
  rw [List.map_congr_left fun text member => (firm text member).trim_eq, List.map_id']

/-- Firm texts that are written on lines of their own are found there, if they say something. -/
theorem spokenLines_firm {texts : List (List Char)} (firm : ∀ text ∈ texts, Firm text) :
    spokenLines (texts.flatMap (· ++ ['\n'])) = spoken 1 texts := by
  rw [spokenLines_eq_spoken, lines_of_firm firm, map_trim_of_firm firm]

theorem Firm.not_isSilent {text : List Char} (firm : Firm text) (loud : text.head? ≠ some '#') :
    isSilent text = false := by
  simp [isSilent, firm.ne_nil, loud]

theorem isSilent_of_comment {word : List Char} (nonempty : word ≠ [])
    (comment : word.head? = some '#') (rest : List (List Char)) :
    isSilent (sentence (word :: rest)) = true := by
  rw [isSilent, head?_sentence nonempty, comment]
  simp

/-- Words that make up a line of a text that is neither blank nor a comment. -/
structure IsSentence (words : List (List Char)) : Prop where
  tokens : ∀ word ∈ words, isToken word = true
  nonempty : words ≠ []
  spoken : (sentence words).head? ≠ some '#'

theorem IsSentence.firm {words : List (List Char)} (valid : IsSentence words) :
    Firm (sentence words) :=
  Firm.sentence (fun word member => Firm.of_isToken (valid.tokens word member)) valid.nonempty

/-- Sentences as numbered lines, the first of them with a given number. -/
def numberedLines (number : Nat) : List (List (List Char)) → List Line
  | [] => []
  | words :: rest => ⟨number, sentence words⟩ :: numberedLines (number + 1) rest

theorem numberedLines_append (number : Nat) (first second : List (List (List Char))) :
    numberedLines number (first ++ second) =
      numberedLines number first ++ numberedLines (number + first.length) second := by
  induction first generalizing number with
  | nil => rfl
  | cons words rest inductionHypothesis =>
      rw [List.cons_append, numberedLines, inductionHypothesis, numberedLines, List.cons_append,
        List.length_cons]
      congr 3
      omega

/-- Firm sentences that are no comments all say something. -/
theorem spoken_sentences {sentences : List (List (List Char))}
    (firm : ∀ words ∈ sentences, Firm (sentence words))
    (loud : ∀ words ∈ sentences, (sentence words).head? ≠ some '#') (number : Nat) :
    spoken number (sentences.map sentence) = numberedLines number sentences := by
  induction sentences generalizing number with
  | nil => rfl
  | cons words rest inductionHypothesis =>
      obtain ⟨wordsFirm, restFirm⟩ := List.forall_mem_cons.mp firm
      obtain ⟨wordsLoud, restLoud⟩ := List.forall_mem_cons.mp loud
      rw [List.map_cons, spoken_cons_of_loud (wordsFirm.not_isSilent wordsLoud), numberedLines,
        inductionHypothesis restFirm restLoud]

end ContactReplay.Text
