import Astra.Proofs.Complaints

/-!
# Spellings of tokens

Operators, angles, brackets and the delimiters of enclosures are spelled in one way each. An
operator is the longest one that begins the text ahead, and an angle is cut off only where no
operator begins; neither is cut off where a delimiter of a block comment begins, or, outside an
enclosure, a line comment. Two colons and single angles take their category from their neighbors.
-/

namespace Astra

/-- Operators and angles with the spelling of each. -/
def symbolSpellings : List (Category × List Char) :=
  [(.openAngle, "<".toList), (.closeAngle, ">".toList),
   (.doubleRightAngle, ">>".toList), (.doubleLeftAngle, "<<".toList), (.equals, "=".toList),
   (.dash, "-".toList), (.colonAssigner, ":".toList), (.doubleColonAssigner, "::".toList),
   (.tripleColonAssigner, ":::".toList), (.rightChevron, ">>>".toList),
   (.leftChevron, "<<<".toList), (.rightEqualsArrow, "=>".toList), (.leftEqualsArrow, "<=".toList),
   (.rightTildeArrow, "~>".toList), (.leftTildeArrow, "<~".toList), (.rightDashArrow, "->".toList),
   (.leftDashArrow, "<-".toList), (.rightPlusArrow, "+>".toList), (.leftPlusArrow, "<+".toList),
   (.hashColon, "#:".toList), (.doubleHashColon, "##:".toList),
   (.doubleHashDoubleColon, "##::".toList), (.colonRightAngle, ":>".toList),
   (.colonDoubleRightAngle, ":>>".toList), (.doubleColonDoubleRightAngle, "::>>".toList),
   (.doubleColonEquals, "::=".toList), (.doubleColonRightAngle, "::>".toList),
   (.plusEquals, "+=".toList), (.minusEquals, "-=".toList), (.timesEquals, "*=".toList),
   (.divisionEquals, "/=".toList), (.percentEquals, "%=".toList),
   (.doubleQuestionEquals, "??=".toList), (.doubleBangEquals, "!!=".toList),
   (.dotEquals, ".=".toList), (.doubleEquals, "==".toList), (.greaterOrEquals, ">=".toList),
   (.equalsOrLess, "=<".toList), (.greaterThan, ">".toList), (.lessThan, "<".toList),
   (.bangEquals, "!=".toList), (.questionEquals, "?=".toList), (.hashEquals, "#=".toList),
   (.doubleHashEquals, "##=".toList), (.dot, ".".toList), (.slash, "/".toList),
   (.doubleDot, "..".toList), (.tripleDot, "...".toList), (.doubleColonPrefix, "::".toList),
   (.dotBang, ".!".toList), (.bangDot, "!.".toList), (.questionDot, "?.".toList),
   (.dotQuestion, ".?".toList), (.doubleDotBang, "..!".toList), (.doubleDotQuestion, "..?".toList),
   (.hash, "#".toList), (.doubleHash, "##".toList), (.dotHash, ".#".toList),
   (.doubleDotHash, "..#".toList), (.plus, "+".toList), (.star, "*".toList), (.percent, "%".toList),
   (.bang, "!".toList), (.doubleBang, "!!".toList), (.question, "?".toList),
   (.doubleQuestion, "??".toList), (.ampersand, "&".toList), (.pipe, "|".toList),
   (.caret, "^".toList), (.tilde, "~".toList), (.atSign, "@".toList), (.dollar, "$".toList),
   (.comma, ",".toList), (.semicolon, ";".toList)]

/-- Brackets and the delimiters of enclosures with the spelling of each. -/
def delimiterSpellings : List (Category × List Char) :=
  [(.openBlockComment, "/*".toList), (.closeBlockComment, "*/".toList),
   (.openParenthesis, "(".toList), (.closeParenthesis, ")".toList), (.openBrace, "\x7b".toList),
   (.closeBrace, "\x7d".toList), (.openBracket, "[".toList), (.closeBracket, "]".toList),
   (.openDoubleQuote, "\x22".toList), (.closeDoubleQuote, "\x22".toList),
   (.openSingleQuote, "\x27".toList), (.closeSingleQuote, "\x27".toList),
   (.openBacktick, "\x60".toList), (.closeBacktick, "\x60".toList)]

namespace Category

/-- The spelling of a category whose tokens are all spelled alike. -/
def spelling? (category : Category) : Option (List Char) :=
  (symbolSpellings ++ delimiterSpellings).lookup category

/-- Whether the tokens of a category are operators or angles. -/
def isSymbol (category : Category) : Bool := (symbolSpellings.lookup category).isSome

end Category

theorem Assoc.exists_lookup_of_mem {κ β : Type} [BEq κ] [LawfulBEq κ] {key : κ} {value : β}
    {table : List (κ × β)} (member : (key, value) ∈ table) :
    ∃ found, table.lookup key = some found :=
  Option.isSome_iff_exists.mp (List.lookup_isSome_iff.mpr ⟨_, member, beq_self_eq_true key⟩)

namespace Lexing

section Tables

theorem operators_spelled : ∀ entry ∈ operators,
    entry.2.isSymbol = true ∧ entry.2.spelling? = some entry.1 := by decide +kernel

theorem operators_length : ∀ entry ∈ operators, entry.1.length ∈ [4, 3, 2, 1] := by decide

variable {category : Category} {text : List Char}

theorem spelling?_lineComment (found : lineComment? text = some category) :
    category.spelling? = none := by
  unfold lineComment? at found
  split at found <;> cases found <;> rfl

theorem spelling?_word (text : List Char) : (wordCategory text).spelling? = none := by
  rw [wordCategory]
  split
  · split <;> rfl
  · split
    · rfl
    · split <;> rfl

theorem spelling?_bracket {c : Char} (found : bracket? c = some category) :
    category.spelling? = some [c] := by
  unfold bracket? at found
  split at found <;> cases found <;> rfl

theorem angle?_spelled {previous next : Option Char} {c : Char}
    (found : angle? previous c next = some category) :
    category.isSymbol = true ∧ category.spelling? = some [c] := by
  unfold angle? at found
  split at found
  · cases found
    split <;> exact ⟨rfl, rfl⟩
  · cases found
    split <;> exact ⟨rfl, rfl⟩
  · cases found

theorem Enclosure.spelling?_closer (e : Enclosure) : e.closer.spelling? = some e.closingText := by
  cases e <;> rfl

theorem Enclosure.spelling?_opener (e : Enclosure) : e.opener.spelling? = some e.openingText := by
  cases e <;> rfl

theorem spelled_of_isSymbol (symbol : category.isSymbol = true) :
    ∃ spelling, category.spelling? = some spelling := by
  cases category <;> first | exact ⟨_, rfl⟩ | cases symbol

end Tables

section Longest

variable {text spelling : List Char} {category : Category}

theorem leadingOperator?_listed (found : leadingOperator? text = some (category, spelling)) :
    (spelling, category) ∈ operators := by
  obtain ⟨n, _, hn⟩ := List.exists_of_findSome?_eq_some found
  obtain ⟨value, hget, hvalue⟩ := Option.map_eq_some_iff.mp hn
  obtain ⟨rfl, rfl⟩ := Prod.mk.inj hvalue
  exact Assoc.mem_of_lookup hget

/-- An operator at the start of a text is found when as many characters are tried as it has. -/
theorem found_of_begins {entry : List Char × Category} (listed : entry ∈ operators)
    (begins : entry.1 <+: text) :
    ∃ found, (operators.lookup (text.take entry.1.length)).map
      (·, text.take entry.1.length) = some (found, entry.1) := by
  obtain ⟨found, hget⟩ := Assoc.exists_lookup_of_mem listed
  rw [← List.prefix_iff_eq_take.mp begins, hget]
  exact ⟨found, rfl⟩

/-- No operator that begins a text is longer than the one that is cut off. -/
theorem leadingOperator?_longest (found : leadingOperator? text = some (category, spelling))
    {entry : List Char × Category} (listed : entry ∈ operators)
    (longer : spelling.length < entry.1.length) : ¬ entry.1 <+: text := by
  intro begins
  obtain ⟨earlier, n, later, counts, hn, nothing⟩ := List.findSome?_eq_some_iff.mp found
  obtain ⟨value, _, hvalue⟩ := Option.map_eq_some_iff.mp hn
  have cut : text.take n = spelling := (Prod.mk.inj hvalue).2
  have fits := begins.length_le
  have more : n < entry.1.length := by
    have length := congrArg List.length cut
    rw [List.length_take] at length
    omega
  -- Lengths are tried in descending order, so the longer one was tried before.
  have descending : ([4, 3, 2, 1] : List Nat).Pairwise (· > ·) := by decide
  have tried := operators_length entry listed
  rw [counts] at descending tried
  have before : entry.1.length ∈ earlier := by
    rcases List.mem_append.mp tried with before | after
    · exact before
    · have rest := (List.pairwise_append.mp descending).2.1
      rcases List.mem_cons.mp after with same | after
      · omega
      · have smaller := (List.pairwise_cons.mp rest).1 _ after
        omega
  obtain ⟨other, hother⟩ := found_of_begins listed begins
  rw [nothing _ before] at hother
  cases hother

theorem not_begins_of_leadingOperator? (nothing : leadingOperator? text = none)
    {entry : List Char × Category} (listed : entry ∈ operators) : ¬ entry.1 <+: text := by
  intro begins
  obtain ⟨other, hother⟩ := found_of_begins listed begins
  rw [List.findSome?_eq_none_iff.mp nothing _ (operators_length entry listed)] at hother
  cases hother

/-- What is cut off is what the table lists, but for two colons directly before a letter. -/
theorem operator?_listed (found : operator? text = some (category, spelling)) :
    ∃ listed, leadingOperator? text = some (listed, spelling) ∧
      category = if listed = .doubleColonAssigner then
        if (text[2]?).any Text.isLetter then .doubleColonPrefix else .doubleColonAssigner
      else listed := by
  unfold operator? at found
  split at found
  · rename_i colons lead
    split at found
    · rename_i letter
      cases found
      exact ⟨_, lead, by rw [if_pos rfl, if_pos letter]⟩
    · rename_i other
      cases found
      exact ⟨_, lead, by rw [if_pos rfl, if_neg other]⟩
  · rename_i unlike
    refine ⟨category, found, ?_⟩
    rw [if_neg]
    rintro rfl
    exact unlike _ found

theorem leadingOperator?_of_operator?_none (nothing : operator? text = none) :
    leadingOperator? text = none := by
  unfold operator? at nothing
  split at nothing
  · split at nothing <;> cases nothing
  · exact nothing

theorem operator?_spelled (found : operator? text = some (category, spelling)) :
    category.isSymbol = true ∧ category.spelling? = some spelling := by
  obtain ⟨listed, lead, rfl⟩ := operator?_listed found
  have spelled := operators_spelled _ (leadingOperator?_listed lead)
  split
  · rename_i colons
    subst colons
    have same : some "::".toList = some spelling := spelled.2
    cases same
    split <;> exact ⟨rfl, rfl⟩
  · exact spelled

end Longest

/-- A lexeme of a category with one spelling is spelled so. -/
theorem Made.spelled {within : Option Enclosure} {previous : Option Char} {c : Char}
    {rest text : List Char} {category : Category}
    (made : Made within previous c rest (.lexeme category text)) {spelling : List Char}
    (fixed : category.spelling? = some spelling) : text = spelling := by
  cases made with
  | closing e _ _ => exact Option.some.inj (e.spelling?_closer.symm.trans fixed)
  | comment _ found =>
    rw [spelling?_lineComment found] at fixed
    cases fixed
  | plain _ _ found =>
    cases found with
    | blockOpening _ => exact Option.some.inj fixed
    | blockClosing _ => exact Option.some.inj fixed
    | escape _ => cases fixed
    | @quote e found =>
      rw [e.spelling?_opener, ← ofQuote?_spelling found] at fixed
      exact Option.some.inj fixed
    | bracket found => exact Option.some.inj ((spelling?_bracket found).symm.trans fixed)
    | word _ =>
      rw [spelling?_word] at fixed
      cases fixed
    | operator found => exact Option.some.inj ((operator?_spelled found).2.symm.trans fixed)
    | angle found => exact Option.some.inj ((angle?_spelled found).2.symm.trans fixed)

/-- A lexeme of a category without a spelling is a line comment, an escape or a word. -/
theorem Made.unspelled {within : Option Enclosure} {previous : Option Char} {c : Char}
    {rest text : List Char} {category : Category}
    (made : Made within previous c rest (.lexeme category text))
    (free : category.spelling? = none) :
    (within = none ∧ lineComment? (c :: rest) = some category ∧ text = restOfLine (c :: rest)) ∨
    category = .escape ∨
    (isWordChar c = true ∧ text = leadingWord (c :: rest) ∧ category = wordCategory text) := by
  cases made with
  | closing e _ _ => cases e.spelling?_closer.symm.trans free
  | comment outside found => exact .inl ⟨outside, found, rfl⟩
  | plain _ _ found =>
    cases found with
    | blockOpening _ => cases free
    | blockClosing _ => cases free
    | escape _ => exact .inr (.inl rfl)
    | @quote e _ => cases e.spelling?_opener.symm.trans free
    | bracket found => cases (spelling?_bracket found).symm.trans free
    | word isWordChar => exact .inr (.inr ⟨isWordChar, rfl, rfl⟩)
    | operator found => cases (operator?_spelled found).2.symm.trans free
    | angle found => cases (angle?_spelled found).2.symm.trans free

theorem State.made_of_step {s : State} {piece : Piece} (step : s.step = .piece piece) :
    ∃ c rest, s.ahead = c :: rest ∧
      Made (s.within.map Entered.enclosure) s.previous c rest piece := by
  obtain ⟨c, rest, ahead, _, rfl⟩ := State.piece_of_step step
  exact ⟨c, rest, ahead, pieceAt_made _ _ c rest⟩

/-- How an operator or an angle comes about at the start of `c :: rest`. -/
inductive SymbolAt (previous : Option Char) (c : Char) (rest : List Char) :
    Category → List Char → Prop where
  | operator {category : Category} {text : List Char}
      (found : operator? (c :: rest) = some (category, text)) :
      SymbolAt previous c rest category text
  | angle {category : Category} (unlisted : operator? (c :: rest) = none)
      (found : angle? previous c rest.head? = some category) : SymbolAt previous c rest category [c]

/-- An operator or an angle, and what does not begin where it stands. -/
structure Symbolic (within : Option Enclosure) (previous : Option Char) (c : Char)
    (rest : List Char) (category : Category) (text : List Char) : Prop where
  uncommented : comment? within (c :: rest) = none
  notOpening : ¬ ['/', '*'] <+: c :: rest
  notClosing : ¬ ['*', '/'] <+: c :: rest
  symbol : SymbolAt previous c rest category text

section Symbols

variable {within : Option Enclosure} {previous : Option Char} {c : Char} {rest text : List Char}
  {category : Category}

theorem plainLexeme?_symbol (found : plainLexeme? previous c rest = some (category, text))
    (symbol : category.isSymbol = true) :
    ¬ ['/', '*'] <+: c :: rest ∧ ¬ ['*', '/'] <+: c :: rest ∧
      SymbolAt previous c rest category text := by
  obtain ⟨spelling, fixed⟩ := spelled_of_isSymbol symbol
  unfold plainLexeme? at found
  split at found
  · cases found
    cases symbol
  · cases found
    cases symbol
  · cases found
    cases symbol
  · rename_i notOpening notClosing _
    refine ⟨?_, ?_, ?_⟩
    · rintro ⟨tail, same⟩
      obtain ⟨rfl, rfl⟩ := List.cons.inj same
      exact notOpening tail rfl rfl
    · rintro ⟨tail, same⟩
      obtain ⟨rfl, rfl⟩ := List.cons.inj same
      exact notClosing tail rfl rfl
    · split at found
      · rename_i e _
        cases found
        cases e <;> cases symbol
      · split at found
        · rename_i bracket
          cases found
          unfold bracket? at bracket
          split at bracket <;> cases bracket <;> cases symbol
        · split at found
          · cases found
            rw [spelling?_word] at fixed
            cases fixed
          · split at found
            · rename_i operator
              cases found
              exact .operator operator
            · rename_i unlisted
              obtain ⟨value, angle, hvalue⟩ := Option.map_eq_some_iff.mp found
              cases hvalue
              exact .angle unlisted angle

theorem closing?_closer (found : closing? within (c :: rest) = some (category, text)) :
    ∃ e : Enclosure, category = e.closer := by
  unfold closing? at found
  split at found
  · rename_i e
    split at found
    · cases found
      exact ⟨e, rfl⟩
    · cases found
  · cases found

theorem comment?_lineComment (found : comment? within (c :: rest) = some (category, text)) :
    lineComment? (c :: rest) = some category := by
  unfold comment? at found
  split at found
  · cases found
  · obtain ⟨value, line, hvalue⟩ := Option.map_eq_some_iff.mp found
    cases hvalue
    exact line

theorem pieceAt_symbolic (found : pieceAt within previous c rest = .lexeme category text)
    (symbol : category.isSymbol = true) : Symbolic within previous c rest category text := by
  unfold pieceAt at found
  split at found
  · cases found
  · split at found
    · rename_i lexeme
      cases found
      rcases Option.or_eq_some_iff.mp lexeme with closing | ⟨_, lexeme⟩
      · obtain ⟨e, rfl⟩ := closing?_closer closing
        cases e <;> cases symbol
      · rcases Option.or_eq_some_iff.mp lexeme with comment | ⟨uncommented, plain⟩
        · obtain ⟨spelling, fixed⟩ := spelled_of_isSymbol symbol
          rw [spelling?_lineComment (comment?_lineComment comment)] at fixed
          cases fixed
        · obtain ⟨notOpening, notClosing, symbolAt⟩ := plainLexeme?_symbol plain symbol
          exact ⟨uncommented, notOpening, notClosing, symbolAt⟩
    · split at found <;> cases found

/-- A lexeme that begins with a colon or an angle is an operator or an angle. -/
theorem Made.isSymbol_of_head (made : Made within previous c rest (.lexeme category text))
    (first : c ∈ [':', '<', '>']) : category.isSymbol = true := by
  have head : c = ':' ∨ c = '<' ∨ c = '>' := by simpa using first
  cases made with
  | closing e _ begins =>
    obtain ⟨tail, same⟩ := begins
    rcases head with rfl | rfl | rfl <;> cases e <;> cases same
  | comment _ found =>
    rcases head with rfl | rfl | rfl <;> simp [lineComment?] at found
  | plain _ _ found =>
    cases found with
    | blockOpening begins =>
      obtain ⟨tail, same⟩ := begins
      rcases head with rfl | rfl | rfl <;> cases same
    | blockClosing begins =>
      obtain ⟨tail, same⟩ := begins
      rcases head with rfl | rfl | rfl <;> cases same
    | escape begins =>
      obtain ⟨tail, same⟩ := begins
      rcases head with rfl | rfl | rfl <;> cases same
    | quote found => rcases head with rfl | rfl | rfl <;> cases found
    | bracket found => rcases head with rfl | rfl | rfl <;> cases found
    | word isWordChar => rcases head with rfl | rfl | rfl <;> exact absurd isWordChar (by decide)
    | operator found => exact (operator?_spelled found).1
    | angle found => exact (angle?_spelled found).1

namespace SymbolAt

theorem longest (symbol : SymbolAt previous c rest category text) {entry : List Char × Category}
    (listed : entry ∈ operators) (longer : text.length < entry.1.length) :
    ¬ entry.1 <+: c :: rest := by
  cases symbol with
  | operator found =>
    obtain ⟨_, lead, _⟩ := operator?_listed found
    exact leadingOperator?_longest lead listed longer
  | angle unlisted _ =>
    exact not_begins_of_leadingOperator? (leadingOperator?_of_operator?_none unlisted) listed

theorem colons (symbol : SymbolAt previous c rest category text) (spelled : text = [':', ':']) :
    category = if ((c :: rest)[2]?).any Text.isLetter then .doubleColonPrefix
      else .doubleColonAssigner := by
  have only : ∀ entry ∈ operators, entry.1 = [':', ':'] → entry.2 = .doubleColonAssigner := by
    decide
  cases symbol with
  | operator found =>
    obtain ⟨listed, lead, same⟩ := operator?_listed found
    have assigner : listed = .doubleColonAssigner :=
      only _ (leadingOperator?_listed lead) spelled
    rw [same, if_pos assigner]
  | angle _ _ => cases spelled

/-- No operator is a single angle. -/
theorem angle_of_single (symbol : SymbolAt previous c rest category text) (single : text = [c])
    (angle : c = '<' ∨ c = '>') : angle? previous c rest.head? = some category := by
  have none : ∀ entry ∈ operators, entry.1 ≠ ['<'] ∧ entry.1 ≠ ['>'] := by decide
  cases symbol with
  | operator found =>
    obtain ⟨listed, lead, _⟩ := operator?_listed found
    have unlike := none _ (leadingOperator?_listed lead)
    rcases angle with rfl | rfl
    · exact absurd single unlike.1
    · exact absurd single unlike.2
  | angle _ found => exact found

end SymbolAt

end Symbols

section Places

variable {source : List Char} {pieces : List Piece} {s : State}

theorem drop_offset (run : Run (State.start source) pieces s) : source.drop s.offset = s.ahead := by
  have whole : source = textOf pieces ++ s.ahead := run.ahead_eq
  have place : s.offset = (textOf pieces).length := run.offset_eq.trans (Nat.zero_add _)
  rw [place, whole, List.drop_left]

theorem offset_le_length (run : Run (State.start source) pieces s) : s.offset ≤ source.length := by
  have whole : source = textOf pieces ++ s.ahead := run.ahead_eq
  have place : s.offset = (textOf pieces).length := run.offset_eq.trans (Nat.zero_add _)
  rw [place, whole, List.length_append]
  exact Nat.le_add_right _ _

theorem getLast?_take_offset (run : Run (State.start source) pieces s) :
    (source.take s.offset).getLast? = s.previous := by
  have whole : source = textOf pieces ++ s.ahead := run.ahead_eq
  have place : s.offset = (textOf pieces).length := run.offset_eq.trans (Nat.zero_add _)
  rw [place, whole, List.take_left, run.previous_eq]
  exact (Option.or_none).symm

/-- The text of a token is what was cut off for it. -/
theorem text_of_begins (run : Run (State.start source) pieces s) {text : List Char}
    (begins : text <+: s.ahead) (category : Category) :
    Token.text ⟨category, s.offset, text.length⟩ source = text := by
  show Text.slice source s.offset (s.offset + text.length : Nat) = text
  rw [Text.slice_ofNat, List.drop_take, drop_offset run, Nat.add_sub_cancel_left]
  exact (List.prefix_iff_eq_take.mp begins).symm

/-- The category and the text of a lexeme. -/
def Piece.lexeme? : Piece → Option (Category × List Char)
  | .lexeme category text => some (category, text)
  | _ => none

/-- The tokens of pieces that stand between two texts are their lexemes. -/
theorem tokensFrom_lexemes (before : List Char) (pieces : List Piece) (after : List Char) :
    (tokensFrom before.length pieces).map
      (fun token => (token.category, token.text (before ++ textOf pieces ++ after))) =
      pieces.filterMap Piece.lexeme? := by
  induction pieces generalizing before with
  | nil => rfl
  | cons piece rest ih =>
    have later := ih (before ++ piece.text)
    rw [List.length_append, List.append_assoc before, ← textOf_cons] at later
    cases piece with
    | lexeme category text =>
      have cut : Token.text ⟨category, before.length, text.length⟩
          (before ++ textOf (.lexeme category text :: rest) ++ after) = text := by
        show Text.slice _ before.length (before.length + text.length : Nat) = text
        rw [Text.slice_ofNat, List.append_assoc, textOf_cons, List.drop_take, List.drop_left,
          Nat.add_sub_cancel_left, List.append_assoc]
        exact List.take_left
      rw [tokensFrom, List.map_cons, cut]
      exact congrArg ((category, text) :: ·) later
    | blank c => exact later
    | stray c => exact later
    | danglingEscape => exact later

theorem endOfText_text (source : List Char) :
    Token.text ⟨.endOfText, source.length, 0⟩ source = [] := by
  show Text.slice source source.length (source.length + 0 : Nat) = []
  rw [Text.slice_ofNat, Nat.add_zero, List.take_length, List.drop_length]

/-- The tokens of a source are its lexemes and what the end of the scan adds, which has no text. -/
theorem tokens_lexemes (source : List Char) :
    (tokenize source).tokens.map (fun token => (token.category, token.text source)) =
      (scan source).pieces.filterMap Piece.lexeme? ++
        ((scan source).ending.tokens source.length).map fun token => (token.category, []) := by
  obtain ⟨t, _, _, whole, _⟩ := scan_spec source
  have lexemes := tokensFrom_lexemes [] (scan source).pieces t.ahead
  rw [List.nil_append, ← whole] at lexemes
  rw [tokenize_tokens, tokens, List.map_append]
  refine congrArg₂ (· ++ ·) lexemes ?_
  have empty := congrArg (fun text => [(Category.endOfText, text)]) (endOfText_text source)
  cases (scan source).ending with
  | complete => exact empty
  | unterminated entered => exact empty
  | nul offset => rfl

/-- The point of a scan at which the token of a lexeme is made. -/
theorem point_of_lexeme {token : Token} (member : token ∈ tokensFrom 0 (scan source).pieces) :
    ∃ pieces s, Run (State.start source) pieces s ∧ token.start = s.offset ∧
      token.length = (token.text source).length ∧
      s.step = .piece (.lexeme token.category (token.text source)) := by
  obtain ⟨done, category, text, later, split, rfl⟩ := mem_tokensFrom member
  obtain ⟨s, t, run, step, _⟩ := scan_split split
  have place : s.offset = 0 + (textOf done).length := run.offset_eq
  have begins : text <+: s.ahead := (State.cut_of_step step).text_begins
  rw [← place, text_of_begins run begins category]
  exact ⟨done, s, run, rfl, rfl, step⟩

/-- The tokens up to a point of a scan at which a lexeme is cut off, and the token of that lexeme. -/
theorem tokens_through (run : Run (State.start source) pieces s) {category : Category}
    {text : List Char} (step : s.step = .piece (.lexeme category text)) :
    tokensFrom 0 pieces ++ [⟨category, s.offset, text.length⟩] <+: (tokenize source).tokens := by
  have whole : (scan source).pieces =
      pieces ++ .lexeme category text :: (s.advance (.lexeme category text)).scan.pieces := by
    rw [scan, run.scan_eq, State.scan_of_piece step]
  have place : s.offset = 0 + (textOf pieces).length := run.offset_eq
  rw [tokenize_tokens, tokens, whole, tokensFrom_append, ← place, tokensFrom, List.append_assoc]
  exact (List.prefix_append_right_inj _).mpr ((List.prefix_cons_inj _).mpr List.nil_prefix)

end Places

/-- The texts that begin a line comment. -/
def lineMarkers : List (List Char) :=
  ["//".toList, "###".toList, "# ".toList, "#\t".toList]

theorem not_begins_of_lineComment? {text marker : List Char} (nothing : lineComment? text = none)
    (member : marker ∈ lineMarkers) : ¬ marker <+: text := by
  rintro ⟨tail, rfl⟩
  have cases : marker = ['/', '/'] ∨ marker = ['#', '#', '#'] ∨ marker = ['#', ' '] ∨
      marker = ['#', '\t'] := by simpa [lineMarkers] using member
  rcases cases with rfl | rfl | rfl | rfl <;> cases nothing

/-- Whether the characters on both sides of the one at an offset exist and are blank. -/
def isSpaced (source : List Char) (i : Nat) : Bool :=
  (source.take i).getLast?.any Text.isBlank && (source[i + 1]?).any Text.isBlank

/-- What is known of a token that is an operator or an angle. -/
structure LongestSymbol (source : List Char) (token : Token) (i : Nat) : Prop where
  longest : ∀ entry ∈ operators, token.length < entry.1.length → ¬ entry.1 <+: source.drop i
  notOpening : ¬ "/*".toList <+: source.drop i
  notClosing : ¬ "*/".toList <+: source.drop i
  /-- It was made at this point of the scan, and no line comment begins there unless the scan is in an
  enclosure. -/
  uncommented : ∃ pieces s, Run (State.start source) pieces s ∧ s.offset = i ∧
    s.step = .piece (.lexeme token.category (token.text source)) ∧
    (s.within = none → ∀ marker ∈ lineMarkers, ¬ marker <+: source.drop i)

section Tokens

variable {source : List Char} {token : Token}

/-- The facts about a symbol at the point of a scan where it is cut off. -/
theorem symbolic_of_step {s : State} {category : Category} {text : List Char}
    (step : s.step = .piece (.lexeme category text)) (symbol : category.isSymbol = true) :
    ∃ c rest, s.ahead = c :: rest ∧
      Symbolic (s.within.map Entered.enclosure) s.previous c rest category text := by
  obtain ⟨c, rest, ahead, _, hpiece⟩ := State.piece_of_step step
  exact ⟨c, rest, ahead, pieceAt_symbolic hpiece.symm symbol⟩

theorem isSymbol_of_step {s : State} {category : Category} {c : Char} {rest : List Char}
    (step : s.step = .piece (.lexeme category (c :: rest))) (first : c ∈ [':', '<', '>']) :
    category.isSymbol = true := by
  obtain ⟨d, ahead, hahead, _, hpiece⟩ := State.piece_of_step step
  obtain ⟨tail, begins⟩ := (State.cut_of_step step).text_begins
  rw [hahead] at begins
  obtain ⟨rfl, _⟩ := List.cons.inj begins
  have made := pieceAt_made (s.within.map Entered.enclosure) s.previous c ahead
  rw [← hpiece] at made
  exact made.isSymbol_of_head first

theorem longestSymbol {pieces : List Piece} {s : State} (run : Run (State.start source) pieces s)
    (step : s.step = .piece (.lexeme token.category (token.text source)))
    (length : token.length = (token.text source).length) (symbol : token.category.isSymbol = true) :
    LongestSymbol source token s.offset := by
  obtain ⟨c, rest, ahead, symbolic⟩ := symbolic_of_step step symbol
  have place : source.drop s.offset = c :: rest := (drop_offset run).trans ahead
  refine ⟨?_, ?_, ?_, pieces, s, run, rfl, step, ?_⟩
  · intro entry listed longer
    rw [place]
    exact symbolic.symbol.longest listed (by omega)
  · rw [place]
    exact symbolic.notOpening
  · rw [place]
    exact symbolic.notClosing
  · intro outside marker member
    have uncommented := symbolic.uncommented
    rw [outside] at uncommented
    rw [place]
    exact not_begins_of_lineComment? (Option.map_eq_none_iff.mp uncommented) member

variable {pieces : List Piece} {s : State} {category : Category}
  (run : Run (State.start source) pieces s)

include run

theorem colons_of_step (step : s.step = .piece (.lexeme category [':', ':'])) :
    category = if (source[s.offset + 2]?).any Text.isLetter then .doubleColonPrefix
      else .doubleColonAssigner := by
  obtain ⟨c, rest, ahead, symbolic⟩ := symbolic_of_step step (isSymbol_of_step step (by decide))
  have next : source[s.offset + 2]? = (c :: rest)[2]? := by
    rw [← List.getElem?_drop, drop_offset run, ahead]
  rw [next]
  exact symbolic.symbol.colons rfl

/-- A single angle is told by the characters on both sides of it. -/
theorem angle_of_step {c : Char} (step : s.step = .piece (.lexeme category [c]))
    (angle : c = '<' ∨ c = '>') :
    angle? (source.take s.offset).getLast? c source[s.offset + 1]? = some category := by
  have first : c ∈ [':', '<', '>'] := by
    rcases angle with rfl | rfl <;> decide
  obtain ⟨d, rest, ahead, symbolic⟩ := symbolic_of_step step (isSymbol_of_step step first)
  obtain ⟨tail, begins⟩ := (State.cut_of_step step).text_begins
  rw [ahead] at begins
  obtain ⟨rfl, _⟩ := List.cons.inj begins
  have next : source[s.offset + 1]? = rest.head? := by
    rw [← List.getElem?_drop, drop_offset run, ahead, List.getElem?_cons_succ,
      List.head?_eq_getElem?]
  rw [getLast?_take_offset run, next]
  exact symbolic.symbol.angle_of_single rfl angle

end Tokens

theorem lexeme_or_end {source : List Char} {token : Token} (member : token ∈ tokens source) :
    token ∈ tokensFrom 0 (scan source).pieces ∨ token = ⟨.endOfText, source.length, 0⟩ := by
  rcases tokens_cases source with ⟨_, htokens⟩ | ⟨_, htokens⟩
  · exact .inl (htokens ▸ member)
  · rw [htokens, List.mem_append, List.mem_singleton] at member
    exact member

/-- Every token of a category with one spelling is spelled so. An operator or an angle is the longest
symbol at its place: no longer operator begins there, no delimiter of a block comment, and outside an
enclosure no line comment. Two colons stand before a letter exactly when they are a prefix, and a
single angle has blanks on both sides exactly when it compares. -/
theorem tokens_spelled_longest (source : List Char) (token : Token)
    (member : token ∈ (tokenize source).tokens) :
    ∃ i : Nat, token.start = i ∧
      (∀ spelling, token.category.spelling? = some spelling → token.text source = spelling) ∧
      (token.category.isSymbol = true → LongestSymbol source token i) ∧
      (token.text source = "::".toList → token.category =
        if (source[i + 2]?).any Text.isLetter then .doubleColonPrefix else .doubleColonAssigner) ∧
      (token.text source = "<".toList → token.category =
        if isSpaced source i then .lessThan else .openAngle) ∧
      (token.text source = ">".toList → token.category =
        if isSpaced source i then .greaterThan else .closeAngle) := by
  rw [tokenize_tokens] at member
  rcases lexeme_or_end member with lexeme | rfl
  · obtain ⟨pieces, s, run, start, length, step⟩ := point_of_lexeme lexeme
    refine ⟨s.offset, start, ?_, longestSymbol run step length, ?_, ?_, ?_⟩
    · intro spelling fixed
      obtain ⟨c, rest, _, _, hpiece⟩ := State.piece_of_step step
      have made := pieceAt_made (s.within.map Entered.enclosure) s.previous c rest
      rw [← hpiece] at made
      exact made.spelled fixed
    · intro colons
      rw [colons] at step
      exact colons_of_step run step
    · intro left
      rw [left] at step
      exact (Option.some.inj (angle_of_step run step (.inl rfl))).symm
    · intro right
      rw [right] at step
      exact (Option.some.inj (angle_of_step run step (.inr rfl))).symm
  · rw [endOfText_text]
    exact ⟨source.length, rfl, nofun, nofun, nofun, nofun, nofun⟩

/-- Inside a quotation two slashes begin no comment; each is the longest operator at its place. -/
theorem tokens_spelled_longest_quoted :
    (⟨.slash, 1, 1⟩ : Token) ∈ (tokenize "\"//\"".toList).tokens ∧
    Token.text ⟨.slash, 1, 1⟩ "\"//\"".toList = "/".toList ∧
    LongestSymbol "\"//\"".toList ⟨.slash, 1, 1⟩ 1 := by
  have member : (⟨.slash, 1, 1⟩ : Token) ∈ (tokenize "\"//\"".toList).tokens := by decide +kernel
  obtain ⟨i, start, spelled, longest, _⟩ := tokens_spelled_longest _ _ member
  obtain rfl : 1 = i := Int.ofNat_inj.mp start
  exact ⟨member, spelled _ rfl, longest rfl⟩

end Lexing

end Astra
