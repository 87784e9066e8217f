import Mathlib.Data.List.TakeWhile
import Astra.Proofs.Characters
import Astra.Proofs.Spellings

/-!
# Words and numbers

A word is cut off as far as it goes: a run of word characters, or digits with one point among them
and word characters after it. Its category is read off its text alone, and tells numbers, letters
and up to three underscores apart. Since a second point never belongs to a word, digits with many
points are cut into numbers of two groups each.
-/

namespace Astra

namespace Text

variable {text : List Char}

theorem allDigits_iff : allDigits text = true ↔ text ≠ [] ∧ ∀ c ∈ text, isDigit c = true := by
  simp [allDigits]

theorem allLetters_iff : allLetters text = true ↔ text ≠ [] ∧ ∀ c ∈ text, isLetter c = true := by
  simp [allLetters]

end Text

namespace Lexing

/-- The categories of words and numbers. -/
def wordCategories : List Category :=
  [.word, .hybrid, .number, .underscore, .doubleUnderscore, .tripleUnderscore]

/-- The texts of words: word characters, or digits, a point, a digit, and word characters. -/
inductive Worded : List Char → Prop where
  | run {text : List Char} (nonempty : text ≠ []) (chars : ∀ c ∈ text, isWordChar c = true) :
      Worded text
  | pointed {whole part : List Char} {first : Char} (digits : Text.allDigits whole = true)
      (digit : Text.isDigit first = true) (chars : ∀ c ∈ part, isWordChar c = true) :
      Worded (whole ++ '.' :: first :: part)

/-- Digits, or digits on both sides of a point. -/
def Numeric (text : List Char) : Prop :=
  Text.allDigits text = true ∨ ∃ whole part, text = whole ++ '.' :: part ∧
    Text.allDigits whole = true ∧ Text.allDigits part = true

/-- A word that what comes after it does not go on with. -/
structure Maximal (text after : List Char) : Prop where
  stops : ∀ c, after.head? = some c → Text.isAlphanumeric c = false ∧ c ≠ '_'
  pointless : Text.allDigits text = true → ∀ c, ['.', c] <+: after → Text.isDigit c = false

/-- When a word is of which category. -/
structure WordKind (text : List Char) (category : Category) : Prop where
  number : category = .number ↔ Numeric text
  word : category = .word ↔ Text.allLetters text = true
  underscore : category = .underscore ↔ text = "_".toList
  doubleUnderscore : category = .doubleUnderscore ↔ text = "__".toList
  tripleUnderscore : category = .tripleUnderscore ↔ text = "___".toList
  hybrid : category = .hybrid ↔ ¬ Numeric text ∧ Text.allLetters text = false ∧
    text ∉ ["_".toList, "__".toList, "___".toList]

section Texts

variable {text whole part : List Char}

theorem ne_point_of_isWordChar {c : Char} (isWord : isWordChar c = true) : c ≠ '.' := by
  rintro rfl
  exact absurd isWord (by decide)

theorem isWordChar_of_allDigits (digits : Text.allDigits text = true) :
    ∀ c ∈ text, isWordChar c = true :=
  fun c member => isWordChar_of_isDigit ((Text.allDigits_iff.mp digits).2 c member)

/-- A text with a point is not one of digits only. -/
theorem not_allDigits_of_point : Text.allDigits (whole ++ '.' :: part) = false := by
  rw [Bool.eq_false_iff]
  intro digits
  exact ne_point_of_isWordChar (isWordChar_of_allDigits digits '.' (by simp)) rfl

/-- A word has one point at most. -/
theorem Worded.count_point (worded : Worded text) : text.count '.' ≤ 1 := by
  have none : ∀ {chars : List Char}, (∀ c ∈ chars, isWordChar c = true) → chars.count '.' = 0 := by
    intro chars isWord
    rw [List.count_eq_zero]
    exact fun member => ne_point_of_isWordChar (isWord '.' member) rfl
  cases worded with
  | run _ chars => rw [none chars]; omega
  | @pointed whole part first digits digit chars =>
    have rest : (first :: part).count '.' = 0 := none (by
      intro c member
      rcases List.mem_cons.mp member with rfl | later
      · exact isWordChar_of_isDigit digit
      · exact chars c later)
    rw [List.count_append, none (isWordChar_of_allDigits digits), List.count_cons_self, rest]

/-- The test for numbers drops a point and looks at the rest; on words this tells whether digits
stand on both sides of it. -/
theorem Worded.numeric_iff (worded : Worded text) :
    (text.head?.any Text.isDigit && Text.allDigits (text.erase '.')) = true ↔ Numeric text := by
  have head : Text.allDigits text = true → text.head?.any Text.isDigit = true := by
    intro digits
    obtain ⟨nonempty, all⟩ := Text.allDigits_iff.mp digits
    obtain ⟨c, rest, rfl⟩ := List.exists_cons_of_ne_nil nonempty
    exact all c List.mem_cons_self
  rw [Bool.and_eq_true]
  cases worded with
  | run _ chars =>
    have pointless : '.' ∉ text := fun member => ne_point_of_isWordChar (chars '.' member) rfl
    rw [List.erase_of_not_mem pointless]
    constructor
    · rintro ⟨_, digits⟩
      exact .inl digits
    · rintro (digits | ⟨whole, part, rfl, _⟩)
      · exact ⟨head digits, digits⟩
      · exact absurd (by simp) pointless
  | @pointed whole part first digits digit chars =>
    obtain ⟨nonempty, all⟩ := Text.allDigits_iff.mp digits
    have pointless : '.' ∉ whole := fun member =>
      ne_point_of_isWordChar (isWordChar_of_allDigits digits '.' member) rfl
    rw [List.erase_append_right _ pointless, List.erase_cons_head]
    constructor
    · rintro ⟨_, erased⟩
      refine .inr ⟨whole, first :: part, rfl, digits, ?_⟩
      rw [Text.allDigits_iff] at erased ⊢
      exact ⟨List.cons_ne_nil _ _, fun c member => erased.2 c (List.mem_append_right _ member)⟩
    · rintro (none | ⟨left, right, same, leftDigits, rightDigits⟩)
      · rw [not_allDigits_of_point] at none
        cases none
      · obtain ⟨c, more, rfl⟩ := List.exists_cons_of_ne_nil nonempty
        refine ⟨all c List.mem_cons_self, ?_⟩
        -- Wherever the point is said to be, what is not a point is a digit.
        have isDigit : ∀ d ∈ (c :: more) ++ '.' :: first :: part, d ≠ '.' → Text.isDigit d = true := by
          intro d member other
          rw [same, List.mem_append, List.mem_cons] at member
          rcases member with before | point | after
          · exact (Text.allDigits_iff.mp leftDigits).2 d before
          · exact absurd point other
          · exact (Text.allDigits_iff.mp rightDigits).2 d after
        refine Text.allDigits_iff.mpr ⟨by simp, fun d member => ?_⟩
        rcases List.mem_append.mp member with before | after
        · exact all d before
        · rcases List.mem_cons.mp after with rfl | last
          · exact digit
          · exact isDigit d (by simp [last]) (ne_point_of_isWordChar (chars d last))

/-- A number holds a digit, so it is neither made of letters nor of underscores. -/
theorem Numeric.exists_digit (numeric : Numeric text) : ∃ c ∈ text, Text.isDigit c = true := by
  have first : ∀ {digits : List Char}, Text.allDigits digits = true →
      ∃ c ∈ digits, Text.isDigit c = true := by
    intro digits all
    obtain ⟨nonempty, isDigit⟩ := Text.allDigits_iff.mp all
    obtain ⟨c, rest, rfl⟩ := List.exists_cons_of_ne_nil nonempty
    exact ⟨c, List.mem_cons_self, isDigit c List.mem_cons_self⟩
  rcases numeric with digits | ⟨whole, part, rfl, digits, _⟩
  · exact first digits
  · obtain ⟨c, member, digit⟩ := first digits
    exact ⟨c, List.mem_append_left _ member, digit⟩

theorem Numeric.not_allLetters (numeric : Numeric text) : Text.allLetters text = false := by
  obtain ⟨c, member, digit⟩ := numeric.exists_digit
  rw [Bool.eq_false_iff]
  intro letters
  have letter := (Text.allLetters_iff.mp letters).2 c member
  rw [Text.not_isLetter_of_isDigit digit] at letter
  cases letter

/-- Underscores are neither digits nor letters, and their number tells them apart. -/
theorem wordCategory_underscores (nonempty : text ≠ []) (only : ∀ c ∈ text, c = '_') :
    WordKind text (wordCategory text) := by
  have notNumeric : ¬ Numeric text := by
    intro numeric
    obtain ⟨c, member, digit⟩ := numeric.exists_digit
    rw [only c member] at digit
    exact absurd digit (by decide)
  have notLetters : Text.allLetters text = false := by
    rw [Bool.eq_false_iff]
    intro letters
    obtain ⟨c, rest, rfl⟩ := List.exists_cons_of_ne_nil nonempty
    have letter := (Text.allLetters_iff.mp letters).2 c List.mem_cons_self
    rw [only c List.mem_cons_self] at letter
    exact absurd letter (by decide +kernel)
  have spelled : text = List.replicate text.length '_' := List.eq_replicate_iff.mpr ⟨rfl, only⟩
  rw [wordCategory, if_pos (by simpa using only)]
  split
  · rename_i length
    obtain rfl : text = ['_'] := by rw [spelled, length]; rfl
    exact ⟨by simp [notNumeric], by simp [notLetters], by simp, by simp, by simp, by simp⟩
  · rename_i length
    obtain rfl : text = ['_', '_'] := by rw [spelled, length]; rfl
    exact ⟨by simp [notNumeric], by simp [notLetters], by simp, by simp, by simp, by simp⟩
  · rename_i length
    obtain rfl : text = ['_', '_', '_'] := by rw [spelled, length]; rfl
    exact ⟨by simp [notNumeric], by simp [notLetters], by simp, by simp, by simp, by simp⟩
  · rename_i notOne notTwo notThree
    have one : text ≠ ['_'] := fun same => notOne (congrArg List.length same)
    have two : text ≠ ['_', '_'] := fun same => notTwo (congrArg List.length same)
    have three : text ≠ ['_', '_', '_'] := fun same => notThree (congrArg List.length same)
    exact ⟨by simp [notNumeric], by simp [notLetters], by simp [one], by simp [two], by simp [three],
      by simp [notNumeric, notLetters, one, two, three]⟩

theorem Worded.ne_nil (worded : Worded text) : text ≠ [] := by
  cases worded with
  | run nonempty _ => exact nonempty
  | pointed _ _ _ => simp

theorem Worded.kind (worded : Worded text) : WordKind text (wordCategory text) := by
  by_cases under : text.all (· = '_') = true
  · exact wordCategory_underscores worded.ne_nil (by simpa using under)
  · have one : text ≠ ['_'] := fun same => under (by rw [same]; rfl)
    have two : text ≠ ['_', '_'] := fun same => under (by rw [same]; rfl)
    have three : text ≠ ['_', '_', '_'] := fun same => under (by rw [same]; rfl)
    rw [wordCategory, if_neg under]
    by_cases number : (text.head?.any Text.isDigit && Text.allDigits (text.erase '.')) = true
    · have numeric := worded.numeric_iff.mp number
      have notLetters := numeric.not_allLetters
      rw [if_pos number]
      exact ⟨by simp [numeric], by simp [notLetters], by simp [one], by simp [two], by simp [three],
        by simp [numeric]⟩
    · have notNumeric := mt worded.numeric_iff.mpr number
      rw [if_neg number]
      cases letters : Text.allLetters text with
      | true =>
        exact ⟨by simp [notNumeric], by simp [letters], by simp [one], by simp [two], by simp [three],
          by simp [letters]⟩
      | false =>
        exact ⟨by simp [notNumeric], by simp [letters], by simp [one], by simp [two], by simp [three],
          by simp [notNumeric, letters, one, two, three]⟩

end Texts

section Cutting

variable {c : Char} {rest text after : List Char}

theorem head?_dropWhile_isWordChar (head : (text.dropWhile isWordChar).head? = some c) :
    Text.isAlphanumeric c = false ∧ c ≠ '_' := by
  have stops := List.head?_dropWhile_not isWordChar text
  rw [head] at stops
  simpa [isWordChar] using stops

/-- What a word is, and that it ends where nothing goes on with it. -/
theorem leadingWord_spec (rest : List Char) (first : isWordChar c = true) :
    ∃ after, c :: rest = leadingWord (c :: rest) ++ after ∧ Worded (leadingWord (c :: rest)) ∧
      Maximal (leadingWord (c :: rest)) after := by
  have chars : ∀ text : List Char, ∀ d ∈ text.takeWhile isWordChar, isWordChar d = true :=
    fun text d member => List.all_eq_true.mp List.all_takeWhile d member
  have worded : Worded ((c :: rest).takeWhile isWordChar) := .run (by simp [first]) (chars _)
  have whole : (c :: rest).takeWhile isWordChar ++ (c :: rest).dropWhile isWordChar = c :: rest :=
    List.takeWhile_append_dropWhile
  have stops : ∀ d, ((c :: rest).dropWhile isWordChar).head? = some d →
      Text.isAlphanumeric d = false ∧ d ≠ '_' := fun d => head?_dropWhile_isWordChar
  unfold leadingWord
  split
  · rename_i next more tail
    dsimp only
    split
    · rename_i both
      obtain ⟨digits, digit⟩ := Bool.and_eq_true_iff.mp both
      refine ⟨(next :: more).dropWhile isWordChar, ?_, ?_, fun d => head?_dropWhile_isWordChar, ?_⟩
      · rw [List.append_assoc, List.cons_append, List.takeWhile_append_dropWhile, ← tail, whole]
      · rw [List.takeWhile_cons_of_pos (isWordChar_of_isDigit digit)]
        exact .pointed digits digit (chars more)
      · intro all
        rw [not_allDigits_of_point] at all
        cases all
    · rename_i either
      refine ⟨_, whole.symm, worded, stops, ?_⟩
      rintro digits d ⟨later, same⟩
      rw [tail] at same
      obtain ⟨rfl, _⟩ := List.cons.inj (List.cons.inj same).2
      simpa [digits] using either
  · rename_i pointless
    refine ⟨_, whole.symm, worded, stops, ?_⟩
    rintro _ d ⟨later, same⟩
    exact (pointless d later same.symm).elim

/-- The characters that begin comments, escapes and delimiters. -/
def initials : List Char :=
  ['/', '*', '#', '\\', '\x22', '\x27', '\x60', '(', ')', '\x7b', '\x7d', '[', ']']

/-- Elsewhere a word, an operator or an angle is looked for. -/
theorem plainLexeme?_of_not_initial (unlike : c ∉ initials) (previous : Option Char) :
    plainLexeme? previous c rest =
      if isWordChar c then
        some (wordCategory (leadingWord (c :: rest)), leadingWord (c :: rest))
      else (operator? (c :: rest)).or ((angle? previous c rest.head?).map (·, [c])) := by
  have unquoted : Enclosure.ofQuote? c = none := by
    unfold Enclosure.ofQuote?
    split
    · exact absurd (by decide) unlike
    · exact absurd (by decide) unlike
    · exact absurd (by decide) unlike
    · rfl
  have unbracketed : bracket? c = none := by
    unfold bracket?
    split <;> first | rfl | exact absurd (by decide) unlike
  unfold plainLexeme?
  split
  · exact absurd (by decide) unlike
  · exact absurd (by decide) unlike
  · exact absurd (by decide) unlike
  · simp only [unquoted, unbracketed]
    cases operator? (c :: rest) with
    | none => rw [Option.none_or]
    | some found => rw [Option.some_or]

theorem pieceAt_of_not_initial (unlike : c ∉ initials) (notBlank : Text.isBlank c = false)
    {category : Category} {previous : Option Char}
    (found : plainLexeme? previous c rest = some (category, text)) (within : Option Enclosure) :
    pieceAt within previous c rest = .lexeme category text := by
  have unclosed : closing? within (c :: rest) = none := by
    cases within with
    | none => rfl
    | some e =>
      rw [closing?, if_neg]
      intro begins
      obtain ⟨tail, same⟩ := List.isPrefixOf_iff_prefix.mp begins
      cases e <;> cases same <;> exact absurd (by decide) unlike
  have uncommented : comment? within (c :: rest) = none := by
    cases within with
    | some e => rfl
    | none =>
      rw [comment?, Option.map_eq_none_iff]
      unfold lineComment?
      split <;> rename_i same
      · cases same
        exact absurd (by decide) unlike
      · cases same
        exact absurd (by decide) unlike
      · cases same
        exact absurd (by decide) unlike
      · cases same
        exact absurd (by decide) unlike
      · rfl
  rw [pieceAt, if_neg (by rw [notBlank]; decide), unclosed, uncommented, Option.none_or, Option.none_or,
    found]

/-- Where a word begins, nothing else does. -/
theorem pieceAt_of_isWordChar (first : isWordChar c = true) (within : Option Enclosure)
    (previous : Option Char) :
    pieceAt within previous c rest =
      .lexeme (wordCategory (leadingWord (c :: rest))) (leadingWord (c :: rest)) := by
  have unlike : c ∉ initials := by
    intro member
    have none : initials.all (fun d => !isWordChar d) = true := by decide +kernel
    have notWord := List.all_eq_true.mp none c member
    rw [first] at notWord
    cases notWord
  have notBlank : Text.isBlank c = false := by
    rw [Bool.eq_false_iff]
    intro blank
    rw [not_isWordChar_of_isBlank blank] at first
    cases first
  exact pieceAt_of_not_initial unlike notBlank
    ((plainLexeme?_of_not_initial unlike previous).trans (if_pos first)) within

end Cutting

section Groups

variable {first second after rest : List Char} {s : State}

/-- The word that digits begin ends with them if nothing goes on with it. -/
theorem leadingWord_digits (digits : Text.allDigits first = true) : leadingWord first = first := by
  have chars := isWordChar_of_allDigits digits
  rw [leadingWord, List.takeWhile_eq_self_iff.mpr chars, List.dropWhile_eq_nil_iff.mpr chars]

/-- Two groups of digits with a point between them are one word. -/
theorem leadingWord_groups (firstDigits : Text.allDigits first = true)
    (secondDigits : Text.allDigits second = true)
    (stops : ∀ c, after.head? = some c → isWordChar c = false) :
    leadingWord (first ++ '.' :: (second ++ after)) = first ++ '.' :: second := by
  have firstChars := isWordChar_of_allDigits firstDigits
  have secondChars := isWordChar_of_allDigits secondDigits
  obtain ⟨nonempty, all⟩ := Text.allDigits_iff.mp secondDigits
  have halts : after.takeWhile isWordChar = [] := by
    cases after with
    | nil => rfl
    | cons c more => exact List.takeWhile_cons_of_neg (by rw [stops c rfl]; decide)
  have point : isWordChar '.' ≠ true := by decide
  have part : (second ++ after).takeWhile isWordChar = second := by
    rw [List.takeWhile_append_of_pos secondChars, halts, List.append_nil]
  obtain ⟨c, more, rfl⟩ := List.exists_cons_of_ne_nil nonempty
  rw [leadingWord, List.takeWhile_append_of_pos firstChars, List.dropWhile_append_of_pos firstChars,
    List.takeWhile_cons_of_neg point, List.dropWhile_cons_of_neg point, List.append_nil]
  rw [List.cons_append] at part ⊢
  simp only [firstDigits, all c List.mem_cons_self, Bool.and_true, if_true, part]

/-- A number is cut off wherever digits begin one. -/
theorem State.step_of_numeric (digits : Text.allDigits first = true) (ahead : s.ahead = first ++ rest)
    (numeric : Numeric (leadingWord s.ahead)) :
    s.step = .piece (.lexeme .number (leadingWord s.ahead)) := by
  obtain ⟨nonempty, all⟩ := Text.allDigits_iff.mp digits
  obtain ⟨c, more, rfl⟩ := List.exists_cons_of_ne_nil nonempty
  have word : isWordChar c = true := isWordChar_of_isDigit (all c List.mem_cons_self)
  have notNul : c ≠ '\x00' := by
    rintro rfl
    exact absurd word (by decide)
  obtain ⟨_, _, worded, _⟩ := leadingWord_spec (more ++ rest) word
  rw [List.cons_append] at ahead
  rw [ahead] at numeric ⊢
  rw [step_cons ahead, if_neg notNul, pieceAt_of_isWordChar word, worded.kind.number.mpr numeric]

/-- A point goes on with no word. -/
theorem point_stops (rest : List Char) (c : Char) (head : ('.' :: rest).head? = some c) :
    isWordChar c = false := by
  cases head
  decide

theorem State.step_of_groups (firstDigits : Text.allDigits first = true)
    (secondDigits : Text.allDigits second = true)
    (stops : ∀ c, after.head? = some c → isWordChar c = false)
    (ahead : s.ahead = first ++ '.' :: (second ++ after)) :
    s.step = .piece (.lexeme .number (first ++ '.' :: second)) := by
  have word := leadingWord_groups firstDigits secondDigits stops
  rw [← ahead] at word
  rw [← word]
  exact step_of_numeric firstDigits ahead (word ▸ .inr ⟨first, second, rfl, firstDigits, secondDigits⟩)

/-- No operator has a digit in it, so a point before a digit is one by itself. -/
theorem operator?_point {c : Char} (digit : Text.isDigit c = true) :
    operator? ('.' :: c :: rest) = some (.dot, ['.']) := by
  have lead : leadingOperator? ('.' :: c :: rest) = some (.dot, ['.']) := by
    cases found : leadingOperator? ('.' :: c :: rest) with
    | none =>
      exact absurd ⟨c :: rest, rfl⟩
        (not_begins_of_leadingOperator? found (show (['.'], .dot) ∈ operators by decide))
    | some entry =>
      obtain ⟨category, spelling⟩ := entry
      have listed := leadingOperator?_listed found
      obtain ⟨tail, same⟩ := (leadingOperator?_cut found).1
      have digitless : ∀ entry ∈ operators, (entry.1[1]?).any Text.isDigit = false := by decide +kernel
      have single : ∀ entry ∈ operators, entry.1 = ['.'] → entry.2 = .dot := by decide
      match spelling, same with
      | [], _ => exact absurd rfl (leadingOperator?_ne_nil found)
      | [d], same =>
        obtain ⟨rfl, _⟩ := List.cons.inj same
        have dot : category = .dot := single _ listed rfl
        rw [dot]
      | d :: e :: more, same =>
        obtain ⟨rfl, _⟩ := List.cons.inj (List.cons.inj same).2
        have none : Text.isDigit e = false := digitless _ listed
        rw [digit] at none
        cases none
  rw [operator?, lead]

theorem State.step_of_point {c : Char} (digit : Text.isDigit c = true)
    (ahead : s.ahead = '.' :: c :: rest) : s.step = .piece (.lexeme .dot ['.']) := by
  have unlike : '.' ∉ initials := by decide
  have found : plainLexeme? s.previous '.' (c :: rest) = some (.dot, ['.']) := by
    rw [plainLexeme?_of_not_initial unlike, if_neg (by decide), operator?_point digit,
      Option.some_or]
  rw [step_cons ahead, if_neg (by decide), pieceAt_of_not_initial unlike (by decide) found]

/-- Groups of digits, taken two at a time: a point within each two, and one after them if more
groups follow. -/
def numbersOf : List (List Char) → List (Category × List Char)
  | [] => []
  | [group] => [(.number, group)]
  | [first, second] => [(.number, first ++ '.' :: second)]
  | first :: second :: more => (.number, first ++ '.' :: second) :: (.dot, ['.']) :: numbersOf more

theorem State.within_of_lexeme {category : Category} (outside : s.within = none)
    (unlike : Enclosure.ofOpener? category = none) (text : List Char) :
    (s.advance (.lexeme category text)).within = none := by
  simp only [advance, withinAfter, outside, unlike, Option.map_none]

theorem State.ahead_of_lexeme {category : Category} {text : List Char} (ahead : s.ahead = text ++ rest) :
    (s.advance (.lexeme category text)).ahead = rest := by
  rw [advance, ahead]
  exact List.drop_left

theorem intercalate_head {group : List Char} (groups : List (List Char))
    (digits : Text.allDigits group = true) :
    ∃ c rest, ['.'].intercalate (group :: groups) = c :: rest ∧ Text.isDigit c = true := by
  obtain ⟨nonempty, all⟩ := Text.allDigits_iff.mp digits
  obtain ⟨c, more, rfl⟩ := List.exists_cons_of_ne_nil nonempty
  cases groups with
  | nil => exact ⟨c, _, rfl, all c List.mem_cons_self⟩
  | cons other others => exact ⟨c, _, rfl, all c List.mem_cons_self⟩

theorem intercalate_points (first second : List Char) {more : List (List Char)} (nonempty : more ≠ []) :
    ['.'].intercalate (first :: second :: more) =
      first ++ '.' :: (second ++ '.' :: ['.'].intercalate more) := by
  obtain ⟨group, groups, rfl⟩ := List.exists_cons_of_ne_nil nonempty
  simp [List.intercalate]

/-- Digits that are divided by points, from a point of a scan to the end of the source. -/
theorem scan_groups (groups : List (List Char)) (digits : ∀ group ∈ groups, Text.allDigits group = true)
    (s : State) (outside : s.within = none) (ahead : s.ahead = ['.'].intercalate groups) :
    s.scan = ⟨(numbersOf groups).map fun lexeme => .lexeme lexeme.1 lexeme.2, .complete⟩ := by
  -- A number up to the end of the source is the last piece.
  have last : ∀ (s : State) (text : List Char), s.within = none → s.ahead = text →
      s.step = .piece (.lexeme .number text) → s.scan = ⟨[.lexeme .number text], .complete⟩ := by
    intro s text outside ahead step
    have ends : (s.advance (.lexeme .number text)).step = .ending .complete := by
      have empty : (s.advance (.lexeme .number text)).ahead = [] := by
        rw [State.advance, ahead]
        exact List.drop_length
      rw [State.step, empty, State.within_of_lexeme outside rfl]
    rw [State.scan_of_piece step, State.scan_of_ending ends]
  fun_induction numbersOf groups generalizing s with
  | case1 =>
    have ends : s.step = .ending .complete := by
      have empty : s.ahead = [] := ahead
      rw [State.step, empty, outside]
    exact State.scan_of_ending ends
  | case2 group =>
    have all := digits group List.mem_cons_self
    have ahead : s.ahead = group := by simpa [List.intercalate] using ahead
    have word : leadingWord s.ahead = group := by rw [ahead, leadingWord_digits all]
    have step := State.step_of_numeric all (ahead.trans (List.append_nil group).symm)
      (word ▸ .inl all)
    rw [word] at step
    exact last s group outside ahead step
  | case3 first second =>
    have ahead : s.ahead = first ++ '.' :: second := by simpa [List.intercalate] using ahead
    have nothing : s.ahead = first ++ '.' :: (second ++ []) := by rw [ahead, List.append_nil]
    have ends : ∀ c, ([] : List Char).head? = some c → isWordChar c = false := by
      intro c head
      cases head
    have step := State.step_of_groups (digits first (by simp)) (digits second (by simp)) ends nothing
    exact last s _ outside ahead step
  | case4 first second more nonempty ih =>
    rw [intercalate_points first second nonempty] at ahead
    have number := State.step_of_groups (digits first (by simp)) (digits second (by simp))
      (point_stops _) ahead
    have between : (s.advance (.lexeme .number (first ++ '.' :: second))).ahead =
        '.' :: ['.'].intercalate more := by
      apply State.ahead_of_lexeme
      rw [ahead, List.append_assoc, List.cons_append]
    obtain ⟨group, groups, rfl⟩ := List.exists_cons_of_ne_nil nonempty
    obtain ⟨c, rest, starts, digit⟩ := intercalate_head groups (digits group (by simp))
    have point := State.step_of_point digit (between.trans (congrArg _ starts))
    have outside : (s.advance (.lexeme .number (first ++ '.' :: second))).within = none :=
      State.within_of_lexeme outside rfl _
    have later := ih (fun group member => digits group (by simp [member]))
      ((s.advance (.lexeme .number (first ++ '.' :: second))).advance (.lexeme .dot ['.']))
      (State.within_of_lexeme outside rfl _) (State.ahead_of_lexeme between)
    rw [State.scan_of_piece number, State.scan_of_piece point, later]
    rfl

end Groups

/-- Only the cutting of words makes tokens of their categories. -/
theorem Made.word {within : Option Enclosure} {previous : Option Char} {c : Char}
    {rest text : List Char} {category : Category}
    (made : Made within previous c rest (.lexeme category text)) (member : category ∈ wordCategories) :
    isWordChar c = true ∧ text = leadingWord (c :: rest) ∧ category = wordCategory text := by
  have free : ∀ category ∈ wordCategories, category.spelling? = none := by decide +kernel
  rcases made.unspelled (free category member) with ⟨_, found, _⟩ | rfl | word
  · have apart : ∀ category ∈ swallowing, category ∉ wordCategories := by decide
    exact absurd member (apart category (lineComment?_swallowing found))
  · exact absurd member (by decide)
  · exact word

/-- A token of a word: its text, what comes after it, and its category. -/
theorem word_of_token {source : List Char} {token : Token} (member : token ∈ (tokenize source).tokens)
    (word : token.category ∈ wordCategories) :
    ∃ stop : Nat, token.stop = stop ∧ Worded (token.text source) ∧
      Maximal (token.text source) (source.drop stop) ∧
      WordKind (token.text source) token.category := by
  rw [tokenize_tokens] at member
  rcases lexeme_or_end member with lexeme | rfl
  · obtain ⟨pieces, s, run, start, length, step⟩ := point_of_lexeme lexeme
    obtain ⟨c, rest, ahead, made⟩ := State.made_of_step step
    obtain ⟨first, text, category⟩ := made.word word
    obtain ⟨after, split, worded, maximal⟩ := leadingWord_spec rest first
    rw [← text] at split worded maximal
    refine ⟨s.offset + (token.text source).length, ?_, worded, ?_, category ▸ worded.kind⟩
    · rw [Token.stop, start, length]
      rfl
    · rw [← List.drop_drop, drop_offset run, ahead, split, List.drop_left]
      exact maximal
  · exact absurd word (show .endOfText ∉ wordCategories by decide)

/-- Words and numbers are cut off as far as they go and told apart by their texts. The text of such a
token is a run of word characters, or digits, a point, a digit and word characters, with one point at
most. Nothing after it goes on with it. It is a number if it is made of digits with at most a point
among them, a word if it is made of letters, one of the underscores if it is that, and a hybrid
otherwise. Where digits, a point, digits and another point come, the number ends before the second
point, so that digits divided by points are cut after every second group. -/
theorem words_maximal_and_classified (source : List Char) :
    (∀ token ∈ (tokenize source).tokens, token.category ∈ wordCategories →
      ∃ stop : Nat, token.stop = stop ∧ Worded (token.text source) ∧
        Maximal (token.text source) (source.drop stop) ∧
        WordKind (token.text source) token.category ∧ (token.text source).count '.' ≤ 1) ∧
    (∀ pieces s first second rest, Run (State.start source) pieces s →
      Text.allDigits first = true → Text.allDigits second = true →
      s.ahead = first ++ '.' :: (second ++ '.' :: rest) →
      tokensFrom 0 pieces ++ [⟨.number, s.offset, (first ++ '.' :: second).length⟩] <+:
        (tokenize source).tokens) ∧
    ∀ groups, (∀ group ∈ groups, Text.allDigits group = true) →
      source = ['.'].intercalate groups →
      (tokenize source).tokens.map (fun token => (token.category, token.text source)) =
        numbersOf groups ++ [(.endOfText, [])] := by
  refine ⟨?_, ?_, ?_⟩
  · intro token member word
    obtain ⟨stop, place, worded, maximal, kind⟩ := word_of_token member word
    exact ⟨stop, place, worded, maximal, kind, worded.count_point⟩
  · intro pieces s first second rest run firstDigits secondDigits ahead
    exact tokens_through run (State.step_of_groups firstDigits secondDigits (point_stops rest) ahead)
  · intro groups digits whole
    have scanned : scan source = _ := scan_groups groups digits (State.start source) rfl whole
    rw [tokens_lexemes, scanned]
    congr 1
    exact (List.filterMap_map ..).trans List.filterMap_some

/-- Four groups of digits, of which two are not of ASCII, are two numbers. -/
theorem words_maximal_and_classified_groups :
    (⟨.number, 0, 4⟩ : Token) ∈ (tokenize "1².3.٤.5".toList).tokens ∧
    Numeric "1².3".toList ∧
    (tokenize "1².3.٤.5".toList).tokens.map
      (fun token => (token.category, token.text "1².3.٤.5".toList)) =
      [(.number, "1².3".toList), (.dot, ".".toList), (.number, "٤.5".toList), (.endOfText, [])] := by
  have member : (⟨.number, 0, 4⟩ : Token) ∈ (tokenize "1².3.٤.5".toList).tokens := by decide +kernel
  obtain ⟨words, _, groups⟩ := words_maximal_and_classified "1².3.٤.5".toList
  obtain ⟨_, _, _, _, kind, _⟩ := words _ member (by decide)
  refine ⟨member, kind.number.mp rfl, ?_⟩
  exact groups ["1²".toList, "3".toList, "٤".toList, "5".toList] (by decide +kernel) (by decide +kernel)

end Lexing

end Astra
