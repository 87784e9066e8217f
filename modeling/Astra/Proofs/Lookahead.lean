import Astra.Proofs.Characters
import Astra.Proofs.Pieces

/-!
# How far a piece looks ahead

Cutting a piece off looks ahead as far as the next line feed and no further: nothing that is added
after a line feed changes the piece before it. Only a line comment looks beyond other blanks. What
comes before a piece matters for angles only.
-/

namespace Astra.Lexing

/-- Line comments by what they begin with. -/
theorem lineComment?_eq (text : List Char) :
    lineComment? text =
      if ['/', '/'].isPrefixOf text then some .eolSlashComment
      else if ['#', '#', '#'].isPrefixOf text then some .docHashComment
      else if ['#', ' '].isPrefixOf text then some .eolHashComment
      else if ['#', '\t'].isPrefixOf text then some .eolHashComment
      else none := by
  have absent : ∀ spelling, (∀ tail, text = spelling ++ tail → False) →
      ¬ spelling.isPrefixOf text = true := by
    intro spelling differs begins
    obtain ⟨tail, same⟩ := List.isPrefixOf_iff_prefix.mp begins
    exact differs tail same.symm
  unfold lineComment?
  split
  · rfl
  · rfl
  · rfl
  · rfl
  · rename_i slashes hashes space tab
    rw [if_neg (absent ['/', '/'] slashes), if_neg (absent ['#', '#', '#'] hashes),
      if_neg (absent ['#', ' '] space), if_neg (absent ['#', '\t'] tab)]

section Stops

variable {text : List Char} {stop : Char} (member : stop ∈ text) (more : List Char)

include member

theorem mem_dropWhile_of_stops {p : Char → Bool} (stops : p stop = false) :
    stop ∈ text.dropWhile p := by
  rw [← List.takeWhile_append_dropWhile (p := p) (l := text), List.mem_append] at member
  rcases member with taken | dropped
  · have passes := List.all_eq_true.mp List.all_takeWhile _ taken
    rw [stops] at passes
    cases passes
  · exact dropped

theorem dropWhile_append_of_stops {p : Char → Bool} (stops : p stop = false) :
    (text ++ more).dropWhile p = text.dropWhile p ++ more := by
  have nonempty := List.ne_nil_of_mem (mem_dropWhile_of_stops member stops)
  rw [List.dropWhile_append, if_neg (by simpa using nonempty)]

theorem takeWhile_append_of_stops {p : Char → Bool} (stops : p stop = false) :
    (text ++ more).takeWhile p = text.takeWhile p := by
  have whole : text.takeWhile p ++ text.dropWhile p = text := List.takeWhile_append_dropWhile
  have positive := List.length_pos_of_mem (mem_dropWhile_of_stops member stops)
  have total := congrArg List.length whole
  rw [List.length_append] at total
  rw [List.takeWhile_append, if_neg (by omega)]

/-- What stands at the start and has a character in its last place at most does not go beyond that
character. -/
theorem isPrefixOf_append_of_stop {spelling : List Char} (early : stop ∉ spelling.dropLast) :
    spelling.isPrefixOf (text ++ more) = spelling.isPrefixOf text := by
  rw [Bool.eq_iff_iff, List.isPrefixOf_iff_prefix, List.isPrefixOf_iff_prefix]
  constructor
  · intro begins
    rcases List.prefix_or_prefix_of_prefix begins (List.prefix_append text more) with here | past
    · exact here
    · obtain ⟨tail, rfl⟩ := past
      by_cases nothing : tail = []
      · simp [nothing]
      · rw [List.dropLast_append_of_ne_nil nothing] at early
        exact absurd (List.mem_append_left _ member) early
  · intro begins
    exact begins.trans (List.prefix_append text more)

end Stops

theorem restOfLine_append {text : List Char} (line : '\n' ∈ text) (more : List Char) :
    restOfLine (text ++ more) = restOfLine text := by
  rw [restOfLine, takeWhile_append_of_stops line more (by decide), restOfLine]

theorem operators_solid : ∀ entry ∈ operators, entry.1.any Text.isBlank = false := by
  decide +kernel

section Blanks

variable {text : List Char} {stop : Char} (member : stop ∈ text)
  (blank : Text.isBlank stop = true) (more : List Char)

include member blank

/-- What stands at the start and has a blank in its last place at most does not go beyond one. -/
theorem isPrefixOf_append_of_blank {spelling : List Char}
    (solid : spelling.dropLast.any Text.isBlank = false) :
    spelling.isPrefixOf (text ++ more) = spelling.isPrefixOf text := by
  apply isPrefixOf_append_of_stop member
  intro early
  exact List.any_eq_false.mp solid stop early blank

theorem leadingWord_append : leadingWord (text ++ more) = leadingWord text := by
  have stops := not_isWordChar_of_isBlank blank
  have later := mem_dropWhile_of_stops member stops
  rw [leadingWord, leadingWord, takeWhile_append_of_stops member more stops,
    dropWhile_append_of_stops member more stops]
  -- A point that ends the run of letters has a character after it in the text itself.
  generalize text.dropWhile isWordChar = tail at later
  cases tail with
  | nil => cases later
  | cons c tail =>
    by_cases point : c = '.'
    · subst point
      have inside : stop ∈ tail := by
        rcases List.mem_cons.mp later with rfl | inside
        · exact absurd blank (by decide)
        · exact inside
      have word := takeWhile_append_of_stops inside more stops
      obtain ⟨next, rest, rfl⟩ := List.exists_cons_of_ne_nil (List.ne_nil_of_mem inside)
      simp only [List.cons_append] at word ⊢
      rw [word]
    · simp [point]

theorem lineComment?_append : lineComment? (text ++ more) = lineComment? text := by
  rw [lineComment?_eq, lineComment?_eq, isPrefixOf_append_of_blank member blank more (by decide),
    isPrefixOf_append_of_blank member blank more (by decide),
    isPrefixOf_append_of_blank member blank more (by decide),
    isPrefixOf_append_of_blank member blank more (by decide)]

theorem closing?_append (within : Option Enclosure) :
    closing? within (text ++ more) = closing? within text := by
  cases within with
  | none => rfl
  | some e =>
    have solid : e.closingText.dropLast.any Text.isBlank = false := by cases e <;> decide
    rw [closing?, closing?, isPrefixOf_append_of_blank member blank more solid]

/-- No operator is spelled with a blank, so one that begins a text ends before a blank. -/
theorem operator_take_append (n : Nat) :
    (operators.lookup ((text ++ more).take n)).map (·, (text ++ more).take n) =
      (operators.lookup (text.take n)).map (·, text.take n) := by
  by_cases inside : n ≤ text.length
  · rw [List.take_append_of_le_length inside]
  · have absent : ∀ spelling, stop ∈ spelling → operators.lookup spelling = none := by
      intro spelling early
      rw [Option.eq_none_iff_forall_ne_some]
      intro category found
      have solid := operators_solid _ (Assoc.mem_of_lookup found)
      exact List.any_eq_false.mp solid stop early blank
    have whole : text <+: (text ++ more).take n := by
      rw [List.take_append, List.take_of_length_le (by omega)]
      exact List.prefix_append _ _
    have short : text.take n = text := List.take_of_length_le (by omega)
    rw [absent _ (whole.subset member), short, absent _ member]
    rfl

theorem leadingOperator?_append : leadingOperator? (text ++ more) = leadingOperator? text := by
  simp only [leadingOperator?, operator_take_append member blank more]

/-- What follows two colons stands before the blank or is the blank. -/
theorem afterColons_append {spelling : List Char}
    (found : leadingOperator? text = some (.doubleColonAssigner, spelling)) :
    (text ++ more)[2]? = text[2]? := by
  obtain ⟨n, _, hn⟩ := List.exists_of_findSome?_eq_some found
  obtain ⟨category, hget, hcategory⟩ := Option.map_eq_some_iff.mp hn
  obtain ⟨rfl, rfl⟩ := Prod.mk.inj hcategory
  have colons : ∀ entry ∈ operators, entry.2 = .doubleColonAssigner → entry.1 = [':', ':'] := by
    decide
  have spelled : text.take n = [':', ':'] := colons _ (Assoc.mem_of_lookup hget) rfl
  have elsewhere : stop ∉ [':', ':'] := by
    intro colon
    have solid : [':', ':'].any Text.isBlank = false := by decide
    exact List.any_eq_false.mp solid stop colon blank
  have longer : 2 < text.length := by
    have rest : stop ∈ text.take n ++ text.drop n := by rwa [List.take_append_drop]
    rw [spelled, List.mem_append] at rest
    have later := List.length_pos_of_mem (rest.resolve_left elsewhere)
    have two := congrArg List.length spelled
    rw [List.length_take, List.length_cons, List.length_singleton] at two
    rw [List.length_drop] at later
    omega
  exact List.getElem?_append_left longer

theorem operator?_append : operator? (text ++ more) = operator? text := by
  rw [operator?, operator?, leadingOperator?_append member blank more]
  split
  · rename_i spelling found
    rw [afterColons_append member blank more found]
  · rfl

end Blanks

section Ahead

variable {c : Char} {rest : List Char}

theorem plainLexeme?_append {stop : Char} (member : stop ∈ rest)
    (blank : Text.isBlank stop = true) (more : List Char) (previous : Option Char) :
    plainLexeme? previous c (rest ++ more) = plainLexeme? previous c rest := by
  have whole : stop ∈ c :: rest := List.mem_cons_of_mem c member
  have word := leadingWord_append whole blank more
  have operator := operator?_append whole blank more
  obtain ⟨next, tail, rfl⟩ := List.exists_cons_of_ne_nil (List.ne_nil_of_mem member)
  simp only [List.cons_append] at word operator ⊢
  unfold plainLexeme?
  split
  · rename_i same
    cases same
    rfl
  · rename_i same
    cases same
    rfl
  · rename_i same
    cases same
    rfl
  · rename_i notOpening notClosing notEscape
    rw [word, operator, List.head?_cons]
    symm
    split
    · rename_i same
      cases same
      exact (notOpening _ rfl rfl).elim
    · rename_i same
      cases same
      exact (notClosing _ rfl rfl).elim
    · exact (notEscape _ _ rfl rfl).elim
    · rfl

/-- A piece that is no line comment depends on the text up to the next blank only, and so does
whether it is one. -/
theorem pieceAt_append_of_comment? {stop : Char} (member : stop ∈ c :: rest)
    (blank : Text.isBlank stop = true) (more : List Char) {within : Option Enclosure}
    (comment : comment? within (c :: rest ++ more) = comment? within (c :: rest))
    (previous : Option Char) :
    pieceAt within previous c (rest ++ more) = pieceAt within previous c rest := by
  by_cases first : Text.isBlank c = true
  · rw [pieceAt, if_pos first, pieceAt, if_pos first]
  · have later : stop ∈ rest := by
      rcases List.mem_cons.mp member with rfl | later
      · exact absurd blank first
      · exact later
    rw [pieceAt, pieceAt, ← List.cons_append, closing?_append member blank more, comment,
      plainLexeme?_append later blank more]

/-- A piece depends on the text up to the next line feed only. -/
theorem pieceAt_append (more : List Char) (line : '\n' ∈ c :: rest) (within : Option Enclosure)
    (previous : Option Char) :
    pieceAt within previous c (rest ++ more) = pieceAt within previous c rest := by
  apply pieceAt_append_of_comment? line (by decide)
  cases within with
  | none =>
    rw [comment?, comment?, lineComment?_append line (by decide) more, restOfLine_append line more]
  | some e => rfl

theorem angle?_eq_none (notLeft : c ≠ '<') (notRight : c ≠ '>') (previous next : Option Char) :
    angle? previous c next = none := by
  unfold angle?
  split
  · exact absurd rfl notLeft
  · exact absurd rfl notRight
  · rfl

/-- The character before a piece matters only if the piece begins with an angle. -/
theorem pieceAt_previous (notLeft : c ≠ '<') (notRight : c ≠ '>') (within : Option Enclosure)
    (previous other : Option Char) :
    pieceAt within previous c rest = pieceAt within other c rest := by
  have lexeme : plainLexeme? previous c rest = plainLexeme? other c rest := by
    unfold plainLexeme?
    split
    · rfl
    · rfl
    · rfl
    · rw [angle?_eq_none notLeft notRight, angle?_eq_none notLeft notRight]
  rw [pieceAt, pieceAt, lexeme]

end Ahead

end Astra.Lexing
