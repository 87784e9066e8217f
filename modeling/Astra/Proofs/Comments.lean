import Astra.Proofs.Spellings

/-!
# Line comments

A line comment is cut off wherever its marker is met outside an enclosure, and nowhere else. It goes
on to the end of the line; a carriage return there belongs to the line end and not to the comment,
and is never a part of the marker.
-/

namespace Astra.Lexing

/-- The categories of line comments. -/
def lineComments : List Category := [.eolSlashComment, .docHashComment, .eolHashComment]

/-- The markers that begin the line comments of each category. -/
def commentMarkers : List (Category × List Char) :=
  [(.eolSlashComment, "//".toList), (.docHashComment, "###".toList), (.eolHashComment, "# ".toList),
   (.eolHashComment, "#\t".toList)]

/-- The offset of the first line feed that is not before a start, or the end of the source. -/
structure LineEnd (source : List Char) (start stop : Nat) : Prop where
  after : start ≤ stop
  stops : source[stop]? = some '\n' ∨ stop = source.length
  first : ∀ i, start ≤ i → i < stop → source[i]? ≠ some '\n'

section Lines

variable {text marker : List Char}

/-- The rest of a line as it is before the carriage return is taken off. -/
def lineOf (text : List Char) : List Char := text.takeWhile (· ≠ '\n')

theorem lineOf_begins (text : List Char) : lineOf text <+: text := List.takeWhile_prefix _

theorem ne_of_mem_lineOf {c : Char} (member : c ∈ lineOf text) : c ≠ '\n' :=
  of_decide_eq_true (List.all_eq_true.mp List.all_takeWhile c member)

theorem restOfLine_eq (text : List Char) :
    restOfLine text = if (lineOf text).getLast? = some '\r' then (lineOf text).dropLast
      else lineOf text := rfl

theorem feed_not_mem_restOfLine (text : List Char) : '\n' ∉ restOfLine text := by
  intro member
  rw [restOfLine_eq] at member
  split at member
  · exact ne_of_mem_lineOf ((List.dropLast_prefix _).subset member) rfl
  · exact ne_of_mem_lineOf member rfl

theorem begins_lineOf (begins : marker <+: text) (feedless : '\n' ∉ marker) :
    marker <+: lineOf text := by
  obtain ⟨tail, rfl⟩ := begins
  have all : ∀ c ∈ marker, decide (c ≠ '\n') = true := by
    intro c member
    exact decide_eq_true fun same => feedless (same ▸ member)
  rw [lineOf, List.takeWhile_append_of_pos all]
  exact List.prefix_append _ _

/-- What begins a text and has no part in a line end begins the rest of the line. -/
theorem begins_restOfLine (begins : marker <+: text) (feedless : '\n' ∉ marker)
    (returnless : marker.getLast? ≠ some '\r') : marker <+: restOfLine text := by
  have line := begins_lineOf begins feedless
  rw [restOfLine_eq]
  split
  · rename_i last
    obtain ⟨front, split⟩ := List.getLast?_eq_some_iff.mp last
    rw [split] at line ⊢
    rw [List.dropLast_concat]
    refine (List.prefix_concat_iff.mp line).resolve_left ?_
    rintro rfl
    exact returnless List.getLast?_concat
  · exact line

theorem restOfLine_length (nonempty : lineOf text ≠ []) :
    (restOfLine text).length =
      if text[(lineOf text).length - 1]? = some '\r' then (lineOf text).length - 1
      else (lineOf text).length := by
  have positive := List.length_pos_iff.mpr nonempty
  have last : (lineOf text).getLast? = text[(lineOf text).length - 1]? := by
    have bound : (lineOf text).length - 1 < (lineOf text).length := by omega
    rw [List.getLast?_eq_getElem?, List.getElem?_eq_getElem bound]
    exact (List.prefix_iff_getElem?.mp (lineOf_begins text) _ bound).symm
  rw [restOfLine_eq, last]
  split
  · exact List.length_dropLast
  · rfl

/-- After the rest of a line comes a line feed or nothing. -/
theorem after_lineOf (text : List Char) :
    text[(lineOf text).length]? = some '\n' ∨ (lineOf text).length = text.length := by
  have split : lineOf text ++ text.dropWhile (· ≠ '\n') = text := List.takeWhile_append_dropWhile
  have stops := List.head?_dropWhile_not (fun c : Char => decide (c ≠ '\n')) text
  generalize text.dropWhile (· ≠ '\n') = tail at split stops
  cases tail with
  | nil => exact .inr (by rw [← List.append_nil (lineOf text), split])
  | cons c rest =>
    have feed : c = '\n' := by simpa using stops
    have found : (lineOf text ++ c :: rest)[(lineOf text).length]? = some c := by simp
    rw [split] at found
    exact .inl (feed ▸ found)

theorem lineEnd_of_lineOf {source : List Char} {start : Nat} (inside : start ≤ source.length) :
    LineEnd source start (start + (lineOf (source.drop start)).length) := by
  refine ⟨Nat.le_add_right _ _, ?_, ?_⟩
  · rw [← List.getElem?_drop]
    refine (after_lineOf (source.drop start)).imp_right fun whole => ?_
    rw [whole, List.length_drop]
    omega
  · intro i low high
    obtain ⟨k, rfl⟩ := Nat.exists_eq_add_of_le low
    have bound : k < (lineOf (source.drop start)).length := by omega
    rw [← List.getElem?_drop, List.prefix_iff_getElem?.mp (lineOf_begins _) k bound]
    intro same
    exact ne_of_mem_lineOf (List.getElem_mem bound) (Option.some.inj same)

end Lines

section Recognition

variable {within : Option Enclosure} {previous : Option Char} {c : Char} {rest text : List Char}
  {category : Category}

theorem lineComment?_eq_some_iff :
    lineComment? text = some category ↔
      ∃ marker, (category, marker) ∈ commentMarkers ∧ marker <+: text := by
  constructor
  · intro found
    unfold lineComment? at found
    split at found <;> cases found
    · exact ⟨['/', '/'], by decide, _, rfl⟩
    · exact ⟨['#', '#', '#'], by decide, _, rfl⟩
    · exact ⟨['#', ' '], by decide, _, rfl⟩
    · exact ⟨['#', '\t'], by decide, _, rfl⟩
  · rintro ⟨marker, listed, tail, rfl⟩
    simp only [commentMarkers, List.mem_cons, Prod.mk.injEq, List.not_mem_nil, or_false] at listed
    rcases listed with ⟨rfl, rfl⟩ | ⟨rfl, rfl⟩ | ⟨rfl, rfl⟩ | ⟨rfl, rfl⟩ <;> rfl

theorem wordCategory_not_mem_lineComments (text : List Char) :
    wordCategory text ∉ lineComments := by
  rw [wordCategory]
  split
  · split <;> decide
  · split
    · decide
    · split <;> decide

/-- Only a marker that is met outside an enclosure makes a line comment. -/
theorem Made.lineComment (made : Made within previous c rest (.lexeme category text))
    (member : category ∈ lineComments) :
    within = none ∧ lineComment? (c :: rest) = some category ∧ text = restOfLine (c :: rest) := by
  have free : ∀ category ∈ lineComments, category.spelling? = none := by decide +kernel
  rcases made.unspelled (free category member) with comment | rfl | ⟨_, _, rfl⟩
  · exact comment
  · exact absurd member (by decide)
  · exact absurd member (wordCategory_not_mem_lineComments text)

theorem commentMarkers_plain : ∀ entry ∈ commentMarkers, entry.1 ∈ lineComments ∧
    '\n' ∉ entry.2 ∧ entry.2.getLast? ≠ some '\r' ∧ entry.2 ≠ [] ∧
    entry.2.head?.all (fun c => c ≠ '\x00' && !Text.isBlank c) = true := by decide +kernel

theorem first_of_marker {marker : List Char} (listed : (category, marker) ∈ commentMarkers)
    (begins : marker <+: c :: rest) : c ≠ '\x00' ∧ Text.isBlank c = false := by
  obtain ⟨_, _, _, nonempty, first⟩ := commentMarkers_plain _ listed
  obtain ⟨head, more, rfl⟩ := List.exists_cons_of_ne_nil nonempty
  obtain ⟨rfl, _⟩ := List.cons_prefix_cons.mp begins
  simpa using first

variable {source : List Char} {pieces : List Piece} {s : State}

theorem State.comment_of_step (step : s.step = .piece (.lexeme category text))
    (member : category ∈ lineComments) :
    s.within = none ∧ lineComment? s.ahead = some category ∧ text = restOfLine s.ahead := by
  obtain ⟨c, rest, ahead, made⟩ := State.made_of_step step
  obtain ⟨outside, found, line⟩ := made.lineComment member
  rw [ahead]
  exact ⟨Option.map_eq_none_iff.mp outside, found, line⟩

/-- Outside an enclosure a comment is cut off wherever its marker is met. -/
theorem pieceAt_of_marker {marker : List Char} (listed : (category, marker) ∈ commentMarkers)
    (begins : marker <+: c :: rest) (previous : Option Char) :
    pieceAt none previous c rest = .lexeme category (restOfLine (c :: rest)) := by
  have found : lineComment? (c :: rest) = some category :=
    lineComment?_eq_some_iff.mpr ⟨marker, listed, begins⟩
  have solid : Text.isBlank c = false := (first_of_marker listed begins).2
  rw [pieceAt, solid, closing?, comment?, found]
  rfl

theorem State.step_of_marker (outside : s.within = none) {marker : List Char}
    (listed : (category, marker) ∈ commentMarkers) (begins : marker <+: s.ahead) :
    s.step = .piece (.lexeme category (restOfLine s.ahead)) := by
  obtain ⟨_, _, _, nonempty, _⟩ := commentMarkers_plain _ listed
  cases ahead : s.ahead with
  | nil => exact absurd (List.prefix_nil.mp (ahead ▸ begins)) nonempty
  | cons c rest =>
    rw [ahead] at begins
    rw [step_cons ahead, if_neg (first_of_marker listed begins).1, outside]
    exact congrArg Step.piece (pieceAt_of_marker listed begins s.previous)

/-- Where the rest of a line that begins with a marker ends. -/
theorem stop_of_marker (run : Run (State.start source) pieces s) {marker : List Char}
    (listed : (category, marker) ∈ commentMarkers) (begins : marker <+: s.ahead) :
    ∃ stop, LineEnd source s.offset stop ∧
      s.offset + (restOfLine s.ahead).length =
        if source[stop - 1]? = some '\r' then stop - 1 else stop := by
  obtain ⟨_, feedless, _, nonempty, _⟩ := commentMarkers_plain _ listed
  have line : lineOf s.ahead ≠ [] := by
    intro empty
    exact nonempty (List.prefix_nil.mp (empty ▸ begins_lineOf begins feedless))
  have ends := lineEnd_of_lineOf (offset_le_length run)
  rw [drop_offset run] at ends
  refine ⟨_, ends, ?_⟩
  have positive := List.length_pos_iff.mpr line
  rw [restOfLine_length line, ← drop_offset run, List.getElem?_drop, drop_offset run,
    ← Nat.add_sub_assoc positive]
  split <;> omega

end Recognition

/-- Line comments are the rests of lines. Each was cut off outside an enclosure; it begins with the
whole marker of its category and goes on to the next line feed, or to the end of the source if there
is none, but not over a carriage return before that. Wherever a scan outside an enclosure comes to a
marker it cuts off the comment, and within an enclosure it never does. -/
theorem line_comments_end_lines (source : List Char) :
    (∀ token ∈ (tokenize source).tokens, token.category ∈ lineComments →
      (∃ pieces s, Run (State.start source) pieces s ∧ s.within = none ∧ token.start = s.offset ∧
        s.step = .piece (.lexeme token.category (token.text source))) ∧
      (∃ marker, (token.category, marker) ∈ commentMarkers ∧ marker <+: token.text source) ∧
      '\n' ∉ token.text source ∧
      ∃ start stop : Nat, token.start = start ∧ LineEnd source start stop ∧
        token.stop = (if source[stop - 1]? = some '\r' then stop - 1 else stop : Nat)) ∧
    (∀ pieces s category marker, Run (State.start source) pieces s → s.within = none →
      (category, marker) ∈ commentMarkers → marker <+: source.drop s.offset →
      ∃ length : Nat, tokensFrom 0 pieces ++ [⟨category, s.offset, length⟩] <+:
        (tokenize source).tokens) ∧
    ∀ pieces s category text, Run (State.start source) pieces s → s.within ≠ none →
      s.step = .piece (.lexeme category text) → category ∉ lineComments := by
  refine ⟨?_, ?_, ?_⟩
  · intro token member comment
    rw [tokenize_tokens] at member
    rcases lexeme_or_end member with lexeme | rfl
    · obtain ⟨pieces, s, run, start, length, step⟩ := point_of_lexeme lexeme
      obtain ⟨outside, found, line⟩ := State.comment_of_step step comment
      obtain ⟨marker, listed, begins⟩ := lineComment?_eq_some_iff.mp found
      obtain ⟨_, feedless, returnless, _, _⟩ := commentMarkers_plain _ listed
      refine ⟨⟨pieces, s, run, outside, start, step⟩, ⟨marker, listed, ?_⟩, ?_, ?_⟩
      · rw [line]
        exact begins_restOfLine begins feedless returnless
      · rw [line]
        exact feed_not_mem_restOfLine _
      · obtain ⟨stop, ends, reached⟩ := stop_of_marker run listed begins
        refine ⟨s.offset, stop, start, ends, ?_⟩
        rw [← reached, Token.stop, start, length, line]
        rfl
    · exact absurd comment (show .endOfText ∉ lineComments by decide)
  · intro pieces s category marker run outside listed begins
    rw [drop_offset run] at begins
    exact ⟨_, tokens_through run (State.step_of_marker outside listed begins)⟩
  · intro pieces s category text _ inside step comment
    exact inside (State.comment_of_step step comment).1

/-- After a quotation that holds a marker, a comment ends before the carriage return of its line. -/
theorem line_comments_end_lines_return :
    (⟨.eolSlashComment, 5, 3⟩ : Token) ∈ (tokenize "\"# \" //!\r\n".toList).tokens ∧
    '\n' ∉ Token.text ⟨.eolSlashComment, 5, 3⟩ "\"# \" //!\r\n".toList ∧
    ∃ stop, LineEnd "\"# \" //!\r\n".toList 5 stop ∧
      8 = if "\"# \" //!\r\n".toList[stop - 1]? = some '\r' then stop - 1 else stop := by
  have member : (⟨.eolSlashComment, 5, 3⟩ : Token) ∈
      (tokenize "\"# \" //!\r\n".toList).tokens := by decide +kernel
  obtain ⟨comments, _⟩ := line_comments_end_lines "\"# \" //!\r\n".toList
  obtain ⟨_, _, feedless, start, stop, first, ends, reached⟩ := comments _ member (by decide)
  obtain rfl : 5 = start := Int.ofNat_inj.mp first
  exact ⟨member, feedless, stop, ends, Int.ofNat_inj.mp reached⟩

end Astra.Lexing
