import Mathlib.Order.Interval.Finset.Nat
import Astra.Proofs.Controls
import Astra.Proofs.Lines

/-!
# What the display of a diagnostic points at

Every diagnostic about a source names a character of it that ends no line. Its display ends with a
line of the source and carets under that line. The line is the one that the character is on, as line
feeds delimit it, only if no other line break interferes: one further up makes the display show a
line further up, and one on the line itself cuts the shown line off.
-/

namespace Astra

namespace Text

theorem isBlank_of_isLineBreak {c : Char} (breaks : isLineBreak c = true) : isBlank c = true := by
  rw [isLineBreak, List.contains_iff_mem] at breaks
  simp only [List.mem_cons, List.not_mem_nil, or_false] at breaks
  rcases breaks with rfl | rfl | rfl | rfl | rfl | rfl | rfl | rfl | rfl | rfl <;> decide

theorem checkNumeral_eq_ok {n : Int} (natural : 0 ≤ n) (small : n ≤ wordBound) :
    checkNumeral n = .ok () := by
  have bound : wordBound < numeralBound := by decide +kernel
  exact checkNumeral_eq_ok_iff.mpr (by omega)

theorem checkCount_eq_ok {n : Int} (natural : 0 ≤ n) (small : n < wordBound) :
    checkCount n = .ok () := by
  have word : fitsWord n = true := by
    rw [fitsWord, Bool.and_eq_true, decide_eq_true_iff, decide_eq_true_iff]
    omega
  exact if_pos word

/-- A text is cut in one way at its last line feed. -/
theorem append_feed_inj {before after before' after' : List Char}
    (same : before ++ '\n' :: after = before' ++ '\n' :: after') (last : '\n' ∉ after)
    (last' : '\n' ∉ after') : before = before' ∧ after = after' := by
  rcases List.append_eq_append_iff.mp same with ⟨more, longer, tails⟩ | ⟨more, longer, tails⟩
  · cases more with
    | nil => exact ⟨by simpa using longer.symm, (List.cons.inj tails).2⟩
    | cons c more =>
      refine absurd ?_ last
      simp [(List.cons.inj tails).2]
  · cases more with
    | nil => exact ⟨by simpa using longer, (List.cons.inj tails).2.symm⟩
    | cons c more =>
      refine absurd ?_ last'
      simp [(List.cons.inj tails).2]

end Text

namespace Lexing

section Places

variable {source : List Char}

/-- The character that a piece begins with; only a blank begins with a blank. -/
theorem piece_begins {done later : List Piece} {piece : Piece}
    (split : (scan source).pieces = done ++ piece :: later) :
    ∃ c, source[(textOf done).length]? = some c ∧ (Text.isBlank c = true → piece = .blank c) := by
  obtain ⟨s, t, first, step, _⟩ := scan_split split
  have whole : source = textOf done ++ s.ahead := first.ahead_eq
  obtain ⟨c, rest, ahead, _, made⟩ := State.piece_of_step step
  refine ⟨c, by rw [whole, ahead]; simp, fun isBlank => ?_⟩
  rw [made, pieceAt, if_pos isBlank]

/-- A place that a diagnostic may point at: a character that is no blank. -/
def Visible (source : List Char) (offset : Nat) : Prop :=
  ∃ c, source[offset]? = some c ∧ Text.isBlank c = false

theorem visible_of_piece {done later : List Piece} {piece : Piece}
    (split : (scan source).pieces = done ++ piece :: later) (notBlank : ∀ c, piece ≠ .blank c) :
    Visible source (textOf done).length := by
  obtain ⟨c, found, isBlank⟩ := piece_begins split
  refine ⟨c, found, ?_⟩
  rw [Bool.eq_false_iff]
  exact fun blank => notBlank c (isBlank blank)

theorem Visible.lt_length {offset : Nat} (visible : Visible source offset) :
    offset < source.length := by
  obtain ⟨c, found, _⟩ := visible
  exact (List.getElem?_eq_some_iff.mp found).1

theorem skipped_visible {finding : Finding}
    (member : finding ∈ findingsFrom 0 (scan source).pieces) :
    Visible source finding.offset ∧ finding.length = 1 := by
  rw [findingsFrom_eq_collect] at member
  obtain ⟨done, piece, later, split, given⟩ := mem_collect member
  rw [Nat.zero_add] at given
  cases piece with
  | stray c =>
    cases List.mem_singleton.mp given
    exact ⟨visible_of_piece split (by simp), rfl⟩
  | danglingEscape =>
    cases List.mem_singleton.mp given
    exact ⟨visible_of_piece split (by simp), rfl⟩
  | lexeme category text => cases given
  | blank c => cases given

theorem enclosure_visible {entered : Entered}
    (ends : (scan source).ending.within = some entered) : Visible source entered.start := by
  obtain ⟨done, category, text, later, split, same⟩ :=
    mem_tokensFrom (opener_mem_tokensFrom ends)
  have start : entered.start = (textOf done).length := by
    have starts := congrArg Token.start same
    simp only [Entered.opener, Nat.zero_add] at starts
    omega
  rw [start]
  exact visible_of_piece split (by simp)

theorem nul_visible {offset : Nat} (stopped : (scan source).ending = .nul offset) :
    Visible source offset := by
  exact ⟨'\x00', (nul_of_ending stopped).2, by decide⟩

/-- The part of a source that a finding is about is not empty and begins with a character that is no
blank. -/
theorem finding_visible {finding : Finding} (member : finding ∈ findings source) :
    Visible source finding.offset ∧ 1 ≤ finding.length ∧
      finding.offset + finding.length ≤ source.length := by
  rcases List.mem_append.mp member with skipped | last
  · obtain ⟨visible, single⟩ := skipped_visible skipped
    have inside := visible.lt_length
    exact ⟨visible, by omega, by omega⟩
  · cases ending : (scan source).ending with
    | complete =>
      rw [ending] at last
      cases last
    | unterminated entered =>
      have within : (scan source).ending.within = some entered := by
        rw [ending]
        rfl
      have visible := enclosure_visible within
      have inside := visible.lt_length
      rw [ending] at last
      cases List.mem_singleton.mp last
      exact ⟨visible, by simp only; omega, by simp only; omega⟩
    | nul offset =>
      have visible := nul_visible ending
      rw [ending] at last
      cases List.mem_singleton.mp last
      exact ⟨visible, Nat.le_refl 1, visible.lt_length⟩

end Places

end Lexing

section Lines

variable {source : List Char} {offset : Nat}

theorem Position.lastLineStart_take :
    lastLineStart (source.take offset) = (Text.linesAbove source offset).length := by
  have lengths := congrArg List.length (Text.linesAbove_append_lineHead source offset)
  have head : (Text.lineHead source offset).length =
      ((source.take offset).reverse.takeWhile (· ≠ '\n')).length := List.length_reverse
  rw [List.length_append, head] at lengths
  rw [lastLineStart, ← lengths, Nat.add_sub_cancel]

/-- A position counts the line feeds above it and the characters before it on its line. -/
theorem Position.ofOffset_eq (inside : offset ≤ source.length) :
    ofOffset source offset = ⟨(Text.linesAbove source offset).count '\n' + 1,
      (Text.lineHead source offset).length + 1, offset⟩ := by
  have before := Text.linesAbove_append_lineHead source offset
  have width := congrArg List.length before
  have feeds := congrArg (List.count '\n') before
  rw [List.length_append, List.length_take, Nat.min_eq_left inside] at width
  rw [List.count_append, List.count_eq_zero.mpr (Text.not_mem_lineHead source offset),
    Nat.add_zero] at feeds
  rw [ofOffset, Text.clampIndex_ofNat, Nat.min_eq_left inside]
  simp only [lastLineStart_take, ← feeds, mk.injEq, and_true, true_and]
  omega

/-- The line that an offset is on, without the carriage returns at its end. -/
def Text.shownLine (source : List Char) (offset : Nat) : List Char :=
  (Text.lineAt source offset).rdropWhile (· = '\r')

theorem Text.not_mem_shownLine : '\n' ∉ Text.shownLine source offset := fun member =>
  Text.not_mem_lineAt source offset ((List.rdropWhile_prefix _ _).subset member)

/-- The line of a visible character goes on with that character, which is not trimmed off. -/
theorem Lexing.Visible.line_eq (visible : Lexing.Visible source offset) :
    ∃ c more, source[offset]? = some c ∧ c ≠ '\r' ∧
      Text.lineAt source offset = Text.lineHead source offset ++ c :: more := by
  obtain ⟨c, found, notBlank⟩ := visible
  have notBreak : Text.isLineBreak c = false := by
    rw [Bool.eq_false_iff]
    intro breaks
    rw [Text.isBlank_of_isLineBreak breaks] at notBlank
    cases notBlank
  have notFeed : c ≠ '\n' := by
    rintro rfl
    cases notBreak
  have notReturn : c ≠ '\r' := by
    rintro rfl
    cases notBreak
  obtain ⟨inside, same⟩ := List.getElem?_eq_some_iff.mp found
  have ahead : source.drop offset = c :: source.drop (offset + 1) := by
    rw [List.drop_eq_getElem_cons inside, same]
  refine ⟨c, (source.drop (offset + 1)).takeWhile (· ≠ '\n'), found, notReturn, ?_⟩
  rw [Text.lineAt, ahead, List.takeWhile_cons_of_pos (by simpa using notFeed)]

theorem Lexing.Visible.lineAt_ne_nil (visible : Lexing.Visible source offset) :
    Text.lineAt source offset ≠ [] := by
  obtain ⟨c, more, _, _, line⟩ := visible.line_eq
  simp [line]

theorem Lexing.Visible.shownLine_eq (visible : Lexing.Visible source offset) :
    ∃ c rest, source[offset]? = some c ∧
      Text.shownLine source offset = Text.lineHead source offset ++ c :: rest := by
  obtain ⟨c, more, found, notReturn, line⟩ := visible.line_eq
  have kept : (Text.lineHead source offset ++ [c]).rdropWhile (· = '\r') =
      Text.lineHead source offset ++ [c] :=
    List.rdropWhile_concat_neg _ _ _ (by simpa using notReturn)
  rw [Text.shownLine, line, ← List.singleton_append, ← List.append_assoc,
    Text.rdropWhile_append]
  split
  · exact ⟨c, [], found, kept⟩
  · exact ⟨c, _, found, by rw [List.append_assoc, List.singleton_append]⟩

end Lines

namespace Diagnostic

section Displays

variable (d : Diagnostic)

/-- What stands before the line in a display: its number and a bar. -/
def gutter : List Char := Text.Numeral.ofInt d.position.line ++ " | ".toList

/-- What stands before the carets: the bar without the number. -/
def blankGutter : List Char :=
  List.replicate ((Text.Numeral.ofInt d.position.line).length + 1) ' ' ++ "| ".toList

theorem blankGutter_length : d.blankGutter.length = d.gutter.length := by
  simp [gutter, blankGutter]

/-- A display that ends with the given line after the gutter and with carets under it, of which the
first is indented by the given number of columns. -/
def Shows (display line : List Char) (indent carets : Nat) : Prop :=
  ∃ header, display = header ++ '\n' :: (d.gutter ++ line) ++
    '\n' :: (d.blankGutter ++ List.replicate indent ' ' ++ List.replicate carets '^')

theorem shows_format (filename : List Char) :
    d.Shows (d.format filename) d.excerpt (d.position.column - 1).toNat d.underlineLength := by
  unfold Shows format gutter blankGutter
  refine ⟨"error: ".toList ++ d.message ++ '\n' ::
    List.replicate ((Text.Numeral.ofInt d.position.line).length + 1) ' ' ++ "--> ".toList ++
    filename ++ ':' :: Text.Numeral.ofInt d.position.line ++
    ':' :: Text.Numeral.ofInt d.position.column ++
    '\n' :: List.replicate ((Text.Numeral.ofInt d.position.line).length + 1) ' ' ++ ['|'], ?_⟩
  simp only [List.append_assoc, List.cons_append, List.nil_append]

/-- A display ends in one way only with lines that have no line feed in them. -/
theorem Shows.line_unique {d : Diagnostic} {display line other : List Char}
    {indent carets indent' carets' : Nat} (first : d.Shows display line indent carets)
    (second : d.Shows display other indent' carets') (whole : '\n' ∉ line) (single : '\n' ∉ other)
    (numbered : 0 ≤ d.position.line) : line = other := by
  have number : '\n' ∉ Text.Numeral.ofInt d.position.line := fun member => by
    have digit := isParameter_of_mem_numeral numbered member
    cases digit
  have gutter : '\n' ∉ d.gutter := by simp [Diagnostic.gutter, number]
  have blank : ∀ indent carets, '\n' ∉
      d.blankGutter ++ List.replicate indent ' ' ++ List.replicate carets '^' := by
    simp [blankGutter]
  obtain ⟨header, rfl⟩ := first
  obtain ⟨header', same⟩ := second
  obtain ⟨above, _⟩ := Text.append_feed_inj same (blank _ _) (blank _ _)
  obtain ⟨_, lines⟩ := Text.append_feed_inj above (by simp [gutter, whole])
    (by simp [gutter, single])
  exact List.append_cancel_left lines

end Displays

section Pointing

/-- A display points at the part of a source that a diagnostic is about: it shows the line that the
part begins on, the first caret stands under the first character of the part, and there is a caret
for each of its characters that are on the shown line. -/
def PointsAt (source : List Char) (d : Diagnostic) (display : List Char) : Prop :=
  let offset := d.position.offset.toNat
  let start := (Text.linesAbove source offset).length
  let index := (Text.lineHead source offset).length
  let shown := Text.shownLine source offset
  ∃ indent carets, d.Shows display shown indent carets ∧
    (d.blankGutter.length + indent = d.gutter.length + index ∧
      index < shown.length ∧ shown[index]? = source[offset]?) ∧
    carets = (Finset.Ico offset (offset + d.length.toNat) ∩
      Finset.Ico start (start + shown.length)).card ∧
    1 ≤ carets

theorem toNat_offset (source : List Char) (finding : Lexing.Finding) :
    (finding.diagnostic source).position.offset.toNat = finding.offset :=
  Int.toNat_natCast _

variable {source : List Char} {finding : Lexing.Finding}
  (member : finding ∈ Lexing.findings source)

include member

theorem position_eq : (finding.diagnostic source).position =
    ⟨(Text.linesAbove source finding.offset).count '\n' + 1,
      (Text.lineHead source finding.offset).length + 1, finding.offset⟩ := by
  have inside := (Lexing.finding_visible member).1.lt_length
  exact Position.ofOffset_eq (Nat.le_of_lt inside)

theorem excerpt_eq {line : Text.Line} (found : (Text.splitLines source)[
    (Text.linesAbove source finding.offset).count '\n']? = some line) :
    (finding.diagnostic source).excerpt = line.shown := by
  have place : (finding.diagnostic source).position.line - 1 =
      ((Text.linesAbove source finding.offset).count '\n' : Int) := by
    rw [position_eq member]
    exact Int.add_sub_cancel _ _
  have natural : ¬ ((Text.linesAbove source finding.offset).count '\n' : Int) < 0 := by omega
  have line' : (Text.splitLines (finding.diagnostic source).source)[
      (Text.linesAbove source finding.offset).count '\n']? = some line := found
  unfold excerpt
  rw [place, if_neg natural, Int.toNat_natCast, line']

theorem not_mem_excerpt : '\n' ∉ (finding.diagnostic source).excerpt := by
  have nonempty := (Lexing.finding_visible member).1.lineAt_ne_nil
  obtain ⟨line, found, _⟩ := Text.line_by_feeds source finding.offset nonempty
  rw [excerpt_eq member found]
  exact Text.Line.not_mem_shown (List.mem_of_getElem? found)

theorem shows_excerpt (filename : List Char) :
    (finding.diagnostic source).Shows ((finding.diagnostic source).format filename)
      (finding.diagnostic source).excerpt (Text.lineHead source finding.offset).length
      (finding.diagnostic source).underlineLength := by
  have column : ((finding.diagnostic source).position.column - 1).toNat =
      (Text.lineHead source finding.offset).length := by
    rw [position_eq member]
    simp
  have shows := shows_format (finding.diagnostic source) filename
  rw [column] at shows
  exact shows

/-- As many characters are underlined as there are to be seen of the part, on a line that shows its
first one. -/
theorem underlineLength_eq {line : List Char}
    (shown : (finding.diagnostic source).excerpt = line)
    (first : (Text.lineHead source finding.offset).length < line.length) :
    (finding.diagnostic source).underlineLength =
      min finding.length (line.length - (Text.lineHead source finding.offset).length) := by
  have positive := (Lexing.finding_visible member).2.1
  have length : (finding.diagnostic source).length = finding.length := rfl
  rw [underlineLength, shown, length, position_eq member]
  simp only
  omega

/-- The display of a diagnostic points at its part of the source exactly when it shows the line that
the part begins on. -/
theorem pointsAt_iff (filename : List Char) :
    PointsAt source (finding.diagnostic source) ((finding.diagnostic source).format filename) ↔
      (finding.diagnostic source).excerpt = Text.shownLine source finding.offset := by
  obtain ⟨visible, positive, inside⟩ := Lexing.finding_visible member
  obtain ⟨c, rest, found, line⟩ := visible.shownLine_eq
  have shows := shows_excerpt member filename
  constructor
  · -- a display can be read back from its end, so the two lines that it shows are one
    rintro ⟨indent, carets, pointed, _⟩
    rw [toNat_offset] at pointed
    refine shows.line_unique pointed (not_mem_excerpt member) Text.not_mem_shownLine ?_
    rw [position_eq member]
    exact Int.natCast_nonneg (_ + 1)
  · intro same
    have before := congrArg List.length (Text.linesAbove_append_lineHead source finding.offset)
    rw [List.length_append, List.length_take] at before
    have first : (Text.lineHead source finding.offset).length <
        (Text.shownLine source finding.offset).length := by simp [line]
    have length : (finding.diagnostic source).length.toNat = finding.length := Int.toNat_natCast _
    rw [same, underlineLength_eq member same first] at shows
    unfold PointsAt
    rw [toNat_offset, length]
    refine ⟨_, _, shows, ⟨by rw [blankGutter_length], first, ?_⟩, ?_, by omega⟩
    · rw [line, found]
      simp
    · rw [Finset.Ico_inter_Ico, Nat.card_Ico]
      omega

/-- The display of a diagnostic can be written if the length of the source fits a machine word. -/
theorem format?_eq_ok (writable : source.length < Text.wordBound) (filename : List Char) :
    (finding.diagnostic source).format? filename =
      .ok ((finding.diagnostic source).format filename) := by
  obtain ⟨visible, positive, inside⟩ := Lexing.finding_visible member
  have before := Text.linesAbove_append_lineHead source finding.offset
  have width := congrArg List.length before
  rw [List.length_append, List.length_take] at width
  have feeds : (Text.linesAbove source finding.offset).count '\n' ≤
    (Text.linesAbove source finding.offset).length := List.count_le_length
  have carets : (finding.diagnostic source).underlineLength ≤ source.length := by
    have length : (finding.diagnostic source).length = finding.length := rfl
    rw [underlineLength, length]
    omega
  have line : 0 ≤ (finding.diagnostic source).position.line ∧
      (finding.diagnostic source).position.line ≤ Text.wordBound := by
    rw [position_eq member]
    simp only
    omega
  have column : 0 ≤ (finding.diagnostic source).position.column - 1 ∧
      (finding.diagnostic source).position.column - 1 < Text.wordBound := by
    rw [position_eq member]
    simp only
    omega
  unfold format?
  rw [checkPlace, Text.checkNumeral_eq_ok line.1 line.2,
    Text.checkNumeral_eq_ok (by omega) (by omega), Text.checkCount_eq_ok column.1 column.2,
    Text.checkCount_eq_ok (by omega) (by omega)]
  rfl

end Pointing

/-- The display of a diagnostic shows the line that the diagnostic is about, with carets under the
right characters, as long as no line break other than a line feed interferes. If the lines above all
end with line feeds, at most carriage returns may come after the first line break on the line. If
they do not, a line further up is shown. -/
theorem display_points_at_line_iff {source : List Char} {d : Diagnostic}
    (reported : d ∈ (Lexing.tokenize source).diagnostics) (filename : List Char) :
    let offset := d.position.offset.toNat
    let above := Text.linesAbove source offset
    (source.length < Text.wordBound → d.format? filename = .ok (d.format filename)) ∧
    (Text.lineFeedsOnly above = true →
      (PointsAt source d (d.format filename) ↔
        (Text.afterBreak (Text.lineAt source offset)).all (· = '\r') = true)) ∧
    (Text.lineFeedsOnly above = false →
      ∃ line indent carets, (Text.splitLines above)[above.count '\n']? = some line ∧
        d.Shows (d.format filename) line.shown indent carets ∧
        (PointsAt source d (d.format filename) ↔ line.shown = Text.shownLine source offset)) := by
  rw [Lexing.tokenize_diagnostics, List.mem_map] at reported
  obtain ⟨finding, member, rfl⟩ := reported
  have nonempty := (Lexing.finding_visible member).1.lineAt_ne_nil
  obtain ⟨line, found, cases⟩ := Text.line_by_feeds source finding.offset nonempty
  have points := pointsAt_iff member filename
  rw [excerpt_eq member found] at points
  rw [toNat_offset]
  refine ⟨fun writable => format?_eq_ok member writable filename, ?_, ?_⟩
  · intro tidy
    rw [if_pos tidy] at cases
    rw [points, cases, ← Text.rdropWhile_eq_append_iff, Text.throughBreak_append_afterBreak]
    rfl
  · intro mixed
    rw [if_neg (by simp [mixed])] at cases
    have shows := shows_excerpt member filename
    rw [excerpt_eq member found] at shows
    exact ⟨line, _, _, cases, shows, points⟩

/-- Carriage returns at the ends of lines do no harm: here the second line is shown, and its quote
and the letter after it are underlined. -/
theorem display_points_at_line_iff_returns :
    PointsAt "a\r\n \"b\r\r\nc".toList
      (Lexing.Finding.diagnostic "a\r\n \"b\r\r\nc".toList
        ⟨.unterminated .doubleQuote, 4, 6⟩)
      (format (Lexing.Finding.diagnostic "a\r\n \"b\r\r\nc".toList
        ⟨.unterminated .doubleQuote, 4, 6⟩) defaultFilename) := by
  have reported : Lexing.Finding.diagnostic "a\r\n \"b\r\r\nc".toList
      ⟨.unterminated .doubleQuote, 4, 6⟩ ∈
        (Lexing.tokenize "a\r\n \"b\r\r\nc".toList).diagnostics := by decide +kernel
  obtain ⟨_, tidy, _⟩ := display_points_at_line_iff reported defaultFilename
  exact (tidy (by decide +kernel)).mpr (by decide +kernel)

/-- A form feed further up: the character on the second line is reported under another line. -/
theorem display_misses_line : ∃ d ∈ (Lexing.tokenize "x\x0cy\n§".toList).diagnostics,
    d.Shows (d.format defaultFilename) ['y'] 0 1 ∧
      Text.shownLine "x\x0cy\n§".toList d.position.offset.toNat = ['§'] ∧
      ¬ PointsAt "x\x0cy\n§".toList d (d.format defaultFilename) := by
  have member : ⟨.stray '§', 4, 1⟩ ∈ Lexing.findings "x\x0cy\n§".toList := by decide +kernel
  have excerpt : (Lexing.Finding.diagnostic "x\x0cy\n§".toList ⟨.stray '§', 4, 1⟩).excerpt =
      ['y'] := by decide +kernel
  have carets : (Lexing.Finding.diagnostic "x\x0cy\n§".toList
      ⟨.stray '§', 4, 1⟩).underlineLength = 1 := by decide +kernel
  have line : Text.shownLine "x\x0cy\n§".toList 4 = ['§'] := by decide +kernel
  refine ⟨Lexing.Finding.diagnostic "x\x0cy\n§".toList ⟨.stray '§', 4, 1⟩, ?_, ?_, line, ?_⟩
  · rw [Lexing.tokenize_diagnostics]
    exact List.mem_map_of_mem member
  · have shows := shows_excerpt member defaultFilename
    rw [excerpt, carets] at shows
    exact shows
  · rw [pointsAt_iff member, excerpt, line]
    decide

end Diagnostic

end Astra
