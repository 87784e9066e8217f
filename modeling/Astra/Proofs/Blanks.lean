import Astra.Proofs.Comments
import Astra.Proofs.Concatenation

/-!
# Amounts of blank space

A blank between tokens can be doubled: the same tokens and the same complaints come about, further
along from there on. Nothing before the blank looks beyond it, except a line comment, which would
have the blank in it; and what comes after the blank does not depend on offsets. A carriage return
is different, since one of them belongs to a line end and a second one to the comment before it.
-/

namespace Astra

/-- The same token in a source that has one more character behind the one at `i`. -/
def Token.behind (i : Nat) (token : Token) : Token :=
  { token with start := if token.start ≤ i then token.start else token.start + 1 }

namespace Lexing

section Before

variable {stop : Char} (blank : Text.isBlank stop = true) (noReturn : stop ≠ '\r')
  {within : Option Enclosure} {previous : Option Char} {c : Char} {rest after : List Char}

include blank noReturn

/-- A piece that ends before a blank does not depend on what comes after the blank. -/
theorem pieceAt_before_blank
    (ends : (pieceAt within previous c (rest ++ stop :: after)).text.length ≤ (c :: rest).length)
    (other : List Char) :
    pieceAt within previous c (rest ++ stop :: other) =
      pieceAt within previous c (rest ++ stop :: after) := by
  rw [List.append_cons] at ends
  rw [List.append_cons rest stop other, List.append_cons rest stop after]
  have member : stop ∈ c :: (rest ++ [stop]) := by simp
  by_cases line : '\n' ∈ c :: (rest ++ [stop])
  · rw [pieceAt_append other line, pieceAt_append after line]
  · -- a line comment would go on over the blank
    have uncommented : within = none → lineComment? (c :: (rest ++ [stop])) = none := by
      rintro rfl
      by_contra commented
      obtain ⟨category, found⟩ := Option.ne_none_iff_exists'.mp commented
      obtain ⟨marker, listed, begins⟩ := lineComment?_eq_some_iff.mp found
      have last : (c :: (rest ++ [stop])).getLast? ≠ some '\r' := by
        rw [← List.cons_append, List.getLast?_concat]
        exact fun same => noReturn (Option.some.inj same)
      have extended : c :: (rest ++ [stop]) <+: c :: (rest ++ [stop] ++ after) :=
        List.prefix_append (c :: (rest ++ [stop])) after
      have through := begins_restOfLine extended line last
      rw [pieceAt_of_marker listed (begins.trans extended)] at ends
      have longer := through.length_le
      simp only [Piece.text, List.length_cons, List.length_append, List.length_nil] at ends longer
      omega
    have same : ∀ more, comment? within (c :: (rest ++ [stop]) ++ more) =
        comment? within (c :: (rest ++ [stop])) := by
      intro more
      cases within with
      | some e => rfl
      | none => rw [comment?, comment?, lineComment?_append member blank more, uncommented rfl]; rfl
    rw [pieceAt_append_of_comment? member blank other (same other),
      pieceAt_append_of_comment? member blank after (same after)]

/-- A run up to a blank does not depend on what comes after the blank. -/
theorem Run.before_blank {s t : State} {pieces : List Piece} (run : Run s pieces t)
    (ahead : t.ahead = stop :: after) (other : List Char) :
    Run { s with ahead := textOf pieces ++ stop :: other } pieces
      { t with ahead := stop :: other } := by
  induction run with
  | nil s => exact .nil _
  | @cons s t piece pieces step tail ih =>
    have cut := State.cut_of_step step
    obtain ⟨c, more, begins⟩ := List.exists_cons_of_ne_nil cut.text_ne_nil
    have whole : s.ahead = c :: (more ++ textOf pieces ++ stop :: after) := by
      rw [(Run.cons step tail).ahead_eq, ahead, textOf_cons, begins]
      rfl
    have changed : textOf (piece :: pieces) ++ stop :: other =
        c :: (more ++ textOf pieces ++ stop :: other) := by
      rw [textOf_cons, begins]
      rfl
    rw [State.step_cons whole] at step
    split at step
    · cases step
    · rename_i notNul
      have made := Step.piece.inj step
      have ends : piece.text.length ≤ (c :: (more ++ textOf pieces)).length := by
        rw [begins]
        simp
      rw [← made] at ends
      refine .cons ?_ ?_
      · rw [State.step_cons changed, if_neg notNul, ← made]
        exact congrArg Step.piece (pieceAt_before_blank blank noReturn ends other)
      · have dropped : (textOf (piece :: pieces) ++ stop :: other).drop piece.text.length =
            textOf pieces ++ stop :: other := by
          rw [textOf_cons, List.append_assoc, List.drop_left]
        have later := ih ahead
        rw [← dropped] at later
        exact later

end Before

/-- An enclosure was entered before any point at which a scan is in it. -/
theorem Run.within_lt {s t : State} {pieces : List Piece} (run : Run s pieces t)
    (first : ∀ entered, s.within = some entered → entered.start < s.offset) :
    ∀ entered, t.within = some entered → entered.start < t.offset := by
  induction run with
  | nil s => exact first
  | @cons s t piece pieces step _ ih =>
    apply ih
    intro entered inside
    have further : s.offset < (s.advance piece).offset :=
      Nat.lt_add_of_pos_right (List.length_pos_iff.mpr (State.cut_of_step step).text_ne_nil)
    rcases State.within_of_advance inside with before | here
    · exact Nat.lt_trans (first entered before) further
    · exact here ▸ further

/-- Where an offset lies once a character has been inserted behind the one at `i`. -/
def behind (i n : Nat) : Nat := if n ≤ i then n else n + 1

section Doubling

variable {i n : Nat} {c : Char} {s : State} {done later : List Piece}

theorem behind_of_le (before : n ≤ i) : behind i n = n := if_pos before

theorem behind_of_lt (after : i < n) : behind i n = n + 1 := if_neg (Nat.not_le.mpr after)

theorem behind_keeps (n : Nat) : behind i (i + 1 + n) = behind i (i + 1) + n := by
  rw [behind_of_lt (by omega), behind_of_lt (by omega)]
  omega

theorem State.step_of_blank (blank : Text.isBlank c = true) {rest : List Char}
    (ahead : s.ahead = c :: rest) : s.step = .piece (.blank c) := by
  have notNul : c ≠ '\x00' := by
    rintro rfl
    exact absurd blank (by decide)
  rw [step_cons ahead, if_neg notNul, pieceAt, if_pos blank]

/-- The point after two blanks is the one after a single blank, further along. -/
theorem State.advance_twice {after : List Char} (ahead : s.ahead = c :: after)
    (entered : ∀ entered, s.within = some entered → entered.start < s.offset) :
    (State.advance { s with ahead := c :: c :: after } (.blank c)).advance (.blank c) =
      (s.advance (.blank c)).relocate (behind s.offset) := by
  have within : s.within.map (Entered.relocate (behind s.offset)) = s.within := by
    cases inside : s.within with
    | none => rfl
    | some other =>
      have before := Nat.le_of_lt (entered other inside)
      simp only [Option.map_some, Entered.relocate, behind_of_le before]
  have offset : behind s.offset (s.offset + 1) = s.offset + 1 + 1 :=
    behind_of_lt (Nat.lt_succ_self _)
  simp only [advance, relocate, withinAfter, Piece.text, ahead, List.length_singleton, within,
    offset]
  rfl

theorem insertIdx_doubled (before after : List Char) (c : Char) :
    (before ++ c :: after).insertIdx (before.length + 1) c = before ++ c :: c :: after := by
  induction before with
  | nil => rfl
  | cons first rest ih => exact congrArg (first :: ·) ih

/-- Blanks give nothing, and what the other pieces give moves with its offset. -/
theorem collect_doubled {α : Type} {give : Nat → Piece → List α} {move : α → α}
    (moves : ∀ offset piece,
      give (behind (textOf done).length offset) piece = (give offset piece).map move)
    (silent : ∀ offset, give offset (.blank c) = []) :
    collect give 0 (done ++ .blank c :: .blank c :: later) =
      (collect give 0 (done ++ .blank c :: later)).map move := by
  have before : collect give 0 done = (collect give 0 done).map move := by
    have keeps : ∀ n ≤ (textOf done).length, behind (textOf done).length (0 + n) =
        behind (textOf done).length 0 + n := by
      intro n bound
      rw [Nat.zero_add, behind_of_le bound, behind_of_le (Nat.zero_le _), Nat.zero_add]
    have moved := collect_relocate moves keeps
    rwa [behind_of_le (Nat.zero_le _)] at moved
  have after : collect give ((textOf done).length + 1 + 1) later =
      (collect give ((textOf done).length + 1) later).map move := by
    have keeps : ∀ n ≤ (textOf later).length,
        behind (textOf done).length ((textOf done).length + 1 + n) =
          behind (textOf done).length ((textOf done).length + 1) + n := fun n _ => behind_keeps n
    have moved := collect_relocate moves keeps
    rwa [behind_of_lt (Nat.lt_succ_self _)] at moved
  simp only [collect_append, collect, silent, List.nil_append, List.map_append, Nat.zero_add]
  exact congrArg₂ (· ++ ·) before after

/-- An offset behind a character, as tokens and diagnostics count it. -/
theorem natCast_behind (i n : Nat) :
    ((behind i n : Nat) : Int) = if (n : Int) ≤ i then (n : Int) else n + 1 := by
  rw [behind]
  split
  · rw [if_pos (by omega)]
  · rw [if_neg (by omega)]
    rfl

end Doubling

section Doubled

variable {c : Char} {source : List Char} {done later : List Piece}
  (blank : Text.isBlank c = true) (noReturn : c ≠ '\r')
  (split : (scan source).pieces = done ++ .blank c :: later)

include split

theorem length_insertIdx :
    (textOf done).length < source.length ∧
    (source.insertIdx ((textOf done).length + 1) c).length = source.length + 1 := by
  obtain ⟨t, _, _, whole, _⟩ := scan_spec source
  have total := congrArg List.length whole
  rw [split, textOf_append, textOf_cons, List.length_append, List.length_append, List.length_append,
    Piece.text, List.length_singleton] at total
  exact ⟨by omega, List.length_insertIdx_of_le_length (by omega) c⟩

include blank noReturn

/-- The scan of a source in which a blank is doubled. -/
theorem scan_doubled :
    scan (source.insertIdx ((textOf done).length + 1) c) =
      ⟨done ++ .blank c :: .blank c :: later,
        (scan source).ending.relocate (behind (textOf done).length)⟩ := by
  obtain ⟨s, t, run, step, _⟩ := scan_split split
  have place : s.offset = (textOf done).length := run.offset_eq.trans (Nat.zero_add _)
  obtain ⟨after, begins⟩ : [c] <+: s.ahead := (State.cut_of_step step).text_begins
  have ahead : s.ahead = c :: after := begins.symm
  have whole : source = textOf done ++ s.ahead := run.ahead_eq
  have scanned : scan source = ⟨done ++ .blank c :: (s.advance (.blank c)).scan.pieces,
      (s.advance (.blank c)).scan.ending⟩ := by
    rw [scan, run.scan_eq, State.scan_of_piece step]
  have rest : (s.advance (.blank c)).scan.pieces = later := by
    rw [scanned] at split
    exact (List.cons.inj (List.append_cancel_left split)).2
  have changed : Run (State.start (textOf done ++ c :: c :: after)) done
      { s with ahead := c :: c :: after } := run.before_blank blank noReturn ahead (c :: after)
  have entered : ∀ entered, s.within = some entered → entered.start < s.offset := by
    apply run.within_lt
    intro other outside
    cases outside
  have keeps : ∀ n, behind s.offset ((s.advance (.blank c)).offset + n) =
      behind s.offset (s.advance (.blank c)).offset + n := behind_keeps
  rw [whole, ahead, insertIdx_doubled, scan, changed.scan_eq,
    State.scan_of_piece (State.step_of_blank blank rfl),
    State.scan_of_piece (State.step_of_blank blank rfl), State.advance_twice ahead entered,
    State.scan_relocate keeps, rest, ← ahead, ← whole, scanned, place]

theorem tokens_doubled :
    tokens (source.insertIdx ((textOf done).length + 1) c) =
      (tokens source).map (Token.behind (textOf done).length) := by
  obtain ⟨bound, length⟩ := length_insertIdx split
  rw [tokens, tokens, scan_doubled blank noReturn split, length, List.map_append]
  refine congrArg₂ (· ++ ·) ?_ ?_
  · rw [split, tokensFrom_eq_collect, tokensFrom_eq_collect]
    refine collect_doubled ?_ fun _ => rfl
    intro offset piece
    cases piece with
    | lexeme category text => simp [Piece.tokensAt, Token.behind, natCast_behind]
    | blank c => rfl
    | stray c => rfl
    | danglingEscape => rfl
  · have last : Token.behind (textOf done).length ⟨.endOfText, source.length, 0⟩ =
        ⟨.endOfText, (source.length + 1 : Nat), 0⟩ := by
      rw [Token.behind, ← natCast_behind, behind_of_lt bound]
    cases (scan source).ending with
    | complete => exact congrArg (fun token => [token]) last.symm
    | unterminated entered => exact congrArg (fun token => [token]) last.symm
    | nul offset => rfl

theorem texts_doubled :
    let doubled := source.insertIdx ((textOf done).length + 1) c
    (tokenize doubled).tokens.map (fun token => (token.category, token.text doubled)) =
      (tokenize source).tokens.map (fun token => (token.category, token.text source)) := by
  intro doubled
  rw [tokens_lexemes, tokens_lexemes, scan_doubled blank noReturn split, split]
  refine congrArg₂ (· ++ ·) ?_ ?_
  · rw [List.filterMap_append, List.filterMap_append]
    rfl
  · cases (scan source).ending <;> rfl

/-- A finding keeps what it is about; only the length of an enclosure that is left open changes. -/
theorem findings_doubled :
    (findings (source.insertIdx ((textOf done).length + 1) c)).map
      (fun finding => (finding.complaint, finding.offset)) =
      (findings source).map fun finding =>
        (finding.complaint, behind (textOf done).length finding.offset) := by
  rw [findings, findings, scan_doubled blank noReturn split, List.map_append, List.map_append]
  refine congrArg₂ (· ++ ·) ?_ ?_
  · have moved : findingsFrom 0 (done ++ .blank c :: .blank c :: later) =
        (findingsFrom 0 (done ++ .blank c :: later)).map fun finding =>
          { finding with offset := behind (textOf done).length finding.offset } := by
      rw [findingsFrom_eq_collect, findingsFrom_eq_collect]
      refine collect_doubled ?_ fun _ => rfl
      intro offset piece
      cases piece <;> rfl
    rw [split]
    dsimp only
    rw [moved, List.map_map]
    rfl
  · cases (scan source).ending <;> rfl

end Doubled

/-- A blank that lies in no token, before the place where the scan stops, is a piece. -/
theorem exists_blank {source : List Char} {i : Nat} {c : Char} (found : source[i]? = some c)
    (blank : Text.isBlank c = true)
    (outside : ∀ token ∈ (tokenize source).tokens, token.covers i = false)
    (early : ∀ d ∈ (tokenize source).diagnostics, d.isNul = true → (i : Int) < d.position.offset) :
    ∃ done later, (scan source).pieces = done ++ .blank c :: later ∧ (textOf done).length = i := by
  have inside : (i : Int) < stopOf source := by
    rw [stopOf]
    cases first : (tokenize source).diagnostics.find? Diagnostic.isNul with
    | some d => exact early d (List.mem_of_find?_eq_some first) (List.find?_some first)
    | none =>
      obtain ⟨bound, _⟩ := List.getElem?_eq_some_iff.mp found
      exact Int.ofNat_lt.mpr bound
  obtain ⟨done, piece, later, split, low, high, char⟩ := exists_piece_of_lt_stopOf inside
  obtain ⟨t, run, _⟩ := scan_spec source
  obtain ⟨within, ahead, cut⟩ := run.proper piece (by simp [split])
  -- the token of a lexeme would cover the offset
  have uncovered : ∀ category text, piece ≠ .lexeme category text := by
    rintro category text rfl
    have none : (tokenize source).tokens.countP (·.covers i) = 0 :=
      List.countP_eq_zero.mpr fun token member => Bool.not_eq_true _ ▸ outside token member
    have covered : ((Piece.lexeme category text).tokensAt (textOf done).length).countP
        (·.covers i) = 1 := countP_tokensAt_lexeme category low high
    rw [countP_covers, split, countP_collect (tokensAt_near i) done _ later low high,
      covered] at none
    cases none
  have single : ∀ d, piece.text = [d] → (textOf done).length = i ∧ d = c := by
    intro d spelled
    obtain ⟨same, there⟩ := single_at spelled low high char
    exact ⟨same, Option.some.inj (there.symm.trans found)⟩
  cases piece with
  | blank d =>
    obtain ⟨same, rfl⟩ := single d rfl
    exact ⟨done, later, split, same⟩
  | lexeme category text => exact absurd rfl (uncovered category text)
  | stray d =>
    obtain ⟨_, rfl⟩ := single d rfl
    cases cut with
    | stray _ solid =>
      rw [blank] at solid
      cases solid
  | danglingEscape =>
    obtain ⟨_, rfl⟩ := single _ rfl
    exact absurd blank (by decide)

/-- A blank that lies in no token, is no carriage return and stands before the NUL character that
stops the scan, if there is one, can be doubled: the tokens are the same and have the same texts,
the complaints are the same, and what lies behind the blank lies one further along. -/
theorem blank_amount_irrelevant (source : List Char) (i : Nat) (c : Char)
    (found : source[i]? = some c) (blank : Text.isBlank c = true) (noReturn : c ≠ '\r')
    (outside : ∀ token ∈ (tokenize source).tokens, token.covers i = false)
    (early : ∀ d ∈ (tokenize source).diagnostics, d.isNul = true → (i : Int) < d.position.offset) :
    let doubled := source.insertIdx (i + 1) c
    (tokenize doubled).tokens = (tokenize source).tokens.map (Token.behind i) ∧
    (tokenize doubled).tokens.map (fun token => token.text doubled) =
      (tokenize source).tokens.map (fun token => token.text source) ∧
    (tokenize doubled).diagnostics.map (fun d => (d.message, d.position.offset)) =
      (tokenize source).diagnostics.map fun d => (d.message,
        if d.position.offset ≤ (i : Int) then d.position.offset else d.position.offset + 1) := by
  obtain ⟨done, later, split, rfl⟩ := exists_blank found blank outside early
  intro doubled
  refine ⟨?_, ?_, ?_⟩
  · rw [tokenize_tokens, tokenize_tokens]
    exact tokens_doubled blank noReturn split
  · have texts := congrArg (List.map Prod.snd) (texts_doubled blank noReturn split)
    rw [List.map_map, List.map_map] at texts
    exact texts
  · have places := congrArg
      (List.map fun place : Complaint × Nat => (place.1.message, (place.2 : Int)))
      (findings_doubled blank noReturn split)
    rw [List.map_map, List.map_map] at places
    rw [tokenize_diagnostics, tokenize_diagnostics, List.map_map, List.map_map]
    refine places.trans (List.map_congr_left ?_)
    intro finding _
    exact congrArg _ (natCast_behind _ _)

/-- The blank stands in a quotation that is left open, between an angle and a character that is
skipped; the quotation keeps its place and the skipped character does not. -/
theorem blank_amount_irrelevant_quoted :
    (∀ token ∈ (tokenize "x < 'y \x01".toList).tokens, token.covers 6 = false) ∧
    (tokenize "x < 'y  \x01".toList).tokens =
      (tokenize "x < 'y \x01".toList).tokens.map (Token.behind 6) ∧
    (tokenize "x < 'y \x01".toList).diagnostics.map (fun d => d.position.offset) = [7, 4] ∧
    (tokenize "x < 'y  \x01".toList).diagnostics.map (fun d => d.position.offset) = [8, 4] := by
  have outside : ∀ token ∈ (tokenize "x < 'y \x01".toList).tokens, token.covers 6 = false := by
    decide +kernel
  have early : ∀ d ∈ (tokenize "x < 'y \x01".toList).diagnostics, d.isNul = true →
      ((6 : Nat) : Int) < d.position.offset := by decide +kernel
  obtain ⟨tokens, _, places⟩ := blank_amount_irrelevant "x < 'y \x01".toList 6 ' ' rfl (by decide)
    (by decide) outside early
  refine ⟨outside, tokens, by decide +kernel, ?_⟩
  have offsets := congrArg (List.map Prod.snd) places
  rw [List.map_map, List.map_map] at offsets
  exact offsets.trans (by decide +kernel)

end Lexing

end Astra
