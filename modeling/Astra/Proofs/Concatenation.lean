import Astra.Proofs.Enclosures
import Astra.Proofs.Lookahead
import Astra.Proofs.Relocation

/-!
# Sources joined at a line end

A source that ends with a line feed and leaves nothing open can be tokenized apart from what
follows. The scan of the whole goes through the scan of the first part unchanged and then repeats
the scan of the second part, further along.
-/

namespace Astra

namespace Position

variable {a b : List Char}

theorem takeWhile_to_line (text rest : List Char) :
    (text ++ '\n' :: rest).takeWhile (· ≠ '\n') = text.takeWhile (· ≠ '\n') := by
  induction text with
  | nil => rfl
  | cons c text ih =>
    by_cases feed : c = '\n'
    · simp [feed]
    · simpa [feed] using ih

theorem lastLineStart_append (closed : a.getLast? = some '\n') (text : List Char) :
    lastLineStart (a ++ text) = a.length + lastLineStart text := by
  obtain ⟨front, rfl⟩ := List.getLast?_eq_some_iff.mp closed
  have turned : (front ++ ['\n'] ++ text).reverse = text.reverse ++ '\n' :: front.reverse := by simp
  have fits := (List.takeWhile_prefix (p := (· ≠ '\n')) (l := text.reverse)).length_le
  rw [List.length_reverse] at fits
  rw [lastLineStart, turned, takeWhile_to_line, List.length_append, lastLineStart]
  omega

/-- A position depends on the text before it only. -/
theorem ofOffset_append_left {n : Nat} (inside : n ≤ a.length) (b : List Char) :
    ofOffset (a ++ b) n = ofOffset a n := by
  have same : (a ++ b).take (Text.clampIndex (a ++ b).length n) =
      a.take (Text.clampIndex a.length n) := by
    rw [Text.clampIndex_ofNat, Text.clampIndex_ofNat, ← List.take_eq_take_min,
      ← List.take_eq_take_min, List.take_append_of_le_length inside]
  simp only [ofOffset, same]

/-- A position after complete lines is further down, in the same column. -/
theorem ofOffset_append_right (closed : a.getLast? = some '\n') (n : Nat) :
    ofOffset (a ++ b) (n + a.length : Nat) =
      ⟨(ofOffset b n).line + a.count '\n', (ofOffset b n).column,
        (ofOffset b n).offset + a.length⟩ := by
  have before : (a ++ b).take (Text.clampIndex (a ++ b).length (n + a.length : Nat)) =
      a ++ b.take (Text.clampIndex b.length n) := by
    rw [Text.clampIndex_ofNat, Text.clampIndex_ofNat, ← List.take_eq_take_min,
      ← List.take_eq_take_min, Nat.add_comm n, List.take_length_add_append]
  simp only [ofOffset, before, lastLineStart_append closed, List.count_append]
  congr 1 <;> omega

end Position

/-- The same token, further along. -/
def Token.shift (d : Nat) (token : Token) : Token := { token with start := token.start + d }

namespace Lexing

/-- Whether the last line of a text, if it has one, is complete. -/
def EndsLine (text : List Char) : Prop := ∀ c, text.getLast? = some c → c = '\n'

theorem EndsLine.drop {text : List Char} (ends : EndsLine text) (n : Nat) :
    EndsLine (text.drop n) := by
  intro c last
  rw [List.getLast?_drop] at last
  split at last
  · cases last
  · exact ends c last

theorem EndsLine.mem {text : List Char} (ends : EndsLine text) (nonempty : text ≠ []) :
    '\n' ∈ text := by
  have last := List.getLast?_eq_some_getLast nonempty
  rw [← ends _ last]
  exact List.getLast_mem nonempty

section Extension

variable {s t : State} {piece : Piece} {pieces : List Piece} (more : List Char)

/-- A point of a scan, with more text at the end. -/
def State.extend (s : State) : State := { s with ahead := s.ahead ++ more }

theorem State.step_extend (line : '\n' ∈ s.ahead) : (s.extend more).step = s.step := by
  obtain ⟨c, rest, ahead⟩ := List.exists_cons_of_ne_nil (List.ne_nil_of_mem line)
  have extended : (s.extend more).ahead = c :: (rest ++ more) := congrArg (· ++ more) ahead
  rw [ahead] at line
  rw [step_cons extended, step_cons ahead, pieceAt_append more line]
  rfl

theorem State.advance_extend (step : s.step = .piece piece) :
    (s.extend more).advance piece = (s.advance piece).extend more := by
  have fits := (cut_of_step step).text_begins.length_le
  have dropped : (s.ahead ++ more).drop piece.text.length =
      s.ahead.drop piece.text.length ++ more := List.drop_append_of_le_length fits
  simp only [advance, extend, dropped]
  rfl

/-- A run over complete lines is a run over any text that begins with them. -/
theorem Run.extend (run : Run s pieces t) (lines : EndsLine s.ahead) :
    Run (s.extend more) pieces (t.extend more) := by
  induction run with
  | nil s => exact .nil _
  | @cons s t piece pieces step _ ih =>
    have line := lines.mem (State.ahead_ne_nil step)
    refine .cons ((State.step_extend more line).trans step) ?_
    rw [State.advance_extend more step]
    exact ih (lines.drop _)

end Extension

section Shifting

variable (d : Nat)

/-- The same enclosure, further along. -/
def Entered.shift (entered : Entered) : Entered := { entered with start := entered.start + d }

/-- The same ending, further along. -/
def Ending.shift : Ending → Ending
  | complete => complete
  | unterminated entered => unterminated (entered.shift d)
  | nul offset => nul (offset + d)

/-- The same point of a scan, further along. -/
def State.shift (s : State) : State :=
  { s with offset := s.offset + d, within := s.within.map (Entered.shift d) }

theorem Ending.shift_eq (ending : Ending) : ending.shift d = ending.relocate (· + d) := by
  cases ending <;> rfl

theorem State.scan_shift (s : State) : (s.shift d).scan = ⟨s.scan.pieces, s.scan.ending.shift d⟩ := by
  rw [Ending.shift_eq]
  exact scan_relocate (f := (· + d)) fun n => Nat.add_right_comm s.offset n d

end Shifting

section Places

variable (d : Nat)

/-- The same finding, further along. -/
def Finding.shift (finding : Finding) : Finding := { finding with offset := finding.offset + d }

theorem tokensFrom_shift (offset : Nat) (pieces : List Piece) :
    tokensFrom (offset + d) pieces = (tokensFrom offset pieces).map (Token.shift d) := by
  rw [tokensFrom_eq_collect, tokensFrom_eq_collect]
  refine collect_relocate (f := (· + d)) ?_ (fun n _ => Nat.add_right_comm offset n d)
  intro offset piece
  cases piece <;> rfl

theorem findingsFrom_shift (offset : Nat) (pieces : List Piece) :
    findingsFrom (offset + d) pieces = (findingsFrom offset pieces).map (Finding.shift d) := by
  rw [findingsFrom_eq_collect, findingsFrom_eq_collect]
  refine collect_relocate (f := (· + d)) ?_ (fun n _ => Nat.add_right_comm offset n d)
  intro offset piece
  cases piece <;> rfl

theorem Ending.tokens_shift (ending : Ending) (length : Nat) :
    (ending.shift d).tokens (length + d) = (ending.tokens length).map (Token.shift d) := by
  cases ending <;> rfl

theorem Ending.findings_shift (ending : Ending) (length : Nat) :
    (ending.shift d).findings (length + d) = (ending.findings length).map (Finding.shift d) := by
  cases ending with
  | complete => rfl
  | nul offset => rfl
  | unterminated entered =>
    have left : length + d - (entered.start + d) = length - entered.start := by omega
    simp only [shift, findings, Entered.shift, left]
    rfl

end Places

/-- The character before a point matters only where an angle is ahead. -/
theorem State.scan_previous {s : State} (notLeft : s.ahead.head? ≠ some '<')
    (notRight : s.ahead.head? ≠ some '>') (other : Option Char) :
    State.scan { s with previous := other } = s.scan := by
  have step : State.step { s with previous := other } = s.step := by
    obtain ⟨offset, previous, within, ahead⟩ := s
    cases ahead with
    | nil => rfl
    | cons c rest =>
      have piece : pieceAt (within.map Entered.enclosure) other c rest =
          pieceAt (within.map Entered.enclosure) previous c rest :=
        pieceAt_previous (fun same => notLeft (congrArg some same))
          (fun same => notRight (congrArg some same)) _ _ _
      rw [step_cons rfl, step_cons rfl, piece]
  cases taken : s.step with
  | ending ending => rw [scan_of_ending (step.trans taken), scan_of_ending taken]
  | piece piece =>
    have advance : State.advance { s with previous := other } piece = s.advance piece := by
      have last := List.getLast?_eq_some_getLast (cut_of_step taken).text_ne_nil
      simp only [State.advance, last, Option.some_or]
      rfl
    rw [scan_of_piece (step.trans taken), scan_of_piece taken, advance]

section Joining

variable {a b : List Char} (closed : a.getLast? = some '\n')
  (complete : (scan a).ending = .complete) (notLeft : b.head? ≠ some '<')
  (notRight : b.head? ≠ some '>')

include complete in
theorem scan_to_end : ∃ t, Run (State.start a) (scan a).pieces t ∧ t.ahead = [] ∧ t.within = none ∧
    t.offset = a.length ∧ textOf (scan a).pieces = a := by
  obtain ⟨t, run, stops, whole, offset⟩ := scan_spec a
  rw [complete] at stops
  rcases State.ending_cases stops with ⟨_, ahead, within⟩ | ⟨_, ending, _⟩ | ⟨ending, _⟩
  · rw [ahead, List.append_nil] at whole
    rw [← whole] at offset
    exact ⟨t, run, ahead, within, offset, whole.symm⟩
  · cases ending
  · cases ending

include closed complete notLeft notRight

/-- The scan of two sources that are joined at a line end. -/
theorem scan_append :
    scan (a ++ b) = ⟨(scan a).pieces ++ (scan b).pieces, (scan b).ending.shift a.length⟩ := by
  obtain ⟨t, run, ahead, within, offset, whole⟩ := scan_to_end complete
  have lines : EndsLine (State.start a).ahead := fun c last =>
    Option.some.inj (last.symm.trans closed)
  have lifted : Run (State.start (a ++ b)) (scan a).pieces (t.extend b) := run.extend b lines
  have seam : t.extend b = { (State.start b).shift a.length with previous := some '\n' } := by
    have previous : t.previous = some '\n' := by
      rw [run.previous_eq, whole, closed]
      rfl
    simp [State.extend, State.shift, State.start, ahead, within, previous, offset]
  rw [scan, lifted.scan_eq, seam, State.scan_previous notLeft notRight, State.scan_shift]
  rfl

theorem tokens_append :
    tokens (a ++ b) = tokensFrom 0 (scan a).pieces ++ (tokens b).map (Token.shift a.length) := by
  obtain ⟨_, _, _, _, _, whole⟩ := scan_to_end complete
  rw [tokens, scan_append closed complete notLeft notRight, tokens, List.map_append]
  dsimp only
  rw [tokensFrom_append, whole, tokensFrom_shift, List.length_append, Nat.add_comm a.length,
    Ending.tokens_shift, List.append_assoc]

theorem findings_append :
    findings (a ++ b) = findings a ++ (findings b).map (Finding.shift a.length) := by
  obtain ⟨_, _, _, _, _, whole⟩ := scan_to_end complete
  rw [findings, scan_append closed complete notLeft notRight, findings, findings, complete,
    List.map_append]
  dsimp only
  rw [findingsFrom_append, whole, findingsFrom_shift, List.length_append, Nat.add_comm a.length,
    Ending.findings_shift, List.append_assoc]
  simp only [Ending.findings, List.append_nil]

theorem diagnostics_append :
    (tokenize (a ++ b)).diagnostics =
      (tokenize a).diagnostics.map (fun d => { d with source := a ++ b }) ++
      (tokenize b).diagnostics.map fun d =>
        { d with
          position := ⟨d.position.line + a.count '\n', d.position.column,
            d.position.offset + a.length⟩
          source := a ++ b } := by
  rw [tokenize_diagnostics, findings_append closed complete notLeft notRight, List.map_append,
    tokenize_diagnostics, tokenize_diagnostics, List.map_map, List.map_map, List.map_map]
  refine congrArg₂ (· ++ ·) ?_ ?_
  · apply List.map_congr_left
    intro finding member
    have inside : finding.offset ≤ a.length := by
      obtain ⟨_, _, _, _, _, whole⟩ := scan_to_end complete
      rw [findings, complete] at member
      have bound := findingsFrom_bound (List.append_nil _ ▸ member)
      rwa [whole, Nat.zero_add] at bound
    simp only [Finding.diagnostic, Function.comp_apply, Position.ofOffset_append_left inside]
  · apply List.map_congr_left
    intro finding _
    simp only [Finding.diagnostic, Finding.shift, Function.comp_apply,
      Position.ofOffset_append_right closed]

end Joining

/-- A source whose diagnostics are about skipped characters only is scanned to its end. -/
theorem ending_complete {source : List Char} (clean : ∀ d ∈ (tokenize source).diagnostics,
    d.isNul = false ∧ d.isUnterminated = false) : (scan source).ending = .complete := by
  cases ending : (scan source).ending with
  | complete => rfl
  | nul offset =>
    obtain ⟨d, member, nul⟩ := List.any_eq_true.mp ((any_isNul_iff source).mpr ⟨offset, ending⟩)
    rw [(clean d member).1] at nul
    cases nul
  | unterminated entered =>
    obtain ⟨member, kind⟩ := (unterminated_iff _).mpr ⟨entered, by rw [ending]; rfl, rfl⟩
    rw [(clean _ member).2] at kind
    cases kind

/-- Tokenizing two sources joined at a line end, where the first leaves nothing open and the second
does not begin with an angle: the tokens and the diagnostics of the first are followed by those of
the second, which lie further along and further down. -/
theorem tokenize_append (a b : List Char) (closed : a.getLast? = some '\n')
    (clean : ∀ d ∈ (tokenize a).diagnostics, d.isNul = false ∧ d.isUnterminated = false)
    (notLeft : b.head? ≠ some '<') (notRight : b.head? ≠ some '>') :
    (∃ front, (tokenize a).tokens = front ++ [⟨.endOfText, a.length, 0⟩] ∧
      (tokenize (a ++ b)).tokens = front ++
        (tokenize b).tokens.map fun token => { token with start := token.start + a.length }) ∧
    (tokenize (a ++ b)).diagnostics =
      (tokenize a).diagnostics.map (fun d => { d with source := a ++ b }) ++
      (tokenize b).diagnostics.map fun d =>
        { d with
          position := ⟨d.position.line + a.count '\n', d.position.column,
            d.position.offset + a.length⟩
          source := a ++ b } := by
  have complete := ending_complete clean
  refine ⟨⟨tokensFrom 0 (scan a).pieces, ?_, ?_⟩, ?_⟩
  · rw [tokenize_tokens, tokens, complete]
    rfl
  · rw [tokenize_tokens, tokenize_tokens, tokens_append closed complete notLeft notRight]
    rfl
  · exact diagnostics_append closed complete notLeft notRight

/-- The first source ends with two colons and an escaped line feed and has a skipped character; the
second begins with a letter and leaves a quotation open. -/
theorem tokenize_append_escaped_line :
    (∀ d ∈ (tokenize "\x01 ::\\\n".toList).diagnostics,
      d.isNul = false ∧ d.isUnterminated = false) ∧
    (∃ front, (tokenize "\x01 ::\\\n".toList).tokens = front ++ [⟨.endOfText, 6, 0⟩] ∧
      (tokenize ("\x01 ::\\\n".toList ++ "b < 'c".toList)).tokens = front ++
        (tokenize "b < 'c".toList).tokens.map fun token =>
          { token with start := token.start + 6 }) ∧
    (tokenize ("\x01 ::\\\n".toList ++ "b < 'c".toList)).diagnostics.map
      (fun d => (d.position.line, d.position.column, d.position.offset, d.length)) =
      [(1, 1, 0, 1), (2, 5, 10, 2)] := by
  have clean : ∀ d ∈ (tokenize "\x01 ::\\\n".toList).diagnostics,
      d.isNul = false ∧ d.isUnterminated = false := by decide +kernel
  obtain ⟨joined, diagnostics⟩ := tokenize_append "\x01 ::\\\n".toList "b < 'c".toList
    (by decide) clean (by decide) (by decide)
  refine ⟨clean, joined, ?_⟩
  rw [diagnostics]
  decide +kernel

end Lexing

end Astra
