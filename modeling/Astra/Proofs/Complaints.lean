import Astra.Proofs.Partition

/-!
# What is complained about

The diagnostics of a source are those about skipped characters, in the order of the text, and then
at most one about the end of the scan: a NUL character that stops it, or an enclosure that is still
open. A NUL character that does not stop a scan has been swallowed by an escape or a line comment.
-/

namespace Astra

/-- Whether a diagnostic is about a backslash with nothing after it. -/
def Diagnostic.isDangling (d : Diagnostic) : Bool :=
  d.message == "unexpected end of input after '\\'".toList

namespace Lexing

theorem Finding.diagnostic_isDangling (source : List Char) (finding : Finding) :
    (finding.diagnostic source).isDangling = decide (finding.complaint = .danglingEscape) := by
  show (finding.complaint.message == _) = _
  cases finding.complaint with
  | nul => rfl
  | stray c => rfl
  | danglingEscape => rfl
  | unterminated enclosure => cases enclosure <;> rfl

/-- The categories of the lexemes that may hold any character up to the end of a line. -/
def swallowing : List Category := [.escape, .eolSlashComment, .docHashComment, .eolHashComment]

section Swallowed

theorem lineComment?_swallowing {text : List Char} {category : Category}
    (found : lineComment? text = some category) : category ∈ swallowing := by
  unfold lineComment? at found
  split at found <;> cases found <;> decide

/-- A character that is a part of no word, no operator and no delimiter of a block comment. -/
structure Foreign (d : Char) : Prop where
  word : isWordChar d = false
  point : d ≠ '.'
  operator : ∀ entry ∈ operators, d ∉ entry.1
  delimiter : d ∉ ['/', '*']

theorem nul_foreign : Foreign '\x00' := ⟨by decide, by decide, by decide, by decide⟩

theorem Foreign.not_mem_word {d : Char} (foreign : Foreign d) (text : List Char) :
    d ∉ leadingWord text := by
  have run : ∀ rest : List Char, d ∉ rest.takeWhile isWordChar := by
    intro rest member
    have isWord := List.all_eq_true.mp (List.all_takeWhile (p := isWordChar) (l := rest)) _ member
    rw [foreign.word] at isWord
    cases isWord
  unfold leadingWord
  split
  · rename_i next rest _
    dsimp only
    split
    · intro member
      rcases List.mem_append.mp member with before | after
      · exact run text before
      · rcases List.mem_cons.mp after with point | digits
        · exact foreign.point point
        · exact run (next :: rest) digits
    · exact run text
  · exact run text

theorem leadingOperator?_of_operator? {text spelling : List Char} {category : Category}
    (found : operator? text = some (category, spelling)) :
    ∃ listed, leadingOperator? text = some (listed, spelling) := by
  unfold operator? at found
  split at found
  · rename_i _ lead
    split at found
    · cases found
      exact ⟨_, lead⟩
    · cases found
      exact ⟨_, lead⟩
  · exact ⟨category, found⟩

theorem Foreign.not_mem_operator {d : Char} (foreign : Foreign d) {text spelling : List Char}
    {category : Category} (found : operator? text = some (category, spelling)) : d ∉ spelling := by
  obtain ⟨listed, lead⟩ := leadingOperator?_of_operator? found
  obtain ⟨n, _, hn⟩ := List.exists_of_findSome?_eq_some lead
  obtain ⟨value, hget, hvalue⟩ := Option.map_eq_some_iff.mp hn
  obtain ⟨-, rfl⟩ := Prod.mk.inj hvalue
  exact foreign.operator _ (Assoc.mem_of_lookup hget)

/-- In any place, the only lexeme that holds a foreign character without beginning with it is an
escape. -/
theorem Plain.escape_of_foreign {previous : Option Char} {c d : Char} {rest text : List Char}
    {category : Category} (plain : Plain previous c rest category text) (foreign : Foreign d)
    (first : c ≠ d) (member : d ∈ text) : category = .escape ∧ ∃ next, text = ['\\', next] := by
  have single : d ∉ [c] := by
    intro member
    exact first (List.mem_singleton.mp member).symm
  have delimiters : d ∉ ['*', '/'] := by
    intro member
    exact foreign.delimiter (List.mem_reverse.mp member)
  cases plain with
  | @escape next _ => exact ⟨rfl, next, rfl⟩
  | blockOpening _ => exact absurd member foreign.delimiter
  | blockClosing _ => exact absurd member delimiters
  | quote _ => exact absurd member single
  | bracket _ => exact absurd member single
  | angle _ => exact absurd member single
  | word _ => exact absurd member (foreign.not_mem_word _)
  | operator found => exact absurd member (foreign.not_mem_operator found)

/-- A piece that holds a NUL character is an escape or a line comment. -/
theorem State.swallowing_of_nul {s : State} {piece : Piece} (step : s.step = .piece piece)
    (nul : '\x00' ∈ piece.text) : ∃ category text, piece = .lexeme category text ∧
      category ∈ swallowing := by
  obtain ⟨c, rest, _, first, hpiece⟩ := State.piece_of_step step
  have single : '\x00' ∉ [c] := by
    intro member
    exact first (List.mem_singleton.mp member).symm
  have made := pieceAt_made (s.within.map Entered.enclosure) s.previous c rest
  rw [← hpiece] at made
  cases made with
  | blank _ => exact absurd nul single
  | stray _ => exact absurd nul single
  | danglingEscape _ => exact absurd nul (by decide)
  | closing enclosure _ _ => cases enclosure <;> exact absurd nul (by decide)
  | comment _ found => exact ⟨_, _, rfl, lineComment?_swallowing found⟩
  | plain _ _ found =>
    have escape := (found.escape_of_foreign nul_foreign first nul).1
    exact ⟨_, _, rfl, by rw [escape]; decide⟩

end Swallowed

section Skipped

/-- No piece is cut off an empty text. -/
theorem Run.pieces_eq_nil {s t : State} {pieces : List Piece} (run : Run s pieces t)
    (empty : s.ahead = []) : pieces = [] := by
  cases run with
  | nil _ => rfl
  | cons step _ => exact absurd empty (State.ahead_ne_nil step)

/-- A backslash that escapes nothing is the last piece of its source, which ends there. -/
theorem danglingEscape_last {source : List Char} {done later : List Piece}
    (split : (scan source).pieces = done ++ .danglingEscape :: later) :
    later = [] ∧ source.length = (textOf done).length + 1 := by
  obtain ⟨s, t, before, step, after⟩ := scan_split split
  obtain ⟨c, rest, ahead, _, hpiece⟩ := State.piece_of_step step
  have made := pieceAt_made (s.within.map Entered.enclosure) s.previous c rest
  rw [← hpiece] at made
  cases made with
  | danglingEscape last =>
    have whole : source = textOf done ++ s.ahead := before.ahead_eq
    have empty : (s.advance .danglingEscape).ahead = [] := by
      simp [State.advance, ahead, last, Piece.text]
    exact ⟨after.pieces_eq_nil empty, by simp [whole, ahead, last]⟩

theorem findingsFrom_ordered (offset : Nat) (pieces : List Piece) :
    (findingsFrom offset pieces).Pairwise fun earlier later => earlier.offset < later.offset := by
  have bound : ∀ (offset : Nat) (pieces : List Piece) (finding : Finding),
      finding ∈ findingsFrom offset pieces → offset ≤ finding.offset := by
    intro offset pieces finding member
    rw [findingsFrom_eq_collect] at member
    obtain ⟨done, piece, later, _, given⟩ := mem_collect member
    have place := (mem_findingsAt given).2.1
    omega
  induction pieces generalizing offset with
  | nil => exact .nil
  | cons piece rest ih =>
    cases piece with
    | stray c =>
      refine .cons ?_ (ih (offset + 1))
      intro later member
      exact bound _ rest later member
    | danglingEscape =>
      refine .cons ?_ (ih (offset + 1))
      intro later member
      exact bound _ rest later member
    | lexeme category text => exact ih (offset + text.length)
    | blank c => exact ih (offset + 1)

variable {source : List Char} {finding : Finding}

theorem skipped_length (member : finding ∈ findingsFrom 0 (scan source).pieces) :
    finding.length = 1 := by
  rw [findingsFrom_eq_collect] at member
  obtain ⟨done, piece, later, _, given⟩ := mem_collect member
  exact (mem_findingsAt given).2.2.1

/-- A complaint about a backslash at the end comes after all about skipped characters. -/
theorem dangling_last (member : finding ∈ findingsFrom 0 (scan source).pieces)
    (dangling : finding.complaint = .danglingEscape) :
    (findingsFrom 0 (scan source).pieces).getLast? = some finding ∧
      finding.offset + 1 = source.length := by
  rw [findingsFrom_eq_collect] at member
  obtain ⟨done, piece, later, split, given⟩ := mem_collect member
  cases piece with
  | danglingEscape =>
    obtain ⟨rfl, length⟩ := danglingEscape_last split
    cases List.mem_singleton.mp given
    constructor
    · rw [split, findingsFrom_append]
      exact List.getLast?_concat
    · rw [length, Nat.zero_add]
  | stray c =>
    cases List.mem_singleton.mp given
    cases dangling
  | lexeme category text => cases given
  | blank c => cases given

end Skipped

section Stops

variable {source : List Char}

theorem isSuccess_iff : (tokenize source).isSuccess = true ↔ (tokenize source).diagnostics = [] := by
  cases outcome : tokenize source with
  | success _ _ => exact ⟨fun _ => rfl, fun _ => rfl⟩
  | failure _ _ diagnostics nonempty =>
    constructor
    · intro success
      cases success
    · intro empty
      exact absurd empty nonempty

/-- The tokens of a source that a NUL character stops end before it. -/
theorem stop_le_of_nul {offset : Nat} (stopped : (scan source).ending = .nul offset) {token : Token}
    (member : token ∈ (tokenize source).tokens) : token.stop ≤ offset := by
  rw [tokenize_tokens] at member
  rcases tokens_cases source with ⟨_, lexemes⟩ | ⟨reached, _⟩
  · rw [lexemes] at member
    have bound := (tokensFrom_bounds member).2
    have place := (nul_of_ending stopped).1
    omega
  · exact absurd ⟨offset, stopped⟩ reached

/-- A NUL character that a scan gets past lies in the token of an escape or of a line comment. -/
theorem swallowed_of_nul {i : Nat} (passed : (i : Int) < stopOf source)
    (nul : source[i]? = some '\x00') :
    ∃ token ∈ (tokenize source).tokens, token.covers i = true ∧ token.category ∈ swallowing := by
  obtain ⟨done, piece, later, split, low, high, char⟩ := exists_piece_of_lt_stopOf passed
  obtain ⟨s, t, _, step, _⟩ := scan_split split
  rw [nul] at char
  obtain ⟨category, text, rfl, swallows⟩ :=
    State.swallowing_of_nul step (List.mem_of_getElem? char.symm)
  refine ⟨⟨category, (textOf done).length, text.length⟩, ?_, ?_, swallows⟩
  · rw [tokenize_tokens, tokens, split, tokensFrom_append]
    simp [tokensFrom]
  · rw [Token.covers_iff]
    simp only [Piece.text] at high ⊢
    omega

end Stops

/-- The diagnostics of a source are those about skipped characters and then at most one more. The
former have length one and stand in the order of the text; one about a backslash at the end is the
last of them. The other one is about a NUL character that stops the scan, before which all tokens end
and all else is complained about, or about an enclosure that is still open. A source without either
is a success. Every NUL character that does not stop the scan lies in an escape or a line comment. -/
theorem diagnostics_shape (source : List Char) :
    ∃ skipped last : List Diagnostic,
      (tokenize source).diagnostics = skipped ++ last ∧
      (∀ d ∈ skipped, d.isSkip = true ∧ d.length = 1) ∧
      skipped.Pairwise (fun earlier later => earlier.position.offset < later.position.offset) ∧
      (∀ d ∈ skipped, d.isDangling = true →
        skipped.getLast? = some d ∧ d.position.offset = source.length - 1) ∧
      (last = [] ∨ (∃ d, last = [d] ∧ d.isNul = true) ∨
        ∃ d, last = [d] ∧ d.isUnterminated = true) ∧
      ((tokenize source).isSuccess = true ↔ skipped = [] ∧ last = []) ∧
      (∀ d ∈ last, d.isNul = true → ∃ p : Nat, d.position.offset = p ∧
        source[p]? = some '\x00' ∧ (∀ token ∈ (tokenize source).tokens, token.stop ≤ p) ∧
        ∀ other ∈ skipped, other.position.offset ≤ p) ∧
      ∀ i : Nat, i < stopOf source → source[i]? = some '\x00' →
        ∃ token ∈ (tokenize source).tokens, token.covers i = true ∧
          token.category ∈ [.escape, .eolSlashComment, .docHashComment, .eolHashComment] := by
  refine ⟨(findingsFrom 0 (scan source).pieces).map (Finding.diagnostic source),
    ((scan source).ending.findings source.length).map (Finding.diagnostic source), ?_, ?_, ?_, ?_,
    ?_, ?_, ?_, fun i passed nul => swallowed_of_nul passed nul⟩
  · rw [tokenize_diagnostics, findings, List.map_append]
  · intro d member
    obtain ⟨finding, found, rfl⟩ := List.mem_map.mp member
    constructor
    · rw [Finding.diagnostic_isSkip]
      exact findingsFrom_isSkip found
    · exact congrArg Int.ofNat (skipped_length found)
  · apply List.Pairwise.map _ _ (findingsFrom_ordered 0 _)
    intro earlier later order
    exact Int.ofNat_lt.mpr order
  · intro d member dangling
    obtain ⟨finding, found, rfl⟩ := List.mem_map.mp member
    rw [Finding.diagnostic_isDangling, decide_eq_true_iff] at dangling
    obtain ⟨last, place⟩ := dangling_last found dangling
    constructor
    · rw [List.getLast?_map, last]
      rfl
    · show (finding.offset : Int) = _
      omega
  · cases (scan source).ending with
    | complete => exact .inl rfl
    | nul offset => exact .inr (.inl ⟨_, rfl, Finding.diagnostic_isNul source _⟩)
    | unterminated entered =>
      exact .inr (.inr ⟨_, rfl, Finding.diagnostic_isUnterminated source _⟩)
  · rw [isSuccess_iff, tokenize_diagnostics, findings, List.map_append, List.append_eq_nil_iff]
  · intro d member isNul
    obtain ⟨finding, found, rfl⟩ := List.mem_map.mp member
    cases ending : (scan source).ending with
    | complete =>
      rw [ending] at found
      cases found
    | unterminated entered =>
      rw [ending] at found
      cases List.mem_singleton.mp found
      rw [Finding.diagnostic_isNul] at isNul
      cases isNul
    | nul offset =>
      rw [ending] at found
      cases List.mem_singleton.mp found
      obtain ⟨place, nul⟩ := nul_of_ending ending
      refine ⟨offset, rfl, nul, fun token => stop_le_of_nul ending, ?_⟩
      intro other member
      obtain ⟨skipped, found, rfl⟩ := List.mem_map.mp member
      have bound := findingsFrom_bound found
      show (skipped.offset : Int) ≤ offset
      omega

end Lexing

end Astra
