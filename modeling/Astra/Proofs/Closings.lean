import Astra.Proofs.Enclosures
import Astra.Proofs.Spellings

/-!
# Where enclosures end

Inside an enclosure a scan goes on cutting off words, operators, escapes and the delimiters of other
enclosures. None of these pieces swallows a closing text or makes one up, so an enclosure ends where
a search ends that looks for nothing but its closing text, escapes and NUL characters.
-/

namespace Astra.Lexing

/-- What the search for the closing text of an enclosure comes to. -/
inductive Search where
  | closed (offset : Nat)
  | nul (offset : Nat)
  | unterminated
  deriving DecidableEq, Repr

/-- Searches for the closing text of an enclosure. A backslash hides the character after it, and in
a block comment the two characters of an opening text are passed over together. -/
def Enclosure.search (e : Enclosure) (offset : Nat) (text : List Char) : Search :=
  match text with
  | [] => .unterminated
  | c :: rest =>
    if c = '\x00' then .nul offset
    else if c = '\\' then e.search (offset + 2) (rest.drop 1)
    else if e.closingText.isPrefixOf (c :: rest) then .closed offset
    else if e = .blockComment ∧ ['/', '*'].isPrefixOf (c :: rest) then
      e.search (offset + 2) (rest.drop 1)
    else e.search (offset + 1) rest
termination_by text.length
decreasing_by
  all_goals simp only [List.length_cons, List.length_drop]
  all_goals omega

namespace Enclosure

section Searching

variable {e : Enclosure} {offset : Nat} {c : Char} {rest text : List Char}

theorem search_nil : e.search offset [] = .unterminated := by rw [search]

theorem search_nul : e.search offset ('\x00' :: rest) = .nul offset := by rw [search, if_pos rfl]

theorem search_escape : e.search offset ('\\' :: c :: rest) = e.search (offset + 2) rest := by
  rw [search, if_neg (by decide), if_pos rfl]
  rfl

theorem search_dangling : e.search offset ['\\'] = .unterminated := by
  rw [search, if_neg (by decide), if_pos rfl]
  exact search_nil

theorem search_closing (begins : e.closingText <+: text) : e.search offset text = .closed offset := by
  cases text with
  | nil => exact absurd (List.prefix_nil.mp begins) e.closingText_ne_nil
  | cons c rest =>
    have first : c ≠ '\x00' ∧ c ≠ '\\' := by
      obtain ⟨tail, same⟩ := begins
      cases e <;> cases same <;> decide
    rw [search, if_neg first.1, if_neg first.2, if_pos (List.isPrefixOf_iff_prefix.mpr begins)]

theorem search_opening :
    blockComment.search offset ('/' :: '*' :: rest) = blockComment.search (offset + 2) rest := by
  rw [search, if_neg (by decide), if_neg (by decide), if_neg nofun, if_pos ⟨rfl, rfl⟩]
  rfl

/-- A character that is nothing to the search is passed over. -/
theorem search_pass (notNul : c ≠ '\x00') (notEscape : c ≠ '\\')
    (unclosed : ¬ e.closingText <+: c :: rest)
    (unopened : ¬ (e = .blockComment ∧ ['/', '*'] <+: c :: rest)) :
    e.search offset (c :: rest) = e.search (offset + 1) rest := by
  have elsewhere : ¬ (e = .blockComment ∧ ['/', '*'].isPrefixOf (c :: rest) = true) :=
    fun both => unopened ⟨both.1, List.isPrefixOf_iff_prefix.mp both.2⟩
  rw [search, if_neg notNul, if_neg notEscape,
    if_neg (mt List.isPrefixOf_iff_prefix.mp unclosed), if_neg elsewhere]

/-- In a quotation every character is passed over but NUL, a backslash and the closing one. -/
theorem search_quotation (quotation : e ≠ .blockComment) (notNul : c ≠ '\x00')
    (notEscape : c ≠ '\\') (unlike : [c] ≠ e.closingText) :
    e.search offset (c :: rest) = e.search (offset + 1) rest := by
  apply search_pass notNul notEscape
  · rintro ⟨tail, same⟩
    cases e with
    | blockComment => exact quotation rfl
    | doubleQuote => exact unlike (by rw [← (List.cons.inj same).1]; rfl)
    | singleQuote => exact unlike (by rw [← (List.cons.inj same).1]; rfl)
    | backtick => exact unlike (by rw [← (List.cons.inj same).1]; rfl)
  · rintro ⟨same, _⟩
    exact quotation same

/-- The delimiters of block comments are nothing to a search in a quotation. -/
theorem search_foreign (quotation : e ≠ .blockComment) :
    e.search offset ('/' :: '*' :: rest) = e.search (offset + 2) rest ∧
      e.search offset ('*' :: '/' :: rest) = e.search (offset + 2) rest := by
  have slash : ['/'] ≠ e.closingText := by cases e <;> decide
  have star : ['*'] ≠ e.closingText := by cases e <;> decide
  constructor
  · rw [search_quotation quotation (by decide) (by decide) slash,
      search_quotation quotation (by decide) (by decide) star]
  · rw [search_quotation quotation (by decide) (by decide) star,
      search_quotation quotation (by decide) (by decide) slash]

/-- The characters that can matter to a search. -/
def signals : List Char := ['\x00', '\\', '*', '/', '\x22', '\x27', '\x60']

theorem search_quiet (quiet : c ∉ signals) :
    e.search offset (c :: rest) = e.search (offset + 1) rest := by
  apply search_pass
  · rintro rfl
    exact quiet (by decide)
  · rintro rfl
    exact quiet (by decide)
  · rintro ⟨tail, same⟩
    cases e <;> cases same <;> exact quiet (by decide)
  · rintro ⟨_, tail, same⟩
    cases same
    exact quiet (by decide)

theorem search_append (quiet : ∀ c ∈ text, c ∉ signals) :
    e.search offset (text ++ rest) = e.search (offset + text.length) rest := by
  induction text generalizing offset with
  | nil => rfl
  | cons c text ih =>
    rw [List.cons_append, search_quiet (quiet c List.mem_cons_self),
      ih fun d member => quiet d (List.mem_cons_of_mem c member), List.length_cons]
    congr 1
    omega

theorem search_begins {ahead : List Char} (begins : text <+: ahead)
    (quiet : ∀ c ∈ text, c ∉ signals) :
    e.search offset ahead = e.search (offset + text.length) (ahead.drop text.length) := by
  obtain ⟨tail, rfl⟩ := begins
  rw [List.drop_left, search_append quiet]

end Searching

end Enclosure

section Pieces

open Enclosure (signals)

variable {e : Enclosure} {offset : Nat} {previous : Option Char} {c : Char} {rest text : List Char}
  {category : Category}

/-- A test that fails for all signals finds none. -/
theorem quiet_of_test {p : Char → Bool} (fails : signals.any p = false) (passed : p c = true) :
    c ∉ signals := by
  intro member
  exact List.any_eq_false.mp fails c member passed

theorem quiet_of_isBlank (isBlank : Text.isBlank c = true) : c ∉ signals :=
  quiet_of_test (by decide) isBlank

theorem quiet_of_bracket (found : bracket? c = some category) : c ∉ signals :=
  quiet_of_test (p := fun d => (bracket? d).isSome) (by decide) (by rw [found]; rfl)

theorem quiet_of_angle (found : angle? previous c rest.head? = some category) : c ∉ signals := by
  unfold angle? at found
  split at found
  · decide
  · decide
  · cases found

theorem quiet_of_word : ∀ d ∈ leadingWord text, d ∉ signals := by
  have run : ∀ (more : List Char), ∀ d ∈ more.takeWhile isWordChar, d ∉ signals := by
    intro more d member
    have isWord := List.all_eq_true.mp (List.all_takeWhile (p := isWordChar) (l := more)) d member
    exact quiet_of_test (by decide) isWord
  intro d member
  unfold leadingWord at member
  split at member
  · rename_i next more _
    dsimp only at member
    split at member
    · rcases List.mem_append.mp member with before | after
      · exact run text d before
      · rcases List.mem_cons.mp after with rfl | digits
        · decide
        · exact run (next :: more) d digits
    · exact run text d member
  · exact run text d member

/-- After its first character an operator has nothing that matters to a search, and it begins with
no backslash. -/
theorem operators_quiet : ∀ entry ∈ operators,
    (∀ d ∈ entry.1.tail, d ∉ signals) ∧ entry.1.head? ≠ some '\\' := by
  have all : ∀ entry ∈ operators,
      entry.1.tail.all (fun d => !signals.contains d) = true ∧ entry.1.head? ≠ some '\\' := by decide
  intro entry listed
  obtain ⟨quiet, notEscape⟩ := all entry listed
  refine ⟨fun d member signal => ?_, notEscape⟩
  simpa [signal] using List.all_eq_true.mp quiet d member

theorem search_operator (notNul : c ≠ '\x00') (unclosed : ¬ e.closingText <+: c :: rest)
    (unopened : ¬ ['/', '*'] <+: c :: rest) (begins : text <+: c :: rest)
    (listed : (text, category) ∈ operators) (nonempty : text ≠ []) :
    e.search offset (c :: rest) =
      e.search (offset + text.length) ((c :: rest).drop text.length) := by
  obtain ⟨d, tail, rfl⟩ := List.exists_cons_of_ne_nil nonempty
  obtain ⟨later, same⟩ := begins
  obtain ⟨rfl, rfl⟩ := List.cons.inj same
  obtain ⟨quiet, notEscape⟩ : (∀ d ∈ tail, d ∉ signals) ∧ some d ≠ some '\\' :=
    operators_quiet _ listed
  have passed : e.search offset (d :: (tail ++ later)) = e.search (offset + 1) (tail ++ later) :=
    Enclosure.search_pass notNul (fun escape => notEscape (congrArg some escape)) unclosed
      fun both => unopened both.2
  have place : offset + 1 + tail.length = offset + (d :: tail).length := by
    rw [List.length_cons]
    omega
  have rest : (d :: (tail ++ later)).drop (d :: tail).length = later := List.drop_left
  rw [List.append_eq, passed, Enclosure.search_append quiet, place, rest]

/-- A text that begins with no lexeme begins with no quotation and no operator. -/
theorem nothing_of_plainLexeme? (nothing : plainLexeme? previous c rest = none) :
    Enclosure.ofQuote? c = none ∧ operator? (c :: rest) = none := by
  unfold plainLexeme? at nothing
  split at nothing
  · cases nothing
  · cases nothing
  · cases nothing
  · split at nothing
    · cases nothing
    · rename_i unquoted
      refine ⟨unquoted, ?_⟩
      split at nothing
      · cases nothing
      · split at nothing
        · cases nothing
        · split at nothing
          · cases nothing
          · rename_i unlisted
            exact unlisted

/-- A character that begins no lexeme is nothing to a search, unless it is NUL. -/
theorem quiet_of_stray {within : Option Enclosure} {d : Char} (notNul : c ≠ '\x00')
    (found : pieceAt within previous c rest = .stray d) : d = c ∧ c ∉ signals := by
  unfold pieceAt at found
  split at found
  · cases found
  · split at found
    · cases found
    · rename_i nothing
      split at found
      · cases found
      · rename_i notEscape
        cases found
        refine ⟨rfl, fun member => ?_⟩
        simp only [Option.or_eq_none_iff] at nothing
        obtain ⟨unquoted, unlisted⟩ := nothing_of_plainLexeme? nothing.2.2
        have none := leadingOperator?_of_operator?_none unlisted
        have cases : c = '*' ∨ c = '/' ∨ c = '\x22' ∨ c = '\x27' ∨ c = '\x60' := by
          simpa [signals, notNul, notEscape] using member
        rcases cases with rfl | rfl | rfl | rfl | rfl
        · exact not_begins_of_leadingOperator? none
            (show (['*'], .star) ∈ operators by decide) ⟨rest, rfl⟩
        · exact not_begins_of_leadingOperator? none
            (show (['/'], .slash) ∈ operators by decide) ⟨rest, rfl⟩
        · cases unquoted
        · cases unquoted
        · cases unquoted

/-- In an enclosure, a search passes over every piece that does not close it. -/
theorem search_piece (notNul : c ≠ '\x00') {piece : Piece}
    (cutOff : piece = pieceAt (some e) previous c rest)
    (other : piece ≠ .lexeme e.closer e.closingText) :
    e.search offset (c :: rest) =
      e.search (offset + piece.text.length) ((c :: rest).drop piece.text.length) := by
  have made := pieceAt_made (some e) previous c rest
  rw [← cutOff] at made
  cases made with
  | blank isBlank => exact Enclosure.search_quiet (quiet_of_isBlank isBlank)
  | closing f inside _ =>
    cases inside
    exact absurd rfl other
  | comment outside _ => cases outside
  | danglingEscape last =>
    obtain ⟨rfl, rfl⟩ := List.cons.inj last
    exact Enclosure.search_dangling.trans Enclosure.search_nil.symm
  | stray _ => exact Enclosure.search_quiet (quiet_of_stray notNul cutOff.symm).2
  | @plain category text unclosed nonempty found =>
    have unclosed : ¬ e.closingText <+: c :: rest := fun begins =>
      not_within_of_closing?_eq_none unclosed begins rfl
    cases found with
    | blockOpening begins =>
      obtain ⟨tail, same⟩ := begins
      obtain ⟨rfl, rfl⟩ := List.cons.inj same
      by_cases comment : e = .blockComment
      · subst comment
        exact Enclosure.search_opening
      · exact (Enclosure.search_foreign comment).1
    | blockClosing begins =>
      have quotation : e ≠ .blockComment := by
        rintro rfl
        exact unclosed begins
      obtain ⟨tail, same⟩ := begins
      obtain ⟨rfl, rfl⟩ := List.cons.inj same
      exact (Enclosure.search_foreign quotation).2
    | escape begins =>
      obtain ⟨tail, same⟩ := begins
      obtain ⟨rfl, rfl⟩ := List.cons.inj same
      exact Enclosure.search_escape
    | quote found =>
      apply Enclosure.search_pass notNul
      · rintro rfl
        cases found
      · exact unclosed
      · rintro ⟨_, tail, same⟩
        cases same
        cases found
    | bracket found => exact Enclosure.search_quiet (quiet_of_bracket found)
    | word _ => exact Enclosure.search_begins (leadingWord_begins _) quiet_of_word
    | operator found =>
      have symbolic := pieceAt_symbolic cutOff.symm (operator?_spelled found).1
      obtain ⟨_, lead, _⟩ := operator?_listed found
      exact search_operator notNul unclosed symbolic.notOpening (operator?_cut found).1
        (leadingOperator?_listed lead) nonempty
    | angle found => exact Enclosure.search_quiet (quiet_of_angle found)

end Pieces

section Stays

/-- A run along which a scan stays in an enclosure, its first and last points included. -/
inductive Stays (entered : Entered) : State → List Piece → State → Prop where
  | nil {s : State} (inside : s.within = some entered) : Stays entered s [] s
  | cons {s t : State} {piece : Piece} {pieces : List Piece} (inside : s.within = some entered)
      (step : s.step = .piece piece) (rest : Stays entered (s.advance piece) pieces t) :
      Stays entered s (piece :: pieces) t

variable {entered : Entered} {s t : State} {piece : Piece} {pieces : List Piece}

/-- Only its closing text leads out of an enclosure. -/
theorem closing_of_leaves (inside : s.within = some entered) (step : s.step = .piece piece)
    (leaves : (s.advance piece).within ≠ some entered) :
    piece = .lexeme entered.enclosure.closer entered.enclosure.closingText := by
  have cut := State.cut_of_step step
  rw [inside] at cut
  cases piece with
  | blank c => exact absurd inside leaves
  | stray c => exact absurd inside leaves
  | danglingEscape => exact absurd inside leaves
  | lexeme category text =>
    have same : category = entered.enclosure.closer := by
      by_contra other
      exact leaves (Agrees.withinAfter_of_some inside other text)
    cases cut with
    | closing e within _ =>
      cases within
      rfl
    | opening e _ => exact absurd same (e.opener_ne_closer _)
    | foreignClosing elsewhere _ =>
      exact absurd (congrArg some (Enclosure.closer_injective (f := .blockComment) same.symm)) elsewhere
    | ordinary isOrdinary _ _ => exact absurd same (ne_closer_of_isOrdinary isOrdinary _)

/-- A step that stays in an enclosure takes the search for its closing text no nearer or further. -/
theorem search_step (inside : s.within = some entered) (step : s.step = .piece piece)
    (stays : (s.advance piece).within = some entered) :
    entered.enclosure.search s.offset s.ahead =
      entered.enclosure.search (s.advance piece).offset (s.advance piece).ahead := by
  obtain ⟨c, rest, ahead, notNul, cutOff⟩ := State.piece_of_step step
  have other : piece ≠ .lexeme entered.enclosure.closer entered.enclosure.closingText := by
    rintro rfl
    simp only [State.advance, State.withinAfter, inside, if_true] at stays
    cases stays
  rw [inside] at cutOff
  rw [State.advance, ahead]
  exact search_piece notNul cutOff other

namespace Stays

theorem first (stays : Stays entered s pieces t) : s.within = some entered := by
  cases stays with
  | nil inside => exact inside
  | cons inside _ _ => exact inside

theorem last (stays : Stays entered s pieces t) : t.within = some entered := by
  induction stays with
  | nil inside => exact inside
  | cons _ _ _ ih => exact ih

theorem run (stays : Stays entered s pieces t) : Run s pieces t := by
  induction stays with
  | nil _ => exact .nil _
  | cons _ step _ ih => exact .cons step ih

/-- Wherever a search begins in an enclosure, it comes to the same. -/
theorem search_eq (stays : Stays entered s pieces t) :
    entered.enclosure.search s.offset s.ahead = entered.enclosure.search t.offset t.ahead := by
  induction stays with
  | nil _ => rfl
  | cons inside step rest ih => exact (search_step inside step rest.first).trans ih

end Stays

/-- A scan stays in an enclosure until it meets the closing text or ends. -/
theorem exists_stay (s : State) (inside : s.within = some entered) :
    ∃ inner m, Stays entered s inner m ∧
      (m.step = .piece (.lexeme entered.enclosure.closer entered.enclosure.closingText) ∨
        ∃ ending, m.step = .ending ending) := by
  fun_induction State.scan s with
  | case1 s ending step => exact ⟨[], s, .nil inside, .inr ⟨ending, step⟩⟩
  | case2 s piece step later ih =>
    by_cases stays : (s.advance piece).within = some entered
    · obtain ⟨inner, m, rest, stops⟩ := ih stays
      exact ⟨piece :: inner, m, .cons inside step rest, stops⟩
    · have closing := closing_of_leaves inside step stays
      exact ⟨[], s, .nil inside, .inl (closing ▸ step)⟩

/-- What a search comes to at the last point of a stay: the three ways to leave an enclosure. -/
theorem search_last {m : State} (inside : m.within = some entered)
    (stops : m.step = .piece (.lexeme entered.enclosure.closer entered.enclosure.closingText) ∨
      ∃ ending, m.step = .ending ending) :
    (m.step = .piece (.lexeme entered.enclosure.closer entered.enclosure.closingText) ∧
      entered.enclosure.search m.offset m.ahead = .closed m.offset) ∨
    (m.step = .ending (.nul m.offset) ∧
      entered.enclosure.search m.offset m.ahead = .nul m.offset) ∨
    (m.step = .ending (.unterminated entered) ∧
      entered.enclosure.search m.offset m.ahead = .unterminated) := by
  rcases stops with closing | ⟨ending, step⟩
  · have begins := (State.cut_of_step closing).text_begins
    exact .inl ⟨closing, Enclosure.search_closing begins⟩
  · rcases State.ending_cases step with ⟨_, _, outside⟩ | ⟨other, rfl, ahead, within⟩ |
      ⟨rfl, rest, ahead⟩
    · rw [inside] at outside
      cases outside
    · rw [inside] at within
      cases within
      exact .inr (.inr ⟨step, by rw [ahead]; exact Enclosure.search_nil⟩)
    · exact .inr (.inl ⟨step, by rw [ahead]; exact Enclosure.search_nul⟩)

/-- An enclosure that a later point is in was entered before or is entered later. -/
theorem Run.within_start (run : Run s pieces t) (inside : t.within = some entered) :
    s.within = some entered ∨ s.offset ≤ entered.start := by
  induction run with
  | nil _ => exact .inl inside
  | @cons s t piece pieces step _ ih =>
    have further : s.offset ≤ (s.advance piece).offset := Nat.le_add_right _ _
    rcases ih inside with within | later
    · exact (State.within_of_advance within).imp_right fun here => Nat.le_of_eq here.symm
    · exact .inr (Nat.le_trans further later)

end Stays

section Outcomes

variable {source : List Char}

theorem nul_mem_iff {n : Nat} :
    Finding.diagnostic source ⟨.nul, n, 1⟩ ∈ (tokenize source).diagnostics ↔
      (scan source).ending = .nul n := by
  rw [tokenize_diagnostics, List.mem_map]
  constructor
  · rintro ⟨finding, member, same⟩
    have isNul := Finding.diagnostic_isNul source finding
    rw [same, Finding.diagnostic_isNul] at isNul
    have nul : finding.complaint = .nul := of_decide_eq_true isNul.symm
    rcases List.mem_append.mp member with skipped | last
    · have skip := findingsFrom_isSkip skipped
      rw [nul] at skip
      cases skip
    · cases ending : (scan source).ending with
      | complete =>
        rw [ending] at last
        cases last
      | unterminated entered =>
        rw [ending] at last
        cases List.mem_singleton.mp last
        cases nul
      | nul offset =>
        rw [ending] at last
        cases List.mem_singleton.mp last
        have offsets : (offset : Int) = n := congrArg (fun d => d.position.offset) same
        rw [Int.ofNat_inj.mp offsets]
  · intro ending
    refine ⟨⟨.nul, n, 1⟩, List.mem_append_right _ ?_, rfl⟩
    rw [ending]
    exact List.mem_singleton_self _

theorem unterminated_start {e : Enclosure} {start length : Nat}
    (member : Finding.diagnostic source ⟨.unterminated e, start, length⟩ ∈
      (tokenize source).diagnostics) :
    ∃ entered, (scan source).ending = .unterminated entered ∧ entered.start = start := by
  obtain ⟨entered, ends, same⟩ :=
    (unterminated_iff _).mp ⟨member, Finding.diagnostic_isUnterminated source _⟩
  have offsets : (start : Int) = entered.start := congrArg (fun d => d.position.offset) same
  refine ⟨entered, ?_, (Int.ofNat_inj.mp offsets).symm⟩
  cases ending : (scan source).ending with
  | unterminated other =>
    rw [ending] at ends
    rw [Option.some.inj ends]
  | complete =>
    rw [ending] at ends
    cases ends
  | nul offset =>
    rw [ending] at ends
    cases ends

theorem unterminated_mem {entered : Entered}
    (ending : (scan source).ending = .unterminated entered) :
    Finding.diagnostic source
      ⟨.unterminated entered.enclosure, entered.start, source.length - entered.start⟩ ∈
        (tokenize source).diagnostics :=
  ((unterminated_iff _).mpr ⟨entered, by rw [ending]; rfl, rfl⟩).1

/-- Outside an enclosure an opening text is always cut off as such. -/
theorem step_of_opening {s : State} {e : Enclosure} (outside : s.within = none)
    (begins : e.openingText <+: s.ahead) : s.step = .piece (.lexeme e.opener e.openingText) := by
  obtain ⟨tail, ahead⟩ := begins
  cases e <;>
  · rw [State.step_cons ahead.symm, if_neg (by decide), outside]
    rfl

/-- The tokens up to a point in an enclosure: those before it, its opener, and those inside it. -/
def tokensThrough (pieces : List Piece) (entered : Entered) (inner : List Piece) : List Token :=
  tokensFrom 0 pieces ++
    entered.opener :: tokensFrom (entered.start + entered.enclosure.openingText.length) inner

variable {pieces inner : List Piece} {s m : State} {e : Enclosure}

/-- What a scan does after a stay in an enclosure is all that is left of it. -/
theorem scan_of_stay (run : Run (State.start source) pieces s)
    (opening : s.step = .piece (.lexeme e.opener e.openingText))
    (stays : Stays ⟨e, s.offset⟩ (s.advance (.lexeme e.opener e.openingText)) inner m) :
    (scan source).ending = m.scan.ending ∧
      (tokenize source).tokens = tokensThrough pieces ⟨e, s.offset⟩ inner ++
        (tokensFrom m.offset m.scan.pieces ++ m.scan.ending.tokens source.length) := by
  have whole : scan source =
      ⟨pieces ++ .lexeme e.opener e.openingText :: (inner ++ m.scan.pieces), m.scan.ending⟩ := by
    rw [scan, run.scan_eq, State.scan_of_piece opening, stays.run.scan_eq]
  have start : 0 + (textOf pieces).length = s.offset := run.offset_eq.symm
  have last : s.offset + e.openingText.length + (textOf inner).length = m.offset :=
    stays.run.offset_eq.symm
  rw [tokenize_tokens, tokens, whole]
  refine ⟨rfl, ?_⟩
  simp only [tokensThrough, tokensFrom_append, tokensFrom, start, last, List.append_assoc,
    List.cons_append]
  rfl

/-- After an opening text that is met outside an enclosure, a scan is in the enclosure. -/
theorem within_of_opening (outside : s.within = none) :
    (s.advance (.lexeme e.opener e.openingText)).within = some ⟨e, s.offset⟩ := by
  simp only [State.advance, State.withinAfter, outside, Enclosure.ofOpener?_opener]
  rfl

theorem within_of_closing {entered : Entered} (inside : m.within = some entered) :
    (m.advance (.lexeme entered.enclosure.closer entered.enclosure.closingText)).within = none := by
  simp only [State.advance, State.withinAfter, inside, if_true]

/-- An enclosure that was closed is not the one that the source leaves open. -/
theorem ending_of_closing {entered : Entered} (inside : m.within = some entered)
    (later : entered.start < m.offset)
    (step : m.step = .piece (.lexeme entered.enclosure.closer entered.enclosure.closingText))
    {other : Entered} (ending : m.scan.ending = .unterminated other) :
    other.start ≠ entered.start := by
  rw [State.scan_of_piece step] at ending
  obtain ⟨t, run, stops⟩ := State.scan_run
    (m.advance (.lexeme entered.enclosure.closer entered.enclosure.closingText))
  rcases State.ending_cases stops with ⟨complete, _⟩ | ⟨last, same, _, within⟩ | ⟨nul, _⟩
  · cases complete.symm.trans ending
  · cases same.symm.trans ending
    rcases run.within_start within with before | after
    · rw [within_of_closing inside] at before
      cases before
    · have further : m.offset ≤ (m.advance (.lexeme entered.enclosure.closer
        entered.enclosure.closingText)).offset := Nat.le_add_right _ _
      omega
  · cases nul.symm.trans ending

/-- The stay in an enclosure that is entered. The search for the closing text comes to the same at
both ends of it. -/
theorem exists_stay_of_opening (run : Run (State.start source) pieces s) (outside : s.within = none)
    (e : Enclosure) :
    ∃ inner m, Stays ⟨e, s.offset⟩ (s.advance (.lexeme e.opener e.openingText)) inner m ∧
      (m.step = .piece (.lexeme e.closer e.closingText) ∨ ∃ ending, m.step = .ending ending) ∧
      s.offset < m.offset ∧
      e.search (s.offset + e.openingText.length) (source.drop (s.offset + e.openingText.length)) =
        e.search m.offset m.ahead := by
  obtain ⟨inner, m, stays, stops⟩ := exists_stay _ (@within_of_opening s e outside)
  have offset : m.offset = s.offset + e.openingText.length + (textOf inner).length :=
    stays.run.offset_eq
  have positive : 0 < e.openingText.length := List.length_pos_iff.mpr e.openingText_ne_nil
  have ahead : source.drop (s.offset + e.openingText.length) =
      (s.advance (.lexeme e.opener e.openingText)).ahead := by
    rw [← List.drop_drop, drop_offset run]
    rfl
  refine ⟨inner, m, stays, stops, by omega, ?_⟩
  rw [ahead]
  exact stays.search_eq

/-- The first token after a stay that ends with a lexeme is the token of that lexeme. -/
theorem tokens_of_lexeme {category : Category} {text : List Char}
    (step : m.step = .piece (.lexeme category text)) (length : Nat) :
    ∃ more, tokensFrom m.offset m.scan.pieces ++ m.scan.ending.tokens length =
      ⟨category, m.offset, text.length⟩ :: more := by
  rw [State.scan_of_piece step]
  exact ⟨_, rfl⟩

/-- An enclosure ends where the search for its closing text ends. The search closes where the
matching closer is emitted, and the scan is in the enclosure up to there and outside right after it;
the search meets a NUL character or the end of the source when that is what the scan reports. -/
theorem enclosure_ends_where_sought (run : Run (State.start source) pieces s)
    (outside : s.within = none) (begins : e.openingText <+: s.ahead) :
    let first := s.offset + e.openingText.length
    let sought := e.search first (source.drop first)
    s.step = .piece (.lexeme e.opener e.openingText) ∧
    ∃ inner m, Stays ⟨e, s.offset⟩ (s.advance (.lexeme e.opener e.openingText)) inner m ∧
      tokensThrough pieces ⟨e, s.offset⟩ inner <+: (tokenize source).tokens ∧
      (∀ n, sought = .closed n → n = m.offset ∧
        m.step = .piece (.lexeme e.closer e.closingText) ∧
        (m.advance (.lexeme e.closer e.closingText)).within = none) ∧
      (∀ n, sought = .closed n ↔
        tokensThrough pieces ⟨e, s.offset⟩ inner ++ [⟨e.closer, n, e.closingText.length⟩] <+:
          (tokenize source).tokens) ∧
      (∀ n, sought = .nul n ↔
        (tokenize source).tokens = tokensThrough pieces ⟨e, s.offset⟩ inner ∧
        Finding.diagnostic source ⟨.nul, n, 1⟩ ∈ (tokenize source).diagnostics) ∧
      (sought = .unterminated ↔
        Finding.diagnostic source ⟨.unterminated e, s.offset, source.length - s.offset⟩ ∈
          (tokenize source).diagnostics) := by
  intro first sought
  have opening := step_of_opening outside begins
  refine ⟨opening, ?_⟩
  obtain ⟨inner, m, stays, stops, later, same⟩ := exists_stay_of_opening run outside e
  obtain ⟨ending, tokens⟩ := scan_of_stay run opening stays
  have same : sought = e.search m.offset m.ahead := same
  refine ⟨inner, m, stays, ⟨_, tokens.symm⟩, ?_⟩
  simp only [tokens, nul_mem_iff, ending, List.prefix_append_right_inj, List.append_right_eq_self,
    same]
  rcases search_last stays.last stops with ⟨step, found⟩ | ⟨step, found⟩ | ⟨step, found⟩
  · obtain ⟨more, after⟩ := tokens_of_lexeme step source.length
    rw [found, after]
    refine ⟨?_, ?_, ?_, ?_⟩
    · rintro n ⟨⟩
      exact ⟨rfl, step, within_of_closing stays.last⟩
    · intro n
      rw [List.cons_prefix_cons]
      constructor
      · rintro ⟨⟩
        exact ⟨rfl, List.nil_prefix⟩
      · rintro ⟨token, _⟩
        have offsets : (n : Int) = m.offset := congrArg Token.start token
        rw [Int.ofNat_inj.mp offsets]
    · intro n
      exact ⟨nofun, nofun⟩
    · refine ⟨nofun, fun member => ?_⟩
      obtain ⟨other, stopped, start⟩ := unterminated_start member
      exact absurd start (ending_of_closing stays.last later step (ending.symm.trans stopped))
  · rw [State.scan_of_ending step] at ending ⊢
    rw [found]
    refine ⟨nofun, ?_, ?_, ?_⟩
    · intro n
      exact ⟨nofun, fun none => absurd (List.prefix_nil.mp none) nofun⟩
    · intro n
      constructor
      · rintro ⟨⟩
        exact ⟨rfl, rfl⟩
      · rintro ⟨_, ⟨⟩⟩
        rfl
    · refine ⟨nofun, fun member => ?_⟩
      obtain ⟨other, stopped, _⟩ := unterminated_start member
      cases ending.symm.trans stopped
  · rw [State.scan_of_ending step] at ending ⊢
    rw [found]
    refine ⟨nofun, ?_, ?_, ?_⟩
    · intro n
      refine ⟨nofun, fun closing => ?_⟩
      have category := congrArg Token.category (List.cons_prefix_cons.mp closing).1
      cases e <;> cases category
    · intro n
      exact ⟨nofun, nofun⟩
    · exact ⟨fun _ => unterminated_mem ending, fun _ => rfl⟩

/-- Neither the slash after the opener nor the escaped star nor the operators end this comment. -/
theorem enclosure_ends_where_sought_after_stars :
    Enclosure.blockComment.search 2 "/ \\*/ *=/ **/x".toList = .closed 13 ∧
    ∃ inner, tokensThrough [] ⟨.blockComment, 0⟩ inner ++ [⟨Enclosure.blockComment.closer, 13, 2⟩] <+:
      (tokenize "/*/ \\*/ *=/ **/x".toList).tokens := by
  have found : Enclosure.blockComment.search 2 "/ \\*/ *=/ **/x".toList = .closed 13 := by
    decide +kernel
  have run := Run.nil (State.start "/*/ \\*/ *=/ **/x".toList)
  obtain ⟨_, inner, _, _, _, _, closed, _⟩ :=
    enclosure_ends_where_sought (e := .blockComment) run rfl ⟨_, rfl⟩
  exact ⟨found, inner, (closed 13).mp found⟩

end Outcomes

end Astra.Lexing
