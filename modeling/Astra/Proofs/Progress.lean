import Astra.Proofs.Spellings

/-!
# Progress of a scan

As long as text is ahead, a step of a scan moves it on by the piece that it cuts off, or it meets a
NUL character and is the last. A piece makes at most one token, which covers just what the scan has
moved over. Each step takes up a character of its own, so the source has at least as many characters
as its scan has steps. A step looks only at characters that are there: neighbors may be missing at
the ends of the source, but the character that decides what kind of piece begins is not.
-/

namespace Astra.Lexing

/-- The character at an offset; there is none before the start of a source and after its end. -/
def peek? (source : List Char) (offset : Int) : Option Char :=
  if 0 ≤ offset then source[offset.toNat]? else none

/-- The loop of a scan with a budget: it takes a step for as long as text is ahead, and gives
nothing if the budget is spent before. -/
def State.scanWithin : Nat → State → Option Scan
  | 0, s =>
    match s.step with
    | .ending ending => if s.ahead = [] then some ⟨[], ending⟩ else none
    | .piece _ => none
  | budget + 1, s =>
    match s.step with
    | .ending ending => some ⟨[], ending⟩
    | .piece piece =>
      (scanWithin budget (s.advance piece)).map fun later => ⟨piece :: later.pieces, later.ending⟩

/-- The categories of single angles. -/
def angles : List Category := [.openAngle, .closeAngle, .lessThan, .greaterThan]

section Peeking

variable {source : List Char} {done : List Piece} {s : State}

theorem peek?_ofNat (source : List Char) (offset : Nat) : peek? source offset = source[offset]? :=
  if_pos (Int.natCast_nonneg offset)

theorem peek?_eq_none_iff {offset : Nat} : peek? source offset = none ↔ source.length ≤ offset := by
  rw [peek?_ofNat, List.getElem?_eq_none_iff]

variable (run : Run (State.start source) done s)

include run

theorem ahead_eq_nil_iff : s.ahead = [] ↔ source.length ≤ s.offset := by
  rw [← drop_offset run, List.drop_eq_nil_iff]

/-- The text ahead begins with the character at the point of the scan. -/
theorem peek?_offset {c : Char} {rest : List Char} (ahead : s.ahead = c :: rest) :
    peek? source s.offset = some c ∧ peek? source (s.offset + 1 : Nat) = rest.head? := by
  have place : source.drop s.offset = c :: rest := (drop_offset run).trans ahead
  rw [peek?_ofNat, peek?_ofNat, ← List.head?_drop, place, ← List.head?_drop, ← List.drop_drop,
    place]
  exact ⟨rfl, rfl⟩

theorem peek?_previous : peek? source (s.offset - 1 : Int) = s.previous := by
  rw [← getLast?_take_offset run]
  have bound := offset_le_length run
  by_cases first : s.offset = 0
  · rw [first]
    rfl
  · have before : ((s.offset : Int) - 1) = (s.offset - 1 : Nat) := by omega
    have length : (source.take s.offset).length = s.offset := by
      rw [List.length_take]
      omega
    rw [before, peek?_ofNat, List.getLast?_eq_getElem?, length, List.getElem?_take_of_lt (by omega)]

end Peeking

/-- What a step does that meets a NUL character. Nothing is added to the tokens any more. -/
structure Stops (source : List Char) (done : List Piece) (s : State) : Prop where
  peeked : peek? source s.offset = some '\x00'
  tokens : (tokenize source).tokens = tokensFrom 0 done
  diagnostics : (tokenize source).diagnostics =
    (findingsFrom 0 done).map (Finding.diagnostic source) ++
      [{ message := "NUL character in source".toList
         position := Position.ofOffset source s.offset
         source
         length := 1 }]

/-- What a step does that cuts off a piece after those that are done. -/
structure Advances (source : List Char) (done : List Piece) (s : State) (piece : Piece) : Prop where
  forward : s.offset < (s.advance piece).offset
  bounded : (s.advance piece).offset ≤ source.length
  emits : ∃ emitted, tokensFrom 0 (done ++ [piece]) = tokensFrom 0 done ++ emitted ∧
    emitted.length ≤ 1 ∧
    ∀ token ∈ emitted, token.start = s.offset ∧ token.stop = (s.advance piece).offset
  /-- The kind of the piece is decided by a character that is there; those beside it may be
  missing. -/
  peeks : ∃ c rest, s.ahead = c :: rest ∧
    peek? source s.offset = some c ∧ peek? source (s.offset + 1) = rest.head? ∧
    piece = pieceAt (s.within.map Entered.enclosure) (peek? source (s.offset - 1)) c rest
  angle : ∀ category text, piece = .lexeme category text → category ∈ angles →
    peek? source s.offset = some '<' ∧ text = ['<'] ∨
      peek? source s.offset = some '>' ∧ text = ['>']

section Steps

variable {source : List Char} {done : List Piece} {s : State} {piece : Piece}

/-- A piece makes no token or one that covers it. -/
theorem Piece.tokensAt_spans (s : State) (piece : Piece) :
    (piece.tokensAt s.offset).length ≤ 1 ∧
      ∀ token ∈ piece.tokensAt s.offset,
        token.start = s.offset ∧ token.stop = (s.advance piece).offset := by
  constructor
  · cases piece <;> simp [Piece.tokensAt]
  · intro token member
    obtain ⟨category, text, rfl, rfl⟩ := mem_tokensAt member
    exact ⟨rfl, rfl⟩

theorem angle_spelling {category : Category} (angle : category ∈ angles) :
    category.spelling? = some ['<'] ∨ category.spelling? = some ['>'] := by
  have all : ∀ category ∈ angles,
      category.spelling? = some ['<'] ∨ category.spelling? = some ['>'] := by decide
  exact all category angle

variable (run : Run (State.start source) done s)

include run

theorem stops_of_nul {offset : Nat} (step : s.step = .ending (.nul offset)) :
    Stops source done s := by
  rcases State.ending_cases step with ⟨ending, _⟩ | ⟨_, ending, _⟩ | ⟨_, rest, ahead⟩
  · cases ending
  · cases ending
  · have ends : s.step = .ending (.nul s.offset) := by rw [State.step_cons ahead, if_pos rfl]
    have scanned : scan source = ⟨done, .nul s.offset⟩ := by
      rw [scan, run.scan_eq, State.scan_of_ending ends, List.append_nil]
    refine ⟨(peek?_offset run ahead).1, ?_, ?_⟩
    · rw [tokenize_tokens, Lexing.tokens, scanned]
      exact List.append_nil _
    · rw [tokenize_diagnostics, findings, scanned]
      exact List.map_append

/-- Angles are told by the character they stand at. -/
theorem angle_of_piece {category : Category} {text : List Char}
    (step : s.step = .piece (.lexeme category text)) (angle : category ∈ angles) :
    peek? source s.offset = some '<' ∧ text = ['<'] ∨
      peek? source s.offset = some '>' ∧ text = ['>'] := by
  obtain ⟨c, rest, ahead, made⟩ := State.made_of_step step
  obtain ⟨tail, begins⟩ := (State.cut_of_step step).text_begins
  rw [(peek?_offset run ahead).1]
  rcases angle_spelling angle with left | right
  · have spelled : text = ['<'] := made.spelled left
    rw [spelled, ahead] at begins
    exact .inl ⟨congrArg some (List.cons.inj begins).1.symm, spelled⟩
  · have spelled : text = ['>'] := made.spelled right
    rw [spelled, ahead] at begins
    exact .inr ⟨congrArg some (List.cons.inj begins).1.symm, spelled⟩

theorem advances_of_piece (step : s.step = .piece piece) : Advances source done s piece := by
  obtain ⟨c, rest, ahead, _, made⟩ := State.piece_of_step step
  have cut := State.cut_of_step step
  have nonempty := List.length_pos_iff.mpr cut.text_ne_nil
  obtain ⟨here, next⟩ := peek?_offset run ahead
  obtain ⟨single, spans⟩ := piece.tokensAt_spans s
  have within := cut.text_begins.length_le
  rw [← drop_offset run, List.length_drop] at within
  have moved : (s.advance piece).offset = s.offset + piece.text.length := rfl
  have place : 0 + (textOf done).length = s.offset := run.offset_eq.symm
  refine ⟨by omega, by omega, ⟨_, ?_, single, spans⟩, ⟨c, rest, ahead, here, next, ?_⟩, ?_⟩
  · rw [tokensFrom_append, place, tokensFrom_eq_collect _ [piece]]
    exact congrArg _ (List.append_nil _)
  · rw [peek?_previous run]
    exact made
  · rintro category text rfl angle
    exact angle_of_piece run step angle

/-- Before the end of the source a step stops at a NUL character or goes on. -/
theorem stops_or_advances (before : s.offset < source.length) :
    Stops source done s ∨ ∃ piece, s.step = .piece piece ∧ Advances source done s piece := by
  cases step : s.step with
  | piece piece => exact .inr ⟨piece, rfl, advances_of_piece run step⟩
  | ending ending =>
    have more : ¬ s.ahead = [] := fun empty => absurd ((ahead_eq_nil_iff run).mp empty) (by omega)
    rcases State.ending_cases step with ⟨_, empty, _⟩ | ⟨_, _, empty, _⟩ | ⟨rfl, _⟩
    · exact absurd empty more
    · exact absurd empty more
    · exact .inl (stops_of_nul run step)

/-- Where nothing can be peeked at, the loop is over. -/
theorem ends_of_peek? (nothing : peek? source s.offset = none) :
    ∃ ending, s.step = .ending ending ∧ scan source = ⟨done, ending⟩ ∧
      ∀ offset, ending ≠ .nul offset := by
  have empty : s.ahead = [] := (ahead_eq_nil_iff run).mpr (peek?_eq_none_iff.mp nothing)
  cases step : s.step with
  | piece piece => exact absurd empty (State.ahead_ne_nil step)
  | ending ending =>
    refine ⟨ending, rfl, ?_, ?_⟩
    · rw [scan, run.scan_eq, State.scan_of_ending step, List.append_nil]
    · rintro offset rfl
      rcases State.ending_cases step with ⟨ending, _⟩ | ⟨_, ending, _⟩ | ⟨_, rest, ahead⟩
      · cases ending
      · cases ending
      · rw [empty] at ahead
        cases ahead

end Steps

/-- A step needs at least one of the characters ahead, so a budget of as many steps suffices. -/
theorem State.scanWithin_eq {budget : Nat} {s : State} (enough : s.ahead.length ≤ budget) :
    s.scanWithin budget = some s.scan := by
  induction budget generalizing s with
  | zero =>
    have empty : s.ahead = [] := List.eq_nil_of_length_eq_zero (by omega)
    cases step : s.step with
    | piece piece => exact absurd empty (State.ahead_ne_nil step)
    | ending ending =>
      rw [scanWithin, step, scan_of_ending step]
      exact if_pos empty
  | succ budget ih =>
    cases step : s.step with
    | piece piece =>
      have fewer := State.advance_ahead_lt step
      rw [scanWithin, step, scan_of_piece step]
      dsimp only
      rw [ih (by omega), Option.map_some]
    | ending ending => rw [scanWithin, step, scan_of_ending step]

/-- At every point that a scan reaches before the end of the source, its next step meets a NUL
character, complains about it and is the last; or it moves the scan forward, not beyond the end, and
makes at most one token, from the old point to the new one. So the loop is over after at most as
many steps as the source has characters. A step is taken only where there is a character to look at,
and an angle is cut off only where that character is one. -/
theorem scan_progresses (source : List Char) :
    (∀ done s, Run (State.start source) done s → s.offset < source.length →
      Stops source done s ∨ ∃ piece, s.step = .piece piece ∧ Advances source done s piece) ∧
    (∀ budget, source.length ≤ budget →
      (State.start source).scanWithin budget = some (scan source)) ∧
    ∀ done s, Run (State.start source) done s → peek? source s.offset = none →
      ∃ ending, s.step = .ending ending ∧ scan source = ⟨done, ending⟩ ∧
        ∀ offset, ending ≠ .nul offset := by
  refine ⟨?_, ?_, ?_⟩
  · intro done s run before
    exact stops_or_advances run before
  · intro budget enough
    exact State.scanWithin_eq enough
  · intro done s run nothing
    exact ends_of_peek? run nothing

/-- An angle and a NUL character. The first step cuts off the angle, though nothing stands beside
it, and the second is the last; one step is not enough. -/
theorem scan_progresses_to_nul :
    let source := ['<', '\x00']
    let after := (State.start source).advance (.lexeme .openAngle ['<'])
    Advances source [] (State.start source) (.lexeme .openAngle ['<']) ∧
    Stops source [.lexeme .openAngle ['<']] after ∧
    (State.start source).scanWithin 1 = none ∧
    (State.start source).scanWithin 2 = some (scan source) := by
  intro source after
  have step : (State.start source).step = .piece (.lexeme .openAngle ['<']) := by decide
  have ends : after.step = .ending (.nul 1) := by decide
  obtain ⟨steps, loop, _⟩ := scan_progresses source
  refine ⟨?_, ?_, by decide, loop 2 (by decide)⟩
  · rcases steps [] _ (.nil _) (by decide) with stops | ⟨piece, cut, advances⟩
    · exact absurd stops.peeked (by decide)
    · rw [step] at cut
      cases cut
      exact advances
  · rcases steps _ after (.cons step (.nil _)) (by decide) with stops | ⟨piece, cut, _⟩
    · exact stops
    · rw [ends] at cut
      cases cut

end Astra.Lexing
