import Astra.Lexing.Outcome
import Astra.Proofs.Pieces

/-!
# Runs of a scan

A run leads from one point of a scan to a later one and records the pieces cut off on the way. The
pieces of a source are those of a run from its start to the point where the scan ends. Tokens are
read off the pieces, so that their order and their bounds are facts about lists of pieces.
-/

namespace Astra.Lexing

/-- The text that pieces were cut from. -/
def textOf (pieces : List Piece) : List Char := pieces.flatMap Piece.text

@[simp]
theorem textOf_nil : textOf [] = [] := rfl

@[simp]
theorem textOf_cons (piece : Piece) (rest : List Piece) :
    textOf (piece :: rest) = piece.text ++ textOf rest := rfl

@[simp]
theorem textOf_append (before after : List Piece) :
    textOf (before ++ after) = textOf before ++ textOf after := List.flatMap_append

/-- A piece that stands at the start of some text ahead. -/
def Piece.Proper (piece : Piece) : Prop := ∃ within ahead, Cut within ahead piece

namespace State

/-- A step that cuts off a piece does so at a character that is not NUL. -/
theorem piece_of_step {s : State} {piece : Piece} (step : s.step = .piece piece) :
    ∃ c rest, s.ahead = c :: rest ∧ c ≠ '\x00' ∧
      piece = pieceAt (s.within.map Entered.enclosure) s.previous c rest := by
  unfold State.step at step
  split at step
  · split at step <;> cases step
  · rename_i c rest hahead
    split at step
    · cases step
    · rename_i notNul
      cases step
      exact ⟨c, rest, hahead, notNul, rfl⟩

theorem cut_of_step {s : State} {piece : Piece} (step : s.step = .piece piece) :
    Cut (s.within.map Entered.enclosure) s.ahead piece := by
  obtain ⟨c, rest, hahead, _, rfl⟩ := piece_of_step step
  rw [hahead]
  exact pieceAt_cut _ _ c rest

theorem step_cons {s : State} {c : Char} {rest : List Char} (ahead : s.ahead = c :: rest) :
    s.step = if c = '\x00' then .ending (.nul s.offset)
      else .piece (pieceAt (s.within.map Entered.enclosure) s.previous c rest) := by
  rw [step, ahead]

theorem ahead_ne_nil {s : State} {piece : Piece} (step : s.step = .piece piece) : s.ahead ≠ [] := by
  intro empty
  have begins := (cut_of_step step).text_begins
  rw [empty, List.prefix_nil] at begins
  exact (cut_of_step step).text_ne_nil begins

/-- An enclosure that a scan is in after a piece was entered before the piece or with it. -/
theorem within_of_advance {s : State} {piece : Piece} {entered : Entered}
    (inside : (s.advance piece).within = some entered) :
    s.within = some entered ∨ entered.start = s.offset := by
  cases piece with
  | blank c => exact .inl inside
  | stray c => exact .inl inside
  | danglingEscape => exact .inl inside
  | lexeme category text =>
    simp only [advance, withinAfter] at inside
    split at inside
    · obtain ⟨e, _, rfl⟩ := Option.map_eq_some_iff.mp inside
      exact .inr rfl
    · rename_i before
      split at inside
      · cases inside
      · exact .inl (before.trans inside)

theorem ending_cases {s : State} {ending : Ending} (step : s.step = .ending ending) :
    (ending = .complete ∧ s.ahead = [] ∧ s.within = none) ∨
    (∃ entered, ending = .unterminated entered ∧ s.ahead = [] ∧ s.within = some entered) ∨
    (ending = .nul s.offset ∧ ∃ rest, s.ahead = '\x00' :: rest) := by
  unfold State.step at step
  split at step
  · rename_i hahead
    split at step
    · rename_i hwithin
      cases step
      exact .inl ⟨rfl, hahead, hwithin⟩
    · rename_i entered hwithin
      cases step
      exact .inr (.inl ⟨entered, rfl, hahead, hwithin⟩)
  · rename_i c rest hahead
    split at step
    · rename_i hnul
      cases step
      exact .inr (.inr ⟨rfl, rest, hnul ▸ hahead⟩)
    · cases step

theorem scan_of_ending {s : State} {ending : Ending} (step : s.step = .ending ending) :
    s.scan = ⟨[], ending⟩ := by
  rw [State.scan]
  split
  · rename_i other h
    rw [step] at h
    cases h
    rfl
  · rename_i piece h
    rw [step] at h
    cases h

theorem scan_of_piece {s : State} {piece : Piece} (step : s.step = .piece piece) :
    s.scan = ⟨piece :: (s.advance piece).scan.pieces, (s.advance piece).scan.ending⟩ := by
  rw [State.scan]
  split
  · rename_i other h
    rw [step] at h
    cases h
  · rename_i other h
    rw [step] at h
    cases h
    rfl

end State

/-- A later point of a scan and the pieces cut off before it. -/
inductive Run : State → List Piece → State → Prop where
  | nil (s : State) : Run s [] s
  | cons {s t : State} {piece : Piece} {pieces : List Piece} (step : s.step = .piece piece)
      (rest : Run (s.advance piece) pieces t) : Run s (piece :: pieces) t

namespace Run

theorem split {s t : State} {before after : List Piece} (run : Run s (before ++ after) t) :
    ∃ m, Run s before m ∧ Run m after t := by
  induction before generalizing s with
  | nil => exact ⟨s, .nil s, run⟩
  | cons piece rest ih =>
    cases run with
    | cons step tail =>
      obtain ⟨m, first, second⟩ := ih tail
      exact ⟨m, .cons step first, second⟩

theorem ahead_eq {s t : State} {pieces : List Piece} (run : Run s pieces t) :
    s.ahead = textOf pieces ++ t.ahead := by
  induction run with
  | nil _ => rfl
  | @cons s t piece pieces step _ ih =>
    obtain ⟨tail, htail⟩ := (State.cut_of_step step).text_begins
    have hdrop : (s.advance piece).ahead = tail := by
      simp only [State.advance, ← htail, List.drop_left]
    rw [textOf_cons, List.append_assoc, ← ih, hdrop, htail]

theorem offset_eq {s t : State} {pieces : List Piece} (run : Run s pieces t) :
    t.offset = s.offset + (textOf pieces).length := by
  induction run with
  | nil _ => rfl
  | cons _ _ ih =>
    rw [ih, textOf_cons, List.length_append]
    simp only [State.advance]
    omega

theorem previous_eq {s t : State} {pieces : List Piece} (run : Run s pieces t) :
    t.previous = (textOf pieces).getLast?.or s.previous := by
  induction run with
  | nil s => rfl
  | @cons s t piece pieces step _ ih =>
    rw [ih, textOf_cons, List.getLast?_append, Option.or_assoc]
    rfl

theorem proper {s t : State} {pieces : List Piece} (run : Run s pieces t) :
    ∀ piece ∈ pieces, piece.Proper := by
  induction run with
  | nil _ => simp
  | cons step _ ih =>
    intro other hother
    rcases List.mem_cons.mp hother with heq | htail
    · subst heq
      exact ⟨_, _, State.cut_of_step step⟩
    · exact ih other htail

/-- A scan goes on from any point that it reaches. -/
theorem scan_eq {s t : State} {pieces : List Piece} (run : Run s pieces t) :
    s.scan = ⟨pieces ++ t.scan.pieces, t.scan.ending⟩ := by
  induction run with
  | nil _ => rfl
  | cons step _ ih => rw [State.scan_of_piece step, ih, List.cons_append]

end Run

/-- A scan is a run to a point that has no piece left to cut off. -/
theorem State.scan_run (s : State) :
    ∃ t, Run s s.scan.pieces t ∧ t.step = .ending s.scan.ending := by
  fun_induction State.scan s with
  | case1 s ending step => exact ⟨s, .nil s, step⟩
  | case2 s piece step later ih =>
    obtain ⟨t, run, stops⟩ := ih
    exact ⟨t, .cons step run, stops⟩

/-- The point where the scan of a source ends. -/
theorem scan_spec (source : List Char) :
    ∃ t, Run (State.start source) (scan source).pieces t ∧
      t.step = .ending (scan source).ending ∧
      source = textOf (scan source).pieces ++ t.ahead ∧
      t.offset = (textOf (scan source).pieces).length := by
  obtain ⟨t, run, stops⟩ := (State.start source).scan_run
  refine ⟨t, run, stops, run.ahead_eq, ?_⟩
  rw [run.offset_eq]
  exact Nat.zero_add _

/-- The point of a scan at which a piece is cut off. -/
theorem scan_split {source : List Char} {done later : List Piece} {piece : Piece}
    (split : (scan source).pieces = done ++ piece :: later) :
    ∃ s t, Run (State.start source) done s ∧ s.step = .piece piece ∧
      Run (s.advance piece) later t := by
  obtain ⟨t, run, _⟩ := scan_spec source
  rw [split] at run
  obtain ⟨s, first, second⟩ := run.split
  cases second with
  | cons step rest => exact ⟨s, t, first, step, rest⟩

/-- A NUL character that stops a scan stands where the scan says. -/
theorem nul_of_ending {source : List Char} {offset : Nat} (stopped : (scan source).ending = .nul offset) :
    offset = (textOf (scan source).pieces).length ∧ source[offset]? = some '\x00' := by
  obtain ⟨t, _, stops, whole, place⟩ := scan_spec source
  rw [stopped] at stops
  rcases State.ending_cases stops with ⟨ending, _⟩ | ⟨_, ending, _⟩ | ⟨ending, rest, ahead⟩
  · cases ending
  · cases ending
  · cases ending
    have found : (textOf (scan source).pieces ++ '\x00' :: rest)[
        (textOf (scan source).pieces).length]? = some '\x00' := by simp
    rw [← ahead, ← whole, ← place] at found
    exact ⟨place, found⟩

section Collecting

variable {α : Type} {give : Nat → Piece → List α}

/-- What pieces that begin at an offset give, each for itself and its own offset. -/
def collect (give : Nat → Piece → List α) (offset : Nat) : List Piece → List α
  | [] => []
  | piece :: rest => give offset piece ++ collect give (offset + piece.text.length) rest

theorem collect_append (offset : Nat) (before after : List Piece) :
    collect give offset (before ++ after) =
      collect give offset before ++ collect give (offset + (textOf before).length) after := by
  induction before generalizing offset with
  | nil => rfl
  | cons piece rest ih =>
    have shift : offset + (textOf (piece :: rest)).length =
        offset + piece.text.length + (textOf rest).length := by
      rw [textOf_cons, List.length_append]
      omega
    rw [shift, List.cons_append, collect, collect, ih, List.append_assoc]

/-- Where an item was given, and what was given before it. -/
theorem collect_split {offset : Nat} {pieces : List Piece} {before after : List α} {item : α}
    (split : collect give offset pieces = before ++ item :: after) :
    ∃ done piece later first last, pieces = done ++ piece :: later ∧
      give (offset + (textOf done).length) piece = first ++ item :: last ∧
      before = collect give offset done ++ first := by
  induction pieces generalizing offset before with
  | nil =>
    have empty := congrArg List.length split
    simp [collect] at empty
  | cons piece rest ih =>
    rw [collect, List.append_eq_append_iff] at split
    rcases split with ⟨more, hbefore, htail⟩ | ⟨more, hgive, htail⟩
    · obtain ⟨done, other, later, first, last, hrest, hitem, hmore⟩ := ih htail
      refine ⟨piece :: done, other, later, first, last, by rw [hrest]; rfl, ?_, ?_⟩
      · rw [textOf_cons, List.length_append, ← Nat.add_assoc]
        exact hitem
      · rw [hbefore, hmore, collect, List.append_assoc]
    · cases more with
      | nil =>
        have hitem : collect give (offset + piece.text.length) rest = [] ++ item :: after := by
          simpa using htail.symm
        obtain ⟨done, other, later, first, last, hrest, hother, hnil⟩ := ih hitem
        refine ⟨piece :: done, other, later, first, last, by rw [hrest]; rfl, ?_, ?_⟩
        · rw [textOf_cons, List.length_append, ← Nat.add_assoc]
          exact hother
        · rw [collect, List.append_assoc, ← hnil, List.append_nil, hgive, List.append_nil]
      | cons given more =>
        obtain ⟨rfl, -⟩ := List.cons.inj htail
        exact ⟨[], piece, rest, before, more, rfl, by simpa using hgive, rfl⟩

theorem mem_collect {offset : Nat} {pieces : List Piece} {item : α}
    (member : item ∈ collect give offset pieces) :
    ∃ done piece later, pieces = done ++ piece :: later ∧
      item ∈ give (offset + (textOf done).length) piece := by
  obtain ⟨before, after, split⟩ := List.append_of_mem member
  obtain ⟨done, piece, later, first, last, hpieces, hgive, _⟩ := collect_split split
  exact ⟨done, piece, later, hpieces, by simp [hgive]⟩

end Collecting

section Tokens

/-- The token of a piece at an offset; only lexemes have one. -/
def Piece.tokensAt (offset : Nat) : Piece → List Token
  | .lexeme category text => [⟨category, offset, text.length⟩]
  | _ => []

theorem tokensFrom_eq_collect (offset : Nat) (pieces : List Piece) :
    tokensFrom offset pieces = collect Piece.tokensAt offset pieces := by
  induction pieces generalizing offset with
  | nil => rfl
  | cons piece rest ih =>
    cases piece with
    | lexeme category text => exact congrArg (_ :: ·) (ih _)
    | blank c => exact ih _
    | stray c => exact ih _
    | danglingEscape => exact ih _

theorem mem_tokensAt {offset : Nat} {piece : Piece} {token : Token}
    (member : token ∈ piece.tokensAt offset) :
    ∃ category text, piece = .lexeme category text ∧ token = ⟨category, offset, text.length⟩ := by
  cases piece with
  | lexeme category text => exact ⟨category, text, rfl, List.mem_singleton.mp member⟩
  | blank c => cases member
  | stray c => cases member
  | danglingEscape => cases member

theorem tokensFrom_append (offset : Nat) (before after : List Piece) :
    tokensFrom offset (before ++ after) =
      tokensFrom offset before ++ tokensFrom (offset + (textOf before).length) after := by
  simp only [tokensFrom_eq_collect, collect_append]

/-- The lexeme of a token among the tokens of pieces, and the pieces before it. -/
theorem tokensFrom_split {offset : Nat} {pieces : List Piece} {before after : List Token}
    {token : Token} (split : tokensFrom offset pieces = before ++ token :: after) :
    ∃ done category text later, pieces = done ++ .lexeme category text :: later ∧
      tokensFrom offset done = before ∧
      token = ⟨category, (offset + (textOf done).length : Nat), text.length⟩ := by
  rw [tokensFrom_eq_collect] at split
  obtain ⟨done, piece, later, first, last, hpieces, hgive, hbefore⟩ := collect_split split
  have given : token ∈ piece.tokensAt (offset + (textOf done).length) := by simp [hgive]
  obtain ⟨category, text, rfl, htoken⟩ := mem_tokensAt given
  have only : first = [] := by
    have lengths := congrArg List.length hgive
    simp only [Piece.tokensAt, List.length_append, List.length_cons, List.length_nil] at lengths
    exact List.eq_nil_of_length_eq_zero (by omega)
  refine ⟨done, category, text, later, hpieces, ?_, htoken⟩
  rw [tokensFrom_eq_collect, hbefore, only, List.append_nil]

theorem mem_tokensFrom {offset : Nat} {pieces : List Piece} {token : Token}
    (member : token ∈ tokensFrom offset pieces) :
    ∃ done category text later, pieces = done ++ .lexeme category text :: later ∧
      token = ⟨category, (offset + (textOf done).length : Nat), text.length⟩ := by
  obtain ⟨before, after, split⟩ := List.append_of_mem member
  obtain ⟨done, category, text, later, hpieces, _, htoken⟩ := tokensFrom_split split
  exact ⟨done, category, text, later, hpieces, htoken⟩

theorem tokensFrom_bounds {offset : Nat} {pieces : List Piece} {token : Token}
    (member : token ∈ tokensFrom offset pieces) :
    (offset : Int) ≤ token.start ∧ token.stop ≤ offset + (textOf pieces).length := by
  obtain ⟨done, category, text, later, rfl, rfl⟩ := mem_tokensFrom member
  simp only [Token.stop, textOf_append, textOf_cons, Piece.text, List.length_append]
  omega

theorem tokensFrom_proper {offset : Nat} {pieces : List Piece} {token : Token}
    (proper : ∀ piece ∈ pieces, piece.Proper) (member : token ∈ tokensFrom offset pieces) :
    1 ≤ token.length ∧ token.category ≠ .endOfText := by
  obtain ⟨done, category, text, later, rfl, rfl⟩ := mem_tokensFrom member
  obtain ⟨within, ahead, cut⟩ := proper (.lexeme category text) (by simp)
  have positive := List.length_pos_iff.mpr cut.text_ne_nil
  refine ⟨?_, cut.category_ne_endOfText⟩
  simp only [Piece.text] at positive ⊢
  omega

theorem tokensFrom_ordered (offset : Nat) (pieces : List Piece) :
    (tokensFrom offset pieces).Pairwise fun earlier later => earlier.stop ≤ later.start := by
  induction pieces generalizing offset with
  | nil => exact .nil
  | cons piece rest ih =>
    cases piece with
    | lexeme category text =>
      refine .cons ?_ (ih (offset + text.length))
      intro later member
      have bounds := (tokensFrom_bounds member).1
      simp only [Token.stop]
      omega
    | blank c => exact ih (offset + 1)
    | stray c => exact ih (offset + 1)
    | danglingEscape => exact ih (offset + 1)

end Tokens

end Astra.Lexing
