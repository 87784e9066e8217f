import Astra.Proofs.Scanning

/-!
# Scans at other offsets

A scan does not depend on the offsets it counts. If they are changed by a function that keeps
distances from a point on, the scan from there cuts off the same pieces and ends in the same way, at
the changed offsets.
-/

namespace Astra.Lexing

section Relocation

variable (f : Nat → Nat)

/-- The same enclosure, entered at another offset. -/
def Entered.relocate (entered : Entered) : Entered := { entered with start := f entered.start }

/-- The same ending at other offsets. -/
def Ending.relocate : Ending → Ending
  | complete => complete
  | unterminated entered => unterminated (entered.relocate f)
  | nul offset => nul (f offset)

/-- The same point of a scan at another offset. -/
def State.relocate (s : State) : State :=
  { s with offset := f s.offset, within := s.within.map (Entered.relocate f) }

variable {s t : State} {piece : Piece} {pieces : List Piece}

theorem State.relocate_enclosure (s : State) :
    (s.relocate f).within.map Entered.enclosure = s.within.map Entered.enclosure := by
  rw [relocate, Option.map_map]
  rfl

theorem State.step_relocate_of_piece (step : s.step = .piece piece) :
    (s.relocate f).step = .piece piece := by
  obtain ⟨c, rest, ahead, notNul, rfl⟩ := piece_of_step step
  have moved : (s.relocate f).ahead = c :: rest := ahead
  rw [step_cons moved, if_neg notNul, relocate_enclosure]
  rfl

theorem State.step_relocate_of_ending {ending : Ending} (step : s.step = .ending ending) :
    (s.relocate f).step = .ending (ending.relocate f) := by
  rcases ending_cases step with ⟨rfl, ahead, within⟩ | ⟨entered, rfl, ahead, within⟩ |
    ⟨rfl, rest, ahead⟩
  · simp [State.step, relocate, ahead, within, Ending.relocate]
  · simp [State.step, relocate, ahead, within, Ending.relocate]
  · simp [State.step, relocate, ahead, Ending.relocate]

theorem State.withinAfter_relocate (s : State) (piece : Piece) :
    (s.relocate f).withinAfter piece = (s.withinAfter piece).map (Entered.relocate f) := by
  cases piece with
  | lexeme category text =>
    cases hwithin : s.within with
    | none =>
      simp only [withinAfter, relocate, hwithin, Option.map_none, Option.map_map]
      rfl
    | some entered =>
      simp only [withinAfter, relocate, hwithin, Option.map_some]
      by_cases closer : category = entered.enclosure.closer
      · rw [if_pos closer]
        exact if_pos closer
      · rw [if_neg closer]
        exact if_neg closer
  | blank c => rfl
  | stray c => rfl
  | danglingEscape => rfl

variable {f}

theorem State.advance_relocate (keeps : ∀ n, f (s.offset + n) = f s.offset + n) (piece : Piece) :
    (s.relocate f).advance piece = (s.advance piece).relocate f := by
  rw [advance, withinAfter_relocate]
  simp only [relocate, advance, keeps]

theorem Run.relocate (keeps : ∀ n, f (s.offset + n) = f s.offset + n) (run : Run s pieces t) :
    Run (s.relocate f) pieces (t.relocate f) := by
  induction run with
  | nil s => exact .nil _
  | @cons s t piece pieces step _ ih =>
    refine .cons (State.step_relocate_of_piece f step) ?_
    rw [State.advance_relocate keeps]
    apply ih
    intro n
    show f (s.offset + piece.text.length + n) = f (s.offset + piece.text.length) + n
    rw [Nat.add_assoc, keeps, keeps, Nat.add_assoc]

theorem State.scan_relocate (keeps : ∀ n, f (s.offset + n) = f s.offset + n) :
    (s.relocate f).scan = ⟨s.scan.pieces, s.scan.ending.relocate f⟩ := by
  obtain ⟨t, run, stops⟩ := s.scan_run
  rw [(run.relocate keeps).scan_eq, scan_of_ending (step_relocate_of_ending f stops),
    List.append_nil]

/-- What pieces give at other offsets, if each gives the same there up to its place. -/
theorem collect_relocate {α : Type} {give : Nat → Piece → List α} {move : α → α}
    (moves : ∀ offset piece, give (f offset) piece = (give offset piece).map move) {offset : Nat}
    (keeps : ∀ n ≤ (textOf pieces).length, f (offset + n) = f offset + n) :
    collect give (f offset) pieces = (collect give offset pieces).map move := by
  induction pieces generalizing offset with
  | nil => rfl
  | cons piece rest ih =>
    rw [textOf_cons, List.length_append] at keeps
    have next := keeps piece.text.length (Nat.le_add_right _ _)
    have later : ∀ n ≤ (textOf rest).length, f (offset + piece.text.length + n) =
        f (offset + piece.text.length) + n := by
      intro n bound
      rw [Nat.add_assoc, keeps _ (Nat.add_le_add_left bound _), next, Nat.add_assoc]
    rw [collect, collect, moves, ← next, ih later, List.map_append]

end Relocation

end Astra.Lexing
