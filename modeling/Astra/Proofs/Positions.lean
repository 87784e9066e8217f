import Mathlib.Data.Prod.Lex
import Astra.Proofs.Snippets

/-!
# Positions and offsets

A position says as much as an offset. The line is found by counting line feeds and the column counts
from its start, so that the offset can be computed back from the two. Later offsets have later
positions when lines are compared first and columns second.
-/

namespace Astra

/-- The offset just after the line feed with the given number, counted from one. For zero it is the
start of the text. -/
def Text.afterFeed? : Nat → List Char → Option Nat
  | 0, _ => some 0
  | _ + 1, [] => none
  | n + 1, c :: rest => (afterFeed? (if c = '\n' then n else n + 1) rest).map (· + 1)

/-- What comes after complete lines begins just after the last of their line feeds. -/
theorem Text.afterFeed?_append {above : List Char} (ends : Lexing.EndsLine above)
    (rest : List Char) : afterFeed? (above.count '\n') (above ++ rest) = some above.length := by
  induction above with
  | nil => cases rest <;> rfl
  | cons c above ih =>
    have later : Lexing.EndsLine above := ends.drop 1
    by_cases feed : c = '\n'
    · rw [feed, List.count_cons_self, List.cons_append, afterFeed?, if_pos rfl, ih later]
      rfl
    · -- a line that has begun is not complete yet, so a line feed is still to come
      have nonempty : above ≠ [] := by
        rintro rfl
        exact feed (ends c rfl)
      have feeds : 0 < above.count '\n' := List.count_pos_iff.mpr (later.mem nonempty)
      obtain ⟨n, more⟩ : ∃ n, above.count '\n' = n + 1 := ⟨above.count '\n' - 1, by omega⟩
      rw [List.count_cons_of_ne feed, more, List.cons_append, afterFeed?, if_neg feed, ← more,
        ih later]
      rfl

namespace Position

variable {source : List Char} {x y : Nat}

/-- A line begins just after the line feeds that its number counts, and a column is the distance from
there. -/
theorem offset_of_line_column (inside : x ≤ source.length) :
    Text.afterFeed? ((ofOffset source x).line - 1).toNat source =
        some (Text.linesAbove source x).length ∧
      (x : Int) = (Text.linesAbove source x).length + (ofOffset source x).column - 1 := by
  have before := congrArg List.length (Text.linesAbove_append_lineHead source x)
  rw [List.length_append, List.length_take, Nat.min_eq_left inside] at before
  obtain ⟨below, whole, _⟩ := Text.source_around source x
  have start := Text.afterFeed?_append (Text.endsLine_linesAbove source x)
    (Text.lineAt source x ++ below)
  rw [← whole] at start
  rw [ofOffset_eq inside]
  constructor
  · rw [Int.add_sub_cancel, Int.toNat_natCast]
    exact start
  · simp only
    omega

theorem slice_linesAbove :
    Text.slice source (Text.linesAbove source x).length x = Text.lineHead source x := by
  rw [Text.slice_ofNat, ← Text.linesAbove_append_lineHead source x, List.drop_left]

/-- Lines never go back. -/
theorem line_mono (later : x ≤ y) : (ofOffset source x).line ≤ (ofOffset source y).line := by
  have feeds : (source.take x).count '\n' ≤ (source.take y).count '\n' :=
    (List.take_prefix_take_left later).sublist.count_le '\n'
  simp only [ofOffset, Text.clampIndex_ofNat, ← List.take_eq_take_min]
  omega

/-- On one line, offsets are as far apart as columns. -/
theorem offset_of_same_line (hx : x ≤ source.length) (hy : y ≤ source.length)
    (same : (ofOffset source x).line = (ofOffset source y).line) :
    (x : Int) - y = (ofOffset source x).column - (ofOffset source y).column := by
  obtain ⟨start, back⟩ := offset_of_line_column hx
  obtain ⟨start', back'⟩ := offset_of_line_column hy
  rw [same, start'] at start
  have begins := Option.some.inj start
  omega

/-- Offsets are ordered as their lines are, and on one line as their columns are. -/
theorem lt_iff_line_column (hx : x ≤ source.length) (hy : y ≤ source.length) :
    x < y ↔ (ofOffset source x).line < (ofOffset source y).line ∨
      (ofOffset source x).line = (ofOffset source y).line ∧
        (ofOffset source x).column < (ofOffset source y).column := by
  constructor
  · intro before
    rcases Int.lt_or_eq_of_le (line_mono (Nat.le_of_lt before)) with above | same
    · exact .inl above
    · have apart := offset_of_same_line hx hy same
      exact .inr ⟨same, by omega⟩
  · rintro (above | ⟨same, left⟩)
    · by_contra after
      exact absurd above (Int.not_lt.mpr (line_mono (Nat.le_of_not_lt after)))
    · have apart := offset_of_same_line hx hy same
      omega

/-- Every offset from the start to the end of a source has a line and a column from one on, and can
be computed back from them: the line begins just after the line feeds above it, nothing from there to
the offset is a line feed, and the column counts that distance. The order of offsets is the
lexicographic order of lines and columns. -/
theorem positions_order_offsets (hx : x ≤ source.length) (hy : y ≤ source.length) :
    let p := ofOffset source x
    let q := ofOffset source y
    (1 ≤ p.line ∧ 1 ≤ p.column ∧ ∃ start : Nat,
      Text.afterFeed? (p.line - 1).toNat source = some start ∧
      (x : Int) = start + p.column - 1 ∧ '\n' ∉ Text.slice source start x) ∧
    (x < y ↔ toLex (p.line, p.column) < toLex (q.line, q.column)) := by
  intro p q
  obtain ⟨begins, back⟩ := offset_of_line_column hx
  have position : p = _ := ofOffset_eq hx
  refine ⟨⟨?_, ?_, _, begins, back, ?_⟩, ?_⟩
  · rw [position]
    exact Int.le_add_of_nonneg_left (Int.natCast_nonneg _)
  · rw [position]
    exact Int.le_add_of_nonneg_left (Int.natCast_nonneg _)
  · rw [slice_linesAbove]
    exact Text.not_mem_lineHead source x
  · rw [Prod.Lex.toLex_lt_toLex]
    exact lt_iff_line_column hx hy

/-- The last line feed of a source still belongs to the line that it ends, and the end of the source
after it is on a line of its own. -/
theorem positions_order_offsets_last_feed :
    let source := "a\n\nb\n".toList
    ofOffset source (4 : Nat) = ⟨3, 2, 4⟩ ∧ ofOffset source (5 : Nat) = ⟨4, 1, 5⟩ ∧
    (∃ start : Nat, Text.afterFeed? 2 source = some start ∧ ((4 : Nat) : Int) = start + 2 - 1 ∧
      '\n' ∉ Text.slice source start (4 : Nat)) ∧
    toLex ((3 : Int), (2 : Int)) < toLex ((4 : Int), (1 : Int)) := by
  intro source
  have feed : ofOffset source (4 : Nat) = ⟨3, 2, 4⟩ := by decide
  have last : ofOffset source (5 : Nat) = ⟨4, 1, 5⟩ := by decide
  have inside : 4 ≤ source.length := by decide
  have closed : 5 ≤ source.length := by decide
  have positions := positions_order_offsets inside closed
  rw [feed, last] at positions
  obtain ⟨⟨_, _, recovered⟩, ordered⟩ := positions
  exact ⟨feed, last, recovered, ordered.mp (by decide)⟩

end Position

end Astra
