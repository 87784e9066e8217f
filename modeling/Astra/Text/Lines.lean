import Astra.Text.Characters

/-!
# Slices and lines

A slice is the part of a text between two offsets. Offsets are integers: a negative one counts from
the end, and one outside the text is moved to the nearer end, so a slice always exists.

There are two ways to cut a text into lines. It can be split at one given character, which separates
lines. Or it is cut after every character that ends a line on some system, which terminates lines,
so a text that ends with a line break has no empty last line.
-/

namespace Astra.Text

/-- The place within a text of the given length that an offset names. -/
def clampIndex (length : Nat) (offset : Int) : Nat :=
  if offset < 0 then (offset + length).toNat else min offset.toNat length

/-- The text before `stop` and from `start` on; empty when `stop` does not come after `start`. -/
def slice (text : List Char) (start stop : Int) : List Char :=
  let first := clampIndex text.length start
  (text.drop first).take (clampIndex text.length stop - first)

def sliceFrom (text : List Char) (start : Int) : List Char :=
  text.drop (clampIndex text.length start)

theorem clampIndex_ofNat (length n : Nat) : clampIndex length n = min n length := by
  have h : ¬ (n : Int) < 0 := by omega
  simp [clampIndex, h]

theorem slice_eq_drop_take (text : List Char) (start stop : Int) :
    slice text start stop =
      (text.take (clampIndex text.length stop)).drop (clampIndex text.length start) := by
  rw [List.drop_take]
  rfl

theorem slice_ofNat (text : List Char) (start stop : Nat) :
    slice text start stop = (text.take stop).drop start := by
  simp only [slice_eq_drop_take, clampIndex_ofNat]
  by_cases h : start ≤ text.length
  · rw [Nat.min_eq_left h, ← List.take_eq_take_min]
  · have hs : min start text.length = text.length := by omega
    rw [hs, ← List.take_eq_take_min]
    rw [List.drop_eq_nil_of_le (by rw [List.length_take]; omega),
      List.drop_eq_nil_of_le (by rw [List.length_take]; omega)]

section Splitting

variable {separator c : Char} {text line more : List Char} {lines : List (List Char)}

theorem splitOn_cons_of_ne (other : c ≠ separator) (split : text.splitOn separator = line :: lines) :
    (c :: text).splitOn separator = (c :: line) :: lines := by
  rw [List.splitOn_cons_eq_if_modifyHead, if_neg (by simpa using other), split]
  rfl

theorem splitOn_cons_self (separator : Char) (text : List Char) :
    (separator :: text).splitOn separator = [] :: text.splitOn separator := by
  rw [List.splitOn_cons_eq_if_modifyHead, if_pos (beq_self_eq_true _)]

theorem splitOn_append_of_not_mem (unbroken : separator ∉ text)
    (split : more.splitOn separator = line :: lines) :
    (text ++ more).splitOn separator = (text ++ line) :: lines := by
  induction text with
  | nil => exact split
  | cons c rest ih =>
    rw [List.mem_cons, not_or] at unbroken
    exact splitOn_cons_of_ne (Ne.symm unbroken.1) (ih unbroken.2)

/-- Ending each line with the separator gives back the text, with one more separator at its end. -/
theorem flatMap_splitOn (separator : Char) (text : List Char) :
    (text.splitOn separator).flatMap (· ++ [separator]) = text ++ [separator] := by
  induction text with
  | nil => rfl
  | cons c rest ih =>
    by_cases same : c = separator
    · rw [same, splitOn_cons_self, List.flatMap_cons, ih]
      rfl
    · obtain ⟨line, lines, split⟩ := List.exists_cons_of_ne_nil (List.splitOn_ne_nil separator rest)
      rw [split] at ih
      rw [splitOn_cons_of_ne same split]
      exact congrArg (c :: ·) ih

theorem not_mem_of_mem_splitOn (member : line ∈ text.splitOn separator) : separator ∉ line := by
  induction text generalizing line with
  | nil =>
    rw [List.mem_singleton.mp member]
    exact List.not_mem_nil
  | cons c rest ih =>
    by_cases same : c = separator
    · rw [same, splitOn_cons_self] at member
      rcases List.mem_cons.mp member with rfl | later
      · exact List.not_mem_nil
      · exact ih later
    · obtain ⟨first, lines, split⟩ := List.exists_cons_of_ne_nil (List.splitOn_ne_nil separator rest)
      rw [splitOn_cons_of_ne same split] at member
      rw [split] at ih
      rcases List.mem_cons.mp member with rfl | later
      · exact List.not_mem_cons_of_ne_of_not_mem (Ne.symm same) (ih List.mem_cons_self)
      · exact ih (List.mem_cons_of_mem first later)

theorem mem_of_mem_splitOn (member : line ∈ text.splitOn separator) (inside : c ∈ line) :
    c ∈ text := by
  have whole : c ∈ text ++ [separator] := by
    rw [← flatMap_splitOn]
    exact List.mem_flatMap.mpr ⟨line, member, List.mem_append_left _ inside⟩
  refine (List.mem_append.mp whole).resolve_right fun last => ?_
  rw [List.mem_singleton.mp last] at inside
  exact not_mem_of_mem_splitOn member inside

theorem length_splitOn (separator : Char) (text : List Char) :
    (text.splitOn separator).length = text.count separator + 1 := by
  induction text with
  | nil => rfl
  | cons c rest ih =>
    by_cases same : c = separator
    · rw [same, splitOn_cons_self, List.length_cons, ih, List.count_cons_self]
    · obtain ⟨line, lines, split⟩ := List.exists_cons_of_ne_nil (List.splitOn_ne_nil separator rest)
      rw [splitOn_cons_of_ne same split, List.count_cons_of_ne same, ← ih, split]
      rfl

end Splitting

def isLineBreak (c : Char) : Bool :=
  ['\n', '\r', '\x0b', '\x0c', '\x1c', '\x1d', '\x1e', '\u0085', '\u2028', '\u2029'].contains c

structure Line where
  content : List Char
  ending : List Char
  deriving DecidableEq, Repr

def Line.text (line : Line) : List Char := line.content ++ line.ending

/-- A line without the line feed at its end, and without the carriage returns before it. -/
def Line.shown (line : Line) : List Char :=
  ((line.text.reverse.dropWhile (· = '\n')).dropWhile (· = '\r')).reverse

/-- The lines of a text; a carriage return and the line feed after it end one line together. -/
def splitLines : List Char → List Line
  | [] => []
  | '\r' :: '\n' :: rest => ⟨[], ['\r', '\n']⟩ :: splitLines rest
  | c :: rest =>
    if isLineBreak c then ⟨[], [c]⟩ :: splitLines rest
    else
      match splitLines rest with
      | [] => [⟨[c], []⟩]
      | line :: lines => { line with content := c :: line.content } :: lines

/-- Turns every carriage return, with the line feed after it if there is one, into a line feed. -/
def unifyNewlines : List Char → List Char
  | [] => []
  | '\r' :: '\n' :: rest => '\n' :: unifyNewlines rest
  | c :: rest => (if c = '\r' then '\n' else c) :: unifyNewlines rest

/-- Text moved to the right edge of a column of the given width. -/
def padLeft (width : Int) (text : List Char) : List Char :=
  List.replicate (width - text.length).toNat ' ' ++ text

end Astra.Text
