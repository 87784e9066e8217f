import Astra.Proofs.Reports

/-!
# Reading the source off a report

A report without colors shows the source in a box with a left edge. Every line of the source stands
after an edge of its own, so no line of it can be taken for the end of the box, whatever the source
looks like, and the source can be read off the first box of a report.
-/

namespace Astra

namespace Text

/-- Complete lines are cut off one by one. -/
theorem splitOn_endLines {lines : List (List Char)} (unbroken : ∀ line ∈ lines, '\n' ∉ line)
    (rest : List Char) :
    (lines.flatMap Report.endLine ++ rest).splitOn '\n' = lines ++ rest.splitOn '\n' := by
  induction lines with
  | nil => rfl
  | cons line lines ih =>
    have first := unbroken line List.mem_cons_self
    have later := ih fun other member => unbroken other (List.mem_cons_of_mem line member)
    rw [List.flatMap_cons, Report.endLine, List.append_assoc, List.append_assoc,
      List.singleton_append, List.splitOn_append_cons_self_of_not_mem first, later]
    rfl

end Text

namespace Report

/-- A part of the left edge of a box: seven blanks and a character. -/
def edge (c : Char) : List Char := List.replicate 7 ' ' ++ [c]

theorem gutterLine_eq (c : Char) (text : List Char) :
    gutterLine c text = endLine (edge c ++ text) := rfl

theorem feed_not_mem_edge {c : Char} (ordinary : c ≠ '\n') : '\n' ∉ edge c := by
  simp [edge, Ne.symm ordinary]

/-- The lines of a box: the edges at its ends, and between them the lines of the code. -/
def boxLines (code : List Char) : List (List Char) :=
  edge '╔' :: ((code.splitOn '\n').map (edge '║' ++ ·) ++ [edge '╚'])

theorem box_eq (code : List Char) : box code = (boxLines code).flatMap endLine := by
  have inside : (code.splitOn '\n').flatMap (gutterLine '║') =
      ((code.splitOn '\n').map (edge '║' ++ ·)).flatMap endLine := by
    rw [List.flatMap_map]
    rfl
  rw [box, inside, boxLines, List.flatMap_cons, List.flatMap_append, List.append_assoc]
  rfl

theorem feed_not_mem_boxLines {code line : List Char} (member : line ∈ boxLines code) :
    '\n' ∉ line := by
  rw [boxLines, List.mem_cons, List.mem_append, List.mem_map, List.mem_singleton] at member
  rcases member with rfl | ⟨shown, inside, rfl⟩ | rfl
  · decide
  · exact List.not_mem_append (by decide) (Text.not_mem_of_mem_splitOn inside)
  · decide

/-- The lines of a text between the first top of a box and the next bottom of one. -/
def boxedLines (text : List Char) : List (List Char) :=
  (((text.splitOn '\n').dropWhile (· ≠ edge '╔')).drop 1).takeWhile (· ≠ edge '╚')

/-- The code in the first box of a text. -/
def boxedCode (text : List Char) : List Char :=
  ['\n'].intercalate ((boxedLines text).map (List.drop (edge '║').length))

theorem boxedLines_eq {text : List Char} {before inside after : List (List Char)}
    (split : text.splitOn '\n' = before ++ edge '╔' :: (inside ++ edge '╚' :: after))
    (outside : edge '╔' ∉ before) (within : edge '╚' ∉ inside) : boxedLines text = inside := by
  have before' : ∀ line ∈ before, decide (line ≠ edge '╔') = true := by
    intro line member
    exact decide_eq_true fun same => outside (same ▸ member)
  have inside' : ∀ line ∈ inside, decide (line ≠ edge '╚') = true := by
    intro line member
    exact decide_eq_true fun same => within (same ▸ member)
  rw [boxedLines, split, List.dropWhile_append_of_pos before',
    List.dropWhile_cons_of_neg (by simp), List.drop_one, List.tail_cons,
    List.takeWhile_append_of_pos inside', List.takeWhile_cons_of_neg (by simp), List.append_nil]

/-- No line of the code is a bottom of a box, since an edge stands before it. -/
theorem bottom_not_mem (lines : List (List Char)) : edge '╚' ∉ lines.map (edge '║' ++ ·) := by
  intro member
  obtain ⟨line, _, same⟩ := List.mem_map.mp member
  have begins : edge '║' <+: edge '╚' := ⟨line, same⟩
  exact absurd begins (by decide)

section Plain

variable {σ : Type} [ColorSource σ] (supply : σ) (policy : Policy) (filename source : List Char)

/-- The lines above the box of a report. -/
def headLines : List (List Char) := [[], border, "Code:".toList]

/-- The lines of a report without colors, up to the bottom of its box. -/
theorem splitOn_plain : ∃ after,
    (ofSource { colorize := false, policy, filename } supply source).text.splitOn '\n' =
      headLines ++ edge '╔' ::
        ((source.splitOn '\n').map (edge '║' ++ ·) ++ edge '╚' :: after) := by
  have unbroken : ∀ line ∈ headLines ++ boxLines source, '\n' ∉ line := by
    intro line member
    rcases List.mem_append.mp member with above | inside
    · have heads : ∀ line ∈ headLines, '\n' ∉ line := by decide
      exact heads line above
    · exact feed_not_mem_boxLines inside
  obtain ⟨rest, text⟩ : ∃ rest,
      (ofSource { colorize := false, policy, filename } supply source).text =
        (headLines ++ boxLines source).flatMap endLine ++ rest := by
    have above : headLines.flatMap endLine = ['\n'] ++ endLine border ++ endLine "Code:".toList :=
      rfl
    rw [ofSource_text, List.flatMap_append, ← box_eq, above]
    simp only [head, codeBlock, Bool.false_eq_true, if_false, List.append_assoc]
    exact ⟨_, rfl⟩
  refine ⟨rest.splitOn '\n', ?_⟩
  rw [text, Text.splitOn_endLines unbroken]
  simp [boxLines]

theorem boxedLines_plain :
    boxedLines (ofSource { colorize := false, policy, filename } supply source).text =
      (source.splitOn '\n').map (edge '║' ++ ·) := by
  obtain ⟨after, split⟩ := splitOn_plain supply policy filename source
  exact boxedLines_eq split (by decide) (bottom_not_mem _)

theorem boxedCode_plain :
    boxedCode (ofSource { colorize := false, policy, filename } supply source).text = source := by
  rw [boxedCode, boxedLines_plain, List.map_map]
  have bare : List.drop (edge '║').length ∘ (edge '║' ++ ·) = id :=
    funext fun line => List.drop_left
  rw [bare, List.map_id, List.intercalate_splitOn]

end Plain

end Report

/-- The source can be read off a report without colors: the lines between the first top of a box and
the next bottom begin with the edge of the box, there is one more of them than there are line feeds in
the source, and without the edge they are the lines of the source. So two sources with the same
report are the same, also if they were shown under other names, policies and supplies of colors. -/
theorem plain_report_decodes {σ : Type} [ColorSource σ] (supply : σ) (policy : Policy)
    (filename source : List Char) :
    let text := (Report.ofSource { colorize := false, policy, filename } supply source).text
    let inside := Report.boxedLines text
    (∃ before after,
      text.splitOn '\n' =
        before ++ Report.edge '╔' :: (inside ++ Report.edge '╚' :: after) ∧
      Report.edge '╔' ∉ before ∧ Report.edge '╚' ∉ inside) ∧
    (∀ line ∈ inside, Report.edge '║' <+: line) ∧
    inside.length = source.count '\n' + 1 ∧
    ['\n'].intercalate (inside.map (List.drop (Report.edge '║').length)) = source ∧
    ∀ {τ : Type} [ColorSource τ] (other : τ) (policy' : Policy) (filename' source' : List Char),
      (Report.ofSource { colorize := false, policy := policy', filename := filename' } other
        source').text = text → source' = source := by
  intro text inside
  obtain ⟨after, split⟩ := Report.splitOn_plain supply policy filename source
  have lines : inside = _ := Report.boxedLines_plain supply policy filename source
  refine ⟨⟨Report.headLines, after, ?_, by decide, ?_⟩, ?_, ?_, ?_, ?_⟩
  · rw [lines]
    exact split
  · rw [lines]
    exact Report.bottom_not_mem _
  · rw [lines]
    intro line member
    obtain ⟨shown, _, rfl⟩ := List.mem_map.mp member
    exact List.prefix_append _ shown
  · rw [lines, List.length_map, Text.length_splitOn]
  · exact Report.boxedCode_plain supply policy filename source
  · intro τ _ other policy' filename' source' same
    have read := congrArg Report.boxedCode same
    rw [Report.boxedCode_plain] at read
    exact read.trans (Report.boxedCode_plain supply policy filename source)

/-- A source with lines that look like the ends of a box. The report on it, which does not depend on
the supply, still shows all three of its lines. -/
theorem plain_report_decodes_edges :
    let source := "       ╔\n       ╚\n".toList
    let supply : Cycle := ⟨[⟨255, 0, 0⟩], by decide, 0⟩
    let other : Cycle := ⟨[⟨0, 0, 255⟩], by decide, 0⟩
    let text := (Report.ofSource { colorize := false } supply source).text
    Report.boxedLines text =
      ["       ║       ╔".toList, "       ║       ╚".toList, "       ║".toList] ∧
    (Report.boxedLines text).length = source.count '\n' + 1 ∧
    (Report.ofSource { colorize := false } other source).text = text ∧
    ∀ source', (Report.ofSource { colorize := false } other source').text = text →
      source' = source := by
  intro source supply other text
  have lines : Report.boxedLines text =
      ["       ║       ╔".toList, "       ║       ╚".toList, "       ║".toList] :=
    (Report.boxedLines_plain supply .standard Diagnostic.defaultFilename source).trans (by decide)
  have same : (Report.ofSource { colorize := false } other source).text = text := rfl
  obtain ⟨_, _, length, _, unique⟩ :=
    plain_report_decodes supply .standard Diagnostic.defaultFilename source
  exact ⟨lines, length, same, fun source' =>
    unique other .standard Diagnostic.defaultFilename source'⟩

end Astra
