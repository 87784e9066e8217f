import Astra.Report
import Astra.Proofs.Lines
import Astra.Proofs.Matching
import Astra.Proofs.Quotations

/-!
# Reports with and without color

A report in color is the report without color, with control sequences put into it and with the depth
of each mark after the line of its token. Apart from these sequences no part of a report has an
escape character in it unless the source or the name of the file has: everything else that is shown
of a text is quoted first.
-/

namespace Astra

section Escapes

/-- A text without an escape character. -/
def Unescaped (text : List Char) : Prop := Rgb.escape ∉ text

instance (text : List Char) : Decidable (Unescaped text) :=
  inferInstanceAs (Decidable (Rgb.escape ∉ text))

theorem Unescaped.append {text more : List Char} (first : Unescaped text)
    (second : Unescaped more) : Unescaped (text ++ more) :=
  List.not_mem_append first second

theorem Unescaped.cons {text : List Char} {c : Char} (ordinary : Rgb.escape ≠ c)
    (rest : Unescaped text) : Unescaped (c :: text) :=
  List.not_mem_cons_of_ne_of_not_mem ordinary rest

theorem Unescaped.flatMap {α : Type} {items : List α} {text : α → List Char}
    (each : ∀ item ∈ items, Unescaped (text item)) : Unescaped (items.flatMap text) := by
  intro inside
  obtain ⟨item, member, inside⟩ := List.mem_flatMap.mp inside
  exact each item member inside

theorem unescaped_replicate {c : Char} (ordinary : Rgb.escape ≠ c) (n : Nat) :
    Unescaped (List.replicate n c) :=
  fun inside => ordinary (List.eq_of_mem_replicate inside)

theorem Text.Printable.unescaped {text : List Char} (printable : Printable text) :
    Unescaped text := by
  intro inside
  exact absurd (printable _ inside) (by decide +kernel)

theorem Mark.unescaped_text (mark : Mark) : Unescaped mark.text := by
  have depth := (Text.Numeral.printable mark.depth).unescaped
  rw [Mark.text]
  split
  · exact (depth.cons (by decide)).append (by decide)
  · exact depth

theorem Lexing.Complaint.unescaped_message (complaint : Complaint) :
    Unescaped complaint.message := by
  cases complaint with
  | nul => decide +kernel
  | stray c =>
    have label : Unescaped "unexpected character ".toList := by decide +kernel
    exact label.append (Text.printable_quoted [c]).unescaped
  | danglingEscape => decide +kernel
  | unterminated enclosure => cases enclosure <;> decide +kernel

namespace Diagnostic

variable {d : Diagnostic}

theorem unescaped_excerpt (source : Unescaped d.source) : Unescaped d.excerpt := by
  intro inside
  rw [excerpt] at inside
  split at inside
  · cases inside
  · split at inside
    · cases inside
    · rename_i line found
      rw [Text.Line.shown_eq] at inside
      have trimmed := (List.rdropWhile_prefix _ _).subset inside
      have whole := (List.rdropWhile_prefix _ _).subset trimmed
      exact source (Text.mem_of_mem_splitLines line (List.mem_of_getElem? found) whole)

variable (message : Unescaped d.message)

include message

theorem unescaped_summary : Unescaped d.summary := by
  have column : Unescaped (':' :: Text.Numeral.ofInt d.position.column) :=
    .cons (by decide) (Text.Numeral.printable _).unescaped
  have bracket : Unescaped " (".toList := by decide +kernel
  have line := (Text.Numeral.printable d.position.line).unescaped
  exact (((message.append bracket).append line).append column).append (by decide)

theorem unescaped_format {filename : List Char} (source : Unescaped d.source)
    (named : Unescaped filename) : Unescaped (d.format filename) := by
  have line := (Text.Numeral.printable d.position.line).unescaped
  have column : Unescaped (':' :: Text.Numeral.ofInt d.position.column) :=
    .cons (by decide) (Text.Numeral.printable _).unescaped
  have margin : Unescaped ('\n' :: List.replicate
      ((Text.Numeral.ofInt d.position.line).length + 1) ' ') :=
    .cons (by decide) (unescaped_replicate (by decide) _)
  have label : Unescaped "error: ".toList := by decide +kernel
  have arrow : Unescaped "--> ".toList := by decide +kernel
  have bar : Unescaped " | ".toList := by decide +kernel
  have bar' : Unescaped "| ".toList := by decide +kernel
  have place := (((((label.append message).append margin).append arrow).append named).append
    (line.cons (show _ ≠ ':' by decide))).append column
  have snippet := ((((place.append margin).append (show Unescaped ['|'] by decide)).append
    (line.cons (show _ ≠ '\n' by decide))).append bar).append (unescaped_excerpt source)
  exact (((snippet.append margin).append bar').append
    (unescaped_replicate (by decide) _)).append (unescaped_replicate (by decide) _)

end Diagnostic

end Escapes

section Lines

theorem feed_not_mem_control {parameters : List Char} (proper : parameters.all isParameter = true) :
    '\n' ∉ control parameters := by
  have inside : '\n' ∉ parameters := by
    intro member
    have parameter := List.all_eq_true.mp proper _ member
    exact absurd parameter (by decide)
  simp [control, Rgb.escape, inside]

namespace Tinted

variable {tinted text : List Char}

/-- Control sequences stay within a line. -/
theorem splitOn (tints : Tinted tinted text) :
    List.Forall₂ Tinted (tinted.splitOn '\n') (text.splitOn '\n') := by
  induction tints with
  | nil => exact .cons .nil .nil
  | @char c tinted text ordinary _ ih =>
    by_cases feed : c = '\n'
    · rw [feed, Text.splitOn_cons_self, Text.splitOn_cons_self]
      exact .cons .nil ih
    · obtain ⟨first, later, cut⟩ := List.exists_cons_of_ne_nil (List.splitOn_ne_nil '\n' tinted)
      obtain ⟨line, lines, cut'⟩ := List.exists_cons_of_ne_nil (List.splitOn_ne_nil '\n' text)
      rw [cut, cut'] at ih
      rw [Text.splitOn_cons_of_ne feed cut, Text.splitOn_cons_of_ne feed cut']
      cases ih with
      | cons head tail => exact .cons (.char ordinary head) tail
  | @control parameters tinted text proper _ ih =>
    -- a sequence has no line feed, so it goes in front of the first line
    obtain ⟨first, later, cut⟩ := List.exists_cons_of_ne_nil (List.splitOn_ne_nil '\n' tinted)
    obtain ⟨line, lines, cut'⟩ := List.exists_cons_of_ne_nil (List.splitOn_ne_nil '\n' text)
    rw [cut, cut'] at ih
    rw [Text.splitOn_append_of_not_mem (feed_not_mem_control proper) cut, cut']
    cases ih with
    | cons head tail => exact .cons (.control proper head) tail

theorem flatMap {α β : Type} {items : List α} {others : List β} {write : α → List Char}
    {text : β → List Char} (each : List.Forall₂ (fun a b => Tinted (write a) (text b)) items others) :
    Tinted (items.flatMap write) (others.flatMap text) := by
  induction each with
  | nil => exact .nil
  | cons first _ ih => exact first.append ih

end Tinted

end Lines

namespace Report

section Parts

variable {tinted text : List Char}

theorem gutterLine_tinted {c : Char} (ordinary : Rgb.escape ≠ c) (tints : Tinted tinted text) :
    Tinted (gutterLine c tinted) (gutterLine c text) := by
  have margin : Unescaped (Text.padLeft gutter [c]) :=
    (unescaped_replicate (by decide) _).append (.cons ordinary List.not_mem_nil)
  exact ((Tinted.refl margin).append tints).append (.refl (by decide))

theorem box_tinted (tints : Tinted tinted text) : Tinted (box tinted) (box text) := by
  have edge : ∀ c, Rgb.escape ≠ c → Tinted (gutterLine c []) (gutterLine c []) := by
    intro c ordinary
    exact gutterLine_tinted ordinary .nil
  have lines : Tinted ((tinted.splitOn '\n').flatMap (gutterLine '║'))
      ((text.splitOn '\n').flatMap (gutterLine '║')) := by
    apply Tinted.flatMap
    exact tints.splitOn.imp fun _ _ line => gutterLine_tinted (by decide) line
  exact ((edge '╔' (by decide)).append lines).append (edge '╚' (by decide))

theorem bullet_tinted (tints : Tinted tinted text) : Tinted (bullet tinted) (bullet text) :=
  gutterLine_tinted (by decide) (.char (by decide) tints)

theorem unescaped_bullet (plain : Unescaped text) : Unescaped (bullet text) := by
  have margin : Unescaped (Text.padLeft gutter ['-']) := by decide
  exact (margin.append (plain.cons (by decide))).append (by decide)

theorem unescaped_diagnosticItem {filename : List Char} {d : Diagnostic}
    (message : Unescaped d.message) (source : Unescaped d.source) (named : Unescaped filename) :
    Unescaped (diagnosticItem filename d) := by
  apply (unescaped_bullet (Diagnostic.unescaped_summary message)).append
  apply Unescaped.flatMap
  intro line member
  have content : Unescaped line.content := by
    intro inside
    have found := Text.mem_of_mem_splitLines line (List.mem_of_mem_drop member)
      (List.mem_append_left _ inside)
    exact Diagnostic.unescaped_format message source named found
  exact ((unescaped_replicate (by decide) _).append content).append (by decide)

theorem unescaped_diagnosticSection {filename source : List Char} (plain : Unescaped source)
    (named : Unescaped filename) :
    Unescaped (diagnosticSection filename (Lexing.tokenize source)) := by
  have title : Unescaped (endLine "Errors:".toList) := by decide +kernel
  have rule : Unescaped (endLine divider) := by decide
  have items : Unescaped ((Lexing.tokenize source).diagnostics.flatMap
      (diagnosticItem filename)) := by
    apply Unescaped.flatMap
    intro d member
    rw [Lexing.tokenize_diagnostics] at member
    obtain ⟨finding, _, rfl⟩ := List.mem_map.mp member
    exact unescaped_diagnosticItem finding.complaint.unescaped_message plain named
  rw [diagnosticSection]
  split
  · exact List.not_mem_nil
  · exact ((rule.append title).append items).append (by decide)

end Parts

section Listings

variable {σ : Type} [ColorSource σ] {supply : σ} {tokens : List Token}

/-- Marks have colors of the supply. -/
theorem exists_nth_of_mark {i : Nat} {mark : Mark}
    (found : (depthMarks supply tokens).marks[i]? = some (some mark)) :
    ∃ n, mark.color = ColorSource.nth supply n := by
  cases opens : mark.opens with
  | true => exact ⟨_, (opening_mark found opens).2⟩
  | false =>
    obtain ⟨_, _, _, _, partner, _⟩ := exists_partner found opens
    exact ⟨_, (opening_mark partner rfl).2⟩

/-- The line for a token without color, but with the depth that its mark shows. -/
def labelledLine (source : List Char) (token : Token) (mark : Option Mark) : List Char :=
  token.describe source ++ mark.elim [] Mark.text

variable {policy : Policy}

theorem paintedLine_tinted (proper : policy.InRange) (source : List Char) (token : Token)
    {mark : Option Mark} (unsigned : ∀ shown ∈ mark, shown.color.Unsigned) :
    Tinted (Listing.paintedLine policy source token mark) (labelledLine source token mark) := by
  have name := Rgb.paint_tinted (Policy.colorOf_inRange proper token.category).unsigned
    token.category.printable_name.unescaped
  have label : Tinted (mark.elim [] Mark.label) (mark.elim [] Mark.text) := by
    cases mark with
    | none => exact .nil
    | some shown => exact Rgb.paint_tinted (unsigned shown rfl) shown.unescaped_text
  exact (name.append (.refl (token.printable_details source).unescaped)).append label

theorem listing_tinted (proper : policy.InRange) (source : List Char) {marks : List (Option Mark)}
    (unsigned : ∀ mark, some mark ∈ marks → mark.color.Unsigned) (tokens : List Token) :
    Tinted ((List.zipWith (Listing.paintedLine policy source) tokens marks).flatMap bullet)
      ((List.zipWith (labelledLine source) tokens marks).flatMap bullet) := by
  apply Tinted.flatMap
  induction tokens generalizing marks with
  | nil => exact .nil
  | cons token rest ih =>
    cases marks with
    | nil => exact .nil
    | cons mark marks =>
      have first : ∀ shown ∈ mark, shown.color.Unsigned := by
        rintro shown rfl
        exact unsigned shown List.mem_cons_self
      have later := ih fun shown member => unsigned shown (List.mem_cons_of_mem mark member)
      exact .cons (bullet_tinted (paintedLine_tinted proper source token first)) later

end Listings

section Whole

/-- A report up to its listing, around the given block of code. -/
def head (filename : List Char) (outcome : Lexing.Outcome) (code : List Char) : List Char :=
  let status := if outcome.isSuccess then "Result: SUCCESS" else "Result: FAILURE"
  ['\n'] ++ endLine border ++ endLine "Code:".toList ++ code ++ endLine divider ++
    endLine status.toList ++ diagnosticSection filename outcome ++ endLine divider

theorem ofSource_text {σ : Type} [ColorSource σ] (style : ReportStyle) (supply : σ)
    (source : List Char) :
    let tokens := (Lexing.tokenize source).tokens
    (ofSource style supply source).text =
      head style.filename (Lexing.tokenize source) (codeBlock style source tokens).1 ++
        endLine "Tokens:".toList ++
        (Listing.ofTokens style.colorize style.policy supply source tokens).lines.flatMap bullet ++
        endLine border ++ ['\n'] := by
  intro tokens
  show (ofOutcome style supply (Lexing.tokenize source)).text = _
  rw [ofOutcome, Lexing.tokenize_source]
  rfl

theorem head_tinted {filename source tinted text : List Char} (plain : Unescaped source)
    (named : Unescaped filename) (tints : Tinted tinted text) :
    Tinted (head filename (Lexing.tokenize source) tinted)
      (head filename (Lexing.tokenize source) text) := by
  have start : Unescaped (['\n'] ++ endLine border ++ endLine "Code:".toList) := by decide +kernel
  have rule : Unescaped (endLine divider) := by decide
  have status : ∀ isSuccess : Bool, Unescaped (endLine
      (if isSuccess then "Result: SUCCESS" else "Result: FAILURE").toList) := by
    intro isSuccess
    cases isSuccess <;> decide +kernel
  have wrong := unescaped_diagnosticSection plain named
  exact (((((Tinted.refl start).append tints).append (.refl rule)).append
    (.refl (status _))).append (.refl wrong)).append (.refl rule)

theorem rendering_tinted {policy : Policy} (proper : policy.InRange) {source : List Char}
    (plain : Unescaped source) :
    Tinted (Rendering.ofTokens source (Lexing.tokenize source).tokens policy).write source := by
  have whole : (Rendering.ofTokens source (Lexing.tokenize source).tokens policy).spans.flatMap
      Span.text = source := by
    rw [Lexing.tokenize_tokens, Rendering.ofTokens_text source _ (tokens_consecutive source),
      covered_tokens]
  have tints := spans_tinted
    (Rendering.ofTokensFrom_inRange source proper 0 {} (Lexing.tokenize source).tokens)
    (show Unescaped _ from whole.symm ▸ plain)
  rw [Rendering.ofTokens] at whole
  rw [whole] at tints
  exact tints

/-- A report in color is the one without, with control sequences put in and with the depths of marks
at the ends of lines. -/
theorem text_tinted {policy : Policy} (proper : policy.InRange) {σ : Type} [ColorSource σ]
    {supply : σ} (unsigned : ∀ n, (ColorSource.nth supply n).Unsigned) {source filename : List Char}
    (plain : Unescaped source) (named : Unescaped filename) :
    Tinted (ofSource { colorize := true, policy, filename } supply source).text
      (head filename (Lexing.tokenize source) (box source) ++ endLine "Tokens:".toList ++
        (List.zipWith (labelledLine source) (Lexing.tokenize source).tokens
          (depthMarks supply (Lexing.tokenize source).tokens).marks).flatMap bullet ++
        endLine border ++ ['\n']) := by
  have title : Unescaped (endLine "Tokens:".toList) := by decide +kernel
  have rule : Unescaped (endLine border) := by decide
  have colors : ∀ mark, some mark ∈ (depthMarks supply (Lexing.tokenize source).tokens).marks →
      mark.color.Unsigned := by
    intro mark member
    obtain ⟨i, found⟩ := List.getElem?_of_mem member
    obtain ⟨n, drawn⟩ := exists_nth_of_mark found
    rw [drawn]
    exact unsigned n
  have above := head_tinted plain named (box_tinted (rendering_tinted proper plain))
  have lines := listing_tinted proper source colors (Lexing.tokenize source).tokens
  rw [ofSource_text]
  exact (((above.append (.refl title)).append lines).append (.refl rule)).append
    (.refl (show Unescaped ['\n'] by decide))

end Whole

end Report

/-- A source and a file name without an escape character, overrides that were read, and a supply
without negative channels: deleting the control sequences from the report in color gives the report
without color, except that the line of each token that has a mark goes on with the depth, in
parentheses for an opening mark. -/
theorem stripped_report {table : List (List Char × Candidate)} {overrides : Overrides}
    (parsed : Overrides.read table = .ok overrides) {σ : Type} [ColorSource σ] {supply : σ}
    (unsigned : ∀ n, (ColorSource.nth supply n).Unsigned) {source filename : List Char}
    (plain : '\x1b' ∉ source) (named : '\x1b' ∉ filename) :
    let policy := Policy.standard.override overrides
    let tokens := (Lexing.tokenize source).tokens
    let marks := (depthMarks supply tokens).marks
    marks.length = tokens.length ∧
    ∃ above,
      (Report.ofSource { colorize := false, policy, filename } supply source).text =
        above ++ Report.endLine "Tokens:".toList ++
          (tokens.map fun token => token.describe source).flatMap Report.bullet ++
          Report.endLine Report.border ++ ['\n'] ∧
      stripControls (Report.ofSource { colorize := true, policy, filename } supply source).text =
        above ++ Report.endLine "Tokens:".toList ++
          (List.zipWith (fun token mark => token.describe source ++ mark.elim [] Mark.text)
            tokens marks).flatMap Report.bullet ++
          Report.endLine Report.border ++ ['\n'] := by
  intro policy tokens marks
  have proper := Policy.inRange_of_read parsed
  refine ⟨depthMarks_length supply tokens,
    Report.head filename (Lexing.tokenize source) (Report.box source), ?_, ?_⟩
  · rw [Report.ofSource_text]
    rfl
  · exact (Report.text_tinted proper unsigned plain named).stripControls_eq

/-- The parentheses have marks, and the report is about a failure. -/
theorem stripped_report_parentheses :
    let overrides : Overrides := [(.openParenthesis, ⟨128, 0, 0⟩)]
    let supply : Cycle := ⟨[⟨255, 0, 0⟩, ⟨0, 300, 0⟩], by decide, 0⟩
    let source := "(§)".toList
    let style : Bool → ReportStyle := fun colorize =>
      { colorize, policy := Policy.standard.override overrides, filename := "f".toList }
    Overrides.read [("open_parenthesis".toList, .text "red".toList)] = .ok overrides ∧
    (∀ n, (ColorSource.nth supply n).Unsigned) ∧ '\x1b' ∉ source ∧ '\x1b' ∉ "f".toList ∧
    ∃ above,
      (Report.ofSource (style false) supply source).text =
        above ++ Report.endLine "Tokens:".toList ++
          ["OPEN_PARENTHESIS [0:1] '('", "CLOSE_PARENTHESIS [2:3] ')'", "EOF [3:3] ''"].flatMap
            (Report.bullet ·.toList) ++
          Report.endLine Report.border ++ ['\n'] ∧
      stripControls (Report.ofSource (style true) supply source).text =
        above ++ Report.endLine "Tokens:".toList ++
          ["OPEN_PARENTHESIS [0:1] '('(1)", "CLOSE_PARENTHESIS [2:3] ')'1", "EOF [3:3] ''"].flatMap
            (Report.bullet ·.toList) ++
          Report.endLine Report.border ++ ['\n'] := by
  intro overrides supply source style
  have parsed : Overrides.read [("open_parenthesis".toList, .text "red".toList)] =
      .ok overrides := by decide +kernel
  have unsigned : ∀ n, (ColorSource.nth supply n).Unsigned := by
    intro n
    have palette : ∀ color ∈ supply.palette, color.Unsigned := by decide
    exact palette _ (List.mem_of_getElem? (Cycle.nth_eq supply n))
  have plain : '\x1b' ∉ source := by decide
  have named : '\x1b' ∉ "f".toList := by decide
  refine ⟨parsed, unsigned, plain, named, ?_⟩
  obtain ⟨_, above, uncolored, stripped⟩ := stripped_report parsed unsigned plain named
  have lines : ((Lexing.tokenize source).tokens.map fun token => token.describe source).flatMap
      Report.bullet = ["OPEN_PARENTHESIS [0:1] '('", "CLOSE_PARENTHESIS [2:3] ')'",
        "EOF [3:3] ''"].flatMap (Report.bullet ·.toList) := by decide +kernel
  have labelled : (List.zipWith (fun token mark => token.describe source ++ mark.elim [] Mark.text)
      (Lexing.tokenize source).tokens
      (depthMarks supply (Lexing.tokenize source).tokens).marks).flatMap Report.bullet =
      ["OPEN_PARENTHESIS [0:1] '('(1)", "CLOSE_PARENTHESIS [2:3] ')'1",
        "EOF [3:3] ''"].flatMap (Report.bullet ·.toList) := by decide +kernel
  rw [lines] at uncolored
  rw [labelled] at stripped
  exact ⟨above, uncolored, stripped⟩

end Astra
