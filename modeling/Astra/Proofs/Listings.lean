import Astra.Proofs.Boxes

/-!
# Listings without color

A line of a listing is a single line, wherever lines may be broken, since all of it is printable. It
says which token it is about: the name of the category ends at the first blank, the numerals at a
colon and a bracket, and the text of the token can be read back from what stands between the
quotation marks. So the listing of a report has one line for each token, which is found again
between the last heading and the next border.
-/

namespace Astra

namespace Text

theorem isLineBreak_of_isPrintable {c : Char} (printable : isPrintable c = true) :
    isLineBreak c = false := by
  have breaks : ['\n', '\r', '\x0b', '\x0c', '\x1c', '\x1d', '\x1e', '\u0085', '\u2028',
      '\u2029'].all (fun d => !isPrintable d) = true := by decide +kernel
  rw [isLineBreak, List.contains_eq_mem, decide_eq_false_iff_not]
  exact not_mem_of_isPrintable breaks printable

/-- A text is cut in one way at its first separator. -/
theorem append_cons_inj {separator : Char} {before before' after after' : List Char}
    (same : before ++ separator :: after = before' ++ separator :: after')
    (first : separator ∉ before) (first' : separator ∉ before') :
    before = before' ∧ after = after' := by
  have cut := congrArg (List.splitOn separator) same
  rw [List.splitOn_append_cons_self_of_not_mem first,
    List.splitOn_append_cons_self_of_not_mem first'] at cut
  obtain ⟨rfl, _⟩ := List.cons.inj cut
  exact ⟨rfl, (List.cons.inj (List.append_cancel_left same)).2⟩

theorem splitLines_endLines {lines : List (List Char)}
    (unbroken : ∀ line ∈ lines, ∀ c ∈ line, isLineBreak c = false) :
    splitLines (lines.flatMap Report.endLine) = lines.map (⟨·, ['\n']⟩) := by
  induction lines with
  | nil => rfl
  | cons line lines ih =>
    have first := unbroken line List.mem_cons_self
    have later := ih fun other member => unbroken other (List.mem_cons_of_mem line member)
    have feed : splitLines ('\n' :: lines.flatMap Report.endLine) =
        ⟨[], ['\n']⟩ :: splitLines (lines.flatMap Report.endLine) :=
      splitLines_of_break rfl fun same => by cases same
    rw [List.flatMap_cons, Report.endLine, List.append_assoc, List.singleton_append,
      splitLines_content_append first feed, later, List.append_nil]
    rfl

end Text

namespace Token

variable {token other : Token} {source source' : List Char}

theorem printable_describe (token : Token) (source : List Char) :
    Text.Printable (token.describe source) :=
  token.category.printable_name.append (token.printable_details source)

/-- A line of a listing says which token it is about, and what its text is. -/
theorem describe_inj (same : token.describe source = other.describe source') :
    token = other ∧ token.text source = other.text source' := by
  have described : ∀ (t : Token) (s : List Char), t.describe s =
      t.category.name.toList ++ ' ' :: '[' :: (Text.Numeral.ofInt t.start ++
        ':' :: (Text.Numeral.ofInt t.stop ++ ']' :: ' ' :: Text.quoted (t.text s))) := by
    intro t s
    simp [describe, details]
  have colon : ∀ n, ':' ∉ Text.Numeral.ofInt n :=
    Text.Numeral.not_mem_ofInt (by decide) (by decide)
  have bracket : ∀ n, ']' ∉ Text.Numeral.ofInt n :=
    Text.Numeral.not_mem_ofInt (by decide) (by decide)
  rw [described, described] at same
  obtain ⟨name, same⟩ :=
    Text.append_cons_inj same token.category.blank_not_mem_name other.category.blank_not_mem_name
  obtain ⟨start, same⟩ := Text.append_cons_inj (List.cons.inj same).2 (colon _) (colon _)
  obtain ⟨stop, same⟩ := Text.append_cons_inj same (bracket _) (bracket _)
  have text := Text.quoted_injective (List.cons.inj same).2
  have category := Category.name_injective (String.toList_injective name)
  have start := Text.Numeral.ofInt_injective start
  have stop : token.start + token.length = other.start + other.length :=
    Text.Numeral.ofInt_injective stop
  have length : token.length = other.length := by omega
  refine ⟨?_, text⟩
  cases token
  cases other
  cases category
  cases start
  cases length
  rfl

/-- Whether both ends of a token have numerals that are not too long. -/
def HasNumerals (token : Token) : Prop :=
  token.start.natAbs < Text.numeralBound ∧ token.stop.natAbs < Text.numeralBound

theorem checkSpan_eq_ok_iff : token.checkSpan = .ok () ↔ token.HasNumerals := by
  rw [checkSpan, Text.bind_eq_ok_iff, HasNumerals, ← Text.checkNumeral_eq_ok_iff,
    ← Text.checkNumeral_eq_ok_iff]
  constructor
  · rintro ⟨done, start, stop⟩
    exact ⟨start, stop⟩
  · rintro ⟨start, stop⟩
    exact ⟨(), start, stop⟩

end Token

namespace Listing

variable {σ : Type} [ColorSource σ] (supply : σ) (policy : Policy) (source : List Char)
  (tokens : List Token)

theorem lines_plain :
    (ofTokens false policy supply source tokens).lines = tokens.map (·.describe source) := rfl

/-- A listing without color is written exactly if all spans can be. -/
theorem ofTokens?_plain {written : Listing σ} :
    ofTokens? false policy supply source tokens = .ok written ↔
      (∀ token ∈ tokens, token.HasNumerals) ∧
        written = ofTokens false policy supply source tokens := by
  change (tokens.forM Token.checkSpan >>= fun _ => .ok _) = .ok written ↔ _
  rw [Text.bind_eq_ok_iff]
  constructor
  · rintro ⟨done, checked, same⟩
    refine ⟨fun token member => ?_, (Except.ok.inj same).symm⟩
    exact Token.checkSpan_eq_ok_iff.mp (Text.forM_eq_ok_iff.mp checked token member)
  · rintro ⟨each, rfl⟩
    refine ⟨(), Text.forM_eq_ok_iff.mpr fun token member => ?_, rfl⟩
    exact Token.checkSpan_eq_ok_iff.mpr (each token member)

end Listing

namespace Report

/-- The line in front of the listing of a report. -/
def listingHeading : List Char := "Tokens:".toList

/-- A line of a listing behind its bullet. -/
def item (line : List Char) : List Char := edge '-' ++ ' ' :: line

/-- The lines of a text between the last heading of a listing and the next border. -/
def listedLines (text : List Char) : List (List Char) :=
  (((Text.splitLines text).map Text.Line.content).rtakeWhile (· ≠ listingHeading)).takeWhile
    (· ≠ border)

/-- The lines of a report from the heading of its listing on. -/
def listingLines (lines : List (List Char)) : List (List Char) :=
  listingHeading :: (lines.map item ++ [border, []])

theorem printable_listingLines {lines : List (List Char)}
    (printable : ∀ line ∈ lines, Text.Printable line) :
    ∀ line ∈ listingLines lines, Text.Printable line := by
  have fixed : ∀ line ∈ [listingHeading, border, []], Text.Printable line := by decide
  have hyphen : Text.Printable (edge '-' ++ [' ']) := by decide
  intro line member
  rw [listingLines, List.mem_cons, List.mem_append, List.mem_map] at member
  rcases member with rfl | ⟨shown, inside, rfl⟩ | after
  · exact fixed _ List.mem_cons_self
  · exact hyphen.append (printable shown inside)
  · exact fixed line (List.mem_cons_of_mem _ after)

theorem item_ne {line other : List Char} (shown : ' ' ∉ other) : item line ≠ other := by
  intro same
  apply shown
  rw [← same]
  exact List.mem_append_left _ (by decide)

theorem listedLines_eq {text : List Char} {above lines : List (List Char)}
    (split : (Text.splitLines text).map Text.Line.content = above ++ listingLines lines) :
    listedLines text = lines.map item := by
  have items : ∀ shown ∈ lines.map item, shown ≠ listingHeading ∧ shown ≠ border := by
    intro shown member
    obtain ⟨line, _, rfl⟩ := List.mem_map.mp member
    exact ⟨item_ne (by decide), item_ne (by decide)⟩
  have below : ∀ shown ∈ (lines.map item ++ [border, []]).reverse,
      decide (shown ≠ listingHeading) = true := by
    intro shown member
    apply decide_eq_true
    rcases List.mem_append.mp (List.mem_reverse.mp member) with inside | after
    · exact (items shown inside).1
    · have ends : ∀ shown ∈ [border, []], shown ≠ listingHeading := by decide
      exact ends shown after
  have within : ∀ shown ∈ lines.map item, decide (shown ≠ border) = true := by
    intro shown member
    exact decide_eq_true (items shown member).2
  rw [listedLines, split, List.rtakeWhile, listingLines, List.reverse_append, List.reverse_cons,
    List.append_assoc, List.takeWhile_append_of_pos below, List.singleton_append,
    List.takeWhile_cons_of_neg (by simp), List.append_nil, List.reverse_reverse,
    List.takeWhile_append_of_pos within, List.takeWhile_cons_of_neg (by simp), List.append_nil]

theorem endsLine_head (filename : List Char) (outcome : Lexing.Outcome) (code : List Char) :
    Lexing.EndsLine (head filename outcome code) := by
  have feed : (head filename outcome code).getLast? = some '\n' := by
    rw [head, List.getLast?_append]
    rfl
  intro c last
  rw [feed] at last
  exact (Option.some.inj last).symm

section Plain

variable {σ : Type} [ColorSource σ] (supply : σ)

theorem ofOutcome_text (style : ReportStyle) (outcome : Lexing.Outcome) :
    let listing :=
      Listing.ofTokens style.colorize style.policy supply outcome.source outcome.tokens
    (ofOutcome style supply outcome).text =
      head style.filename outcome (codeBlock style outcome.source outcome.tokens).1 ++
        (listingLines listing.lines).flatMap endLine := by
  intro listing
  have items : (listing.lines.map item).flatMap endLine = listing.lines.flatMap bullet := by
    rw [List.flatMap_map]
    rfl
  have ends : [border, []].flatMap endLine = endLine border ++ ['\n'] := rfl
  rw [listingLines, List.flatMap_cons, List.flatMap_append, items, ends, ← List.append_assoc,
    ← List.append_assoc, ← List.append_assoc]
  rfl

/-- A report without colors is written exactly if its diagnostics and all spans can be. -/
theorem ofOutcome?_plain (policy : Policy) (filename : List Char) (outcome : Lexing.Outcome)
    {written : Report σ} :
    ofOutcome? { colorize := false, policy, filename } supply outcome = .ok written ↔
      (∀ d ∈ outcome.diagnostics, ∃ shown, d.format? filename = .ok shown) ∧
        (∀ token ∈ outcome.tokens, token.HasNumerals) ∧
        written = ofOutcome { colorize := false, policy, filename } supply outcome := by
  change ((outcome.diagnostics.forM fun d => discard (d.format? filename)) >>= fun _ =>
    discard (Listing.ofTokens? false policy supply outcome.source outcome.tokens) >>= fun _ =>
      .ok _) = .ok written ↔ _
  rw [Text.bind_eq_ok_iff]
  constructor
  · rintro ⟨_, checked, rest⟩
    obtain ⟨_, listed, same⟩ := Text.bind_eq_ok_iff.mp rest
    obtain ⟨listing, listed⟩ := Text.discard_eq_ok_iff.mp listed
    refine ⟨fun d member => ?_, ((Listing.ofTokens?_plain _ _ _ _).mp listed).1,
      (Except.ok.inj same).symm⟩
    exact Text.discard_eq_ok_iff.mp (Text.forM_eq_ok_iff.mp checked d member)
  · rintro ⟨diagnostics, spans, rfl⟩
    have listed := (Listing.ofTokens?_plain supply policy outcome.source outcome.tokens).mpr
      ⟨spans, rfl⟩
    refine ⟨(), Text.forM_eq_ok_iff.mpr fun d member => ?_, Text.bind_eq_ok_iff.mpr
      ⟨(), Text.discard_eq_ok_iff.mpr ⟨_, listed⟩, rfl⟩⟩
    exact Text.discard_eq_ok_iff.mpr (diagnostics d member)

/-- The lines of a report without colors from the heading of its listing on. -/
theorem splitLines_plain (policy : Policy) (filename : List Char) (outcome : Lexing.Outcome) :
    ∃ above,
      Text.splitLines (ofOutcome { colorize := false, policy, filename } supply outcome).text =
        above ++ (listingLines (outcome.tokens.map (·.describe outcome.source))).map
          (⟨·, ['\n']⟩) := by
  have printable : ∀ line ∈ outcome.tokens.map (·.describe outcome.source),
      Text.Printable line := by
    intro line member
    obtain ⟨token, _, rfl⟩ := List.mem_map.mp member
    exact token.printable_describe outcome.source
  have unbroken : ∀ line ∈ listingLines (outcome.tokens.map (·.describe outcome.source)),
      ∀ c ∈ line, Text.isLineBreak c = false := by
    intro line member c inside
    exact Text.isLineBreak_of_isPrintable (printable_listingLines printable line member c inside)
  rw [ofOutcome_text, Text.splitLines_append (endsLine_head _ _ _), Listing.lines_plain,
    Text.splitLines_endLines unbroken]
  exact ⟨_, rfl⟩

theorem listedLines_plain (policy : Policy) (filename : List Char) (outcome : Lexing.Outcome) :
    listedLines (ofOutcome { colorize := false, policy, filename } supply outcome).text =
      (outcome.tokens.map (·.describe outcome.source)).map item := by
  obtain ⟨above, split⟩ := splitLines_plain supply policy filename outcome
  have contents := congrArg (List.map Text.Line.content) split
  rw [List.map_append, List.map_map] at contents
  exact listedLines_eq (contents.trans (congrArg _ (List.map_id _)))

end Plain

end Report

/-- A listing without colors, which is written exactly if its numerals can be, has a single line for
each token, wherever lines may be broken, and so has the listing in a report. Such a line determines
the token and its text, also if it was written for another source. -/
theorem listing_lines_determine_tokens {σ : Type} [ColorSource σ] (supply : σ) (policy : Policy)
    (source : List Char) (tokens : List Token) :
    let listing := Listing.ofTokens false policy supply source tokens
    (∀ written, Listing.ofTokens? false policy supply source tokens = .ok written ↔
      (∀ token ∈ tokens, token.HasNumerals) ∧ written = listing) ∧
    listing.lines = tokens.map (·.describe source) ∧
    (∀ line ∈ listing.lines, ∀ c ∈ line, Text.isLineBreak c = false) ∧
    (∀ (filename : List Char) (outcome : Lexing.Outcome),
      outcome.source = source → outcome.tokens = tokens →
      let style : ReportStyle := { colorize := false, policy, filename }
      let report := Report.ofOutcome style supply outcome
      (∀ written, Report.ofOutcome? style supply outcome = .ok written ↔
        (∀ d ∈ outcome.diagnostics, ∃ shown, d.format? filename = .ok shown) ∧
          (∀ token ∈ tokens, token.HasNumerals) ∧ written = report) ∧
      (∃ above, Text.splitLines report.text =
        above ++ (Report.listingLines listing.lines).map (⟨·, ['\n']⟩)) ∧
      Report.listedLines report.text = listing.lines.map Report.item ∧
      (Report.listedLines report.text).length = tokens.length) ∧
    ∀ (source' : List Char) (token token' : Token),
      token.describe source = token'.describe source' →
        token.category = token'.category ∧ token.start = token'.start ∧
        token.stop = token'.stop ∧ token.length = token'.length ∧
        token.text source = token'.text source' := by
  intro listing
  refine ⟨fun written => Listing.ofTokens?_plain supply policy source tokens, rfl, ?_, ?_, ?_⟩
  · intro line member c inside
    obtain ⟨token, _, rfl⟩ := List.mem_map.mp member
    exact Text.isLineBreak_of_isPrintable (token.printable_describe source c inside)
  · rintro filename outcome rfl rfl
    have listed := Report.listedLines_plain supply policy filename outcome
    refine ⟨fun written => Report.ofOutcome?_plain supply policy filename outcome,
      Report.splitLines_plain supply policy filename outcome, listed, ?_⟩
    rw [listed, List.length_map, List.length_map]
  · intro source' token token' same
    obtain ⟨rfl, text⟩ := Token.describe_inj same
    exact ⟨rfl, rfl, rfl, rfl, text⟩

/-- Tokens over an escaped line feed, and over a line separator counted from the end. -/
theorem listing_lines_determine_tokens_breaks :
    let source := "\\\n\u2028'\x22".toList
    let tokens : List Token := [⟨.escape, 0, 2⟩, ⟨.word, -3, 2⟩]
    let supply : Cycle := ⟨[⟨255, 0, 0⟩], by decide, 0⟩
    let text := (Report.ofOutcome { colorize := false } supply (.success source tokens)).text
    Report.listedLines text =
      ["       - ESCAPE [0:2] '\\\\\\n'".toList, "       - WORD [-3:-1] \x22\\u2028'\x22".toList] ∧
    (Report.listedLines text).length = 2 ∧
    ∀ (source' : List Char) (token : Token),
      "ESCAPE [0:2] '\\\\\\n'".toList = token.describe source' →
        token.category = .escape ∧ token.text source' = ['\\', '\n'] := by
  intro source tokens supply text
  obtain ⟨_, lines, _, reports, determined⟩ :=
    listing_lines_determine_tokens supply .standard source tokens
  obtain ⟨_, _, listed, length⟩ :=
    reports Diagnostic.defaultFilename (.success source tokens) rfl rfl
  refine ⟨listed.trans ?_, length, ?_⟩
  · rw [lines]
    decide +kernel
  · intro source' token same
    have first : "ESCAPE [0:2] '\\\\\\n'".toList = Token.describe ⟨.escape, 0, 2⟩ source := by
      decide +kernel
    obtain ⟨category, _, _, _, written⟩ :=
      determined source' ⟨.escape, 0, 2⟩ token (first.symm.trans same)
    exact ⟨category.symm, written.symm.trans (by decide +kernel)⟩

end Astra
