import Mathlib.Data.List.DropRight
import Astra.Proofs.Concatenation
import Astra.Text.Lines

/-!
# Line feeds and line breaks

Positions count line feeds, but a text is cut into lines at every line break. The two agree on how
many lines there are exactly when every line break is a line feed, with or without a carriage return
before it. The first line of a text goes up to its first line break of any kind.
-/

namespace Astra.Text

open Lexing (EndsLine)

section Trimming

variable (p : Char → Bool) (text : List Char)

theorem rdropWhile_append (more : List Char) :
    (text ++ more).rdropWhile p =
      if more.all p then text.rdropWhile p else text ++ more.rdropWhile p := by
  have dropped : more.reverse.dropWhile p = [] ↔ more.all p = true := by simp
  simp only [List.rdropWhile, List.reverse_append, List.dropWhile_append, List.isEmpty_iff, dropped]
  split
  · rfl
  · simp

/-- Trimming may be done before something is added only if all of that is trimmed off. -/
theorem rdropWhile_eq_append_iff (more : List Char) :
    text.rdropWhile p = (text ++ more).rdropWhile p ↔ more.all p = true := by
  rw [rdropWhile_append]
  split
  · rename_i all
    simp [all]
  · rename_i kept
    have nonempty : more.rdropWhile p ≠ [] := by
      intro empty
      exact kept (List.all_eq_true.mpr (List.rdropWhile_eq_nil_iff.mp empty))
    have shorter : (text.rdropWhile p).length ≤ text.length :=
      (List.rdropWhile_prefix p text).length_le
    have positive := List.length_pos_iff.mpr nonempty
    constructor
    · intro same
      have lengths := congrArg List.length same
      rw [List.length_append] at lengths
      omega
    · intro all
      exact absurd all kept

variable {p text}

theorem rdropWhile_of_none (none : ∀ c ∈ text, p c = false) : text.rdropWhile p = text := by
  refine List.rdropWhile_eq_self_iff.mpr ?_
  intro nonempty
  rw [none _ (List.getLast_mem nonempty)]
  exact Bool.false_ne_true

end Trimming

section Cutting

variable {c : Char} {text rest : List Char}

theorem splitLines_of_content (content : isLineBreak c = false) :
    splitLines (c :: rest) =
      match splitLines rest with
      | [] => [⟨[c], []⟩]
      | line :: lines => { line with content := c :: line.content } :: lines := by
  have other : c ≠ '\r' := by
    rintro rfl
    cases content
  rw [splitLines.eq_3 _ _ fun _ same => absurd same other, content]
  rfl

theorem splitLines_of_break (breaks : isLineBreak c = true)
    (alone : c = '\r' → rest.head? ≠ some '\n') :
    splitLines (c :: rest) = ⟨[], [c]⟩ :: splitLines rest := by
  rw [splitLines.eq_3, if_pos breaks]
  rintro tail rfl rfl
  exact alone rfl rfl

theorem splitLines_eq_nil_iff : splitLines text = [] ↔ text = [] := by
  fun_cases splitLines text <;> simp_all

theorem alone_of_single (single : ∀ tail, c = '\r' → rest = '\n' :: tail → False) :
    c = '\r' → rest.head? ≠ some '\n' := by
  rintro rfl follows
  obtain ⟨tail, rfl⟩ := List.head?_eq_some_iff.mp follows
  exact single tail rfl rfl

/-- Lines that end with a line feed are cut apart from what follows. -/
theorem splitLines_append (ends : EndsLine text) (more : List Char) :
    splitLines (text ++ more) = splitLines text ++ splitLines more := by
  induction text using splitLines.induct with
  | case1 => rfl
  | case2 rest ih =>
    show splitLines ('\r' :: '\n' :: (rest ++ more)) = _
    rw [splitLines, splitLines, ih (ends.drop 2), List.cons_append]
  | case3 c rest single breaks ih =>
    have alone := alone_of_single single
    have apart : c = '\r' → (rest ++ more).head? ≠ some '\n' := by
      rintro rfl follows
      cases rest with
      | nil => cases ends _ rfl
      | cons d rest => exact alone rfl follows
    rw [List.cons_append, splitLines_of_break breaks apart, splitLines_of_break breaks alone,
      ih (ends.drop 1), List.cons_append]
  | case4 c rest single content empty ih =>
    rw [splitLines_eq_nil_iff.mp empty] at ends
    rw [ends c rfl] at content
    cases content rfl
  | case5 c rest single content line lines cut ih =>
    have content : isLineBreak c = false := by simpa using content
    rw [List.cons_append, splitLines_of_content content, splitLines_of_content content,
      ih (ends.drop 1), cut]
    rfl

theorem mem_of_mem_splitLines {text : List Char} {c : Char} :
    ∀ line ∈ splitLines text, c ∈ line.text → c ∈ text := by
  fun_induction splitLines text with
  | case1 => simp
  | case2 rest ih =>
    refine List.forall_mem_cons.mpr ⟨fun inside => ?_, fun line found inside => ?_⟩
    · exact List.mem_append_left rest inside
    · exact List.mem_append_right ['\r', '\n'] (ih line found inside)
  | case3 d rest single breaks ih =>
    refine List.forall_mem_cons.mpr ⟨fun inside => ?_, fun line found inside => ?_⟩
    · exact List.mem_append_left rest inside
    · exact List.mem_cons_of_mem d (ih line found inside)
  | case4 d rest single content empty ih =>
    refine List.forall_mem_singleton.mpr fun inside => ?_
    have same : c ∈ [d] := inside
    exact List.mem_append_left rest same
  | case5 d rest single content line lines cut ih =>
    rw [cut] at ih
    obtain ⟨first, later⟩ := List.forall_mem_cons.mp ih
    refine List.forall_mem_cons.mpr ⟨fun inside => ?_, fun line found inside => ?_⟩
    · rcases List.mem_cons.mp inside with rfl | inside
      · exact List.mem_cons_self
      · exact List.mem_cons_of_mem d (first inside)
    · exact List.mem_cons_of_mem d (later line found inside)

end Cutting

section Counting

/-- Whether every line break of a text is a line feed or a carriage return directly before one. -/
def lineFeedsOnly : List Char → Bool
  | [] => true
  | c :: rest =>
    (!isLineBreak c || c = '\n' || (c = '\r' && rest.head? = some '\n')) && lineFeedsOnly rest

/-- Every line feed ends a line. -/
theorem count_le_length_splitLines (text : List Char) :
    text.count '\n' ≤ (splitLines text).length := by
  fun_induction splitLines text with
  | case1 => exact Nat.le_refl 0
  | case2 rest ih =>
    rw [List.count_cons_of_ne (by decide), List.count_cons_self, List.length_cons]
    omega
  | case3 c rest single breaks ih =>
    have first : (c :: rest).count '\n' ≤ rest.count '\n' + 1 := by
      rw [List.count_cons]
      split <;> omega
    rw [List.length_cons]
    omega
  | case4 c rest single content empty ih =>
    rw [splitLines_eq_nil_iff.mp empty, List.count_singleton]
    split <;> simp
  | case5 c rest single content line lines cut ih =>
    have other : c ≠ '\n' := by
      rintro rfl
      exact content rfl
    rw [cut] at ih
    rw [List.count_cons_of_ne other]
    exact ih

/-- There are as many line feeds as lines exactly when nothing but line feeds ends a line. -/
theorem count_eq_length_iff {text : List Char} (ends : EndsLine text) :
    text.count '\n' = (splitLines text).length ↔ lineFeedsOnly text = true := by
  fun_induction splitLines text with
  | case1 => simp [lineFeedsOnly]
  | case2 rest ih =>
    have tidy : lineFeedsOnly ('\r' :: '\n' :: rest) = lineFeedsOnly rest := by simp [lineFeedsOnly]
    rw [List.count_cons_of_ne (by decide), List.count_cons_self, List.length_cons, tidy,
      ← ih (ends.drop 2)]
    omega
  | case3 c rest single breaks ih =>
    by_cases feed : c = '\n'
    · have tidy : lineFeedsOnly (c :: rest) = lineFeedsOnly rest := by simp [lineFeedsOnly, feed]
      rw [tidy, feed, List.count_cons_self, List.length_cons, ← ih (ends.drop 1)]
      omega
    · -- another line break ends a line without a line feed, so the lines get ahead
      have alone : (c = '\r' && rest.head? = some '\n') = false := by
        simpa using alone_of_single single
      have untidy : lineFeedsOnly (c :: rest) = false := by
        rw [lineFeedsOnly, breaks, alone]
        simp [feed]
      have behind := count_le_length_splitLines rest
      rw [untidy, List.count_cons_of_ne feed, List.length_cons]
      constructor
      · intro same
        omega
      · intro impossible
        cases impossible
  | case4 c rest single content empty ih =>
    rw [splitLines_eq_nil_iff.mp empty] at ends
    rw [ends c rfl] at content
    cases content rfl
  | case5 c rest single content line lines cut ih =>
    have content : isLineBreak c = false := by simpa using content
    have other : c ≠ '\n' := by
      rintro rfl
      cases content
    have tidy : lineFeedsOnly (c :: rest) = lineFeedsOnly rest := by simp [lineFeedsOnly, content]
    rw [cut] at ih
    rw [List.count_cons_of_ne other, tidy, ← ih (ends.drop 1)]
    rfl

end Counting

section First

/-- A text up to its first line break, which belongs to it. -/
def throughBreak (text : List Char) : List Char :=
  text.takeWhile (fun c => !isLineBreak c) ++ (text.dropWhile fun c => !isLineBreak c).take 1

/-- What comes after the first line break of a text. -/
def afterBreak (text : List Char) : List Char := (text.dropWhile fun c => !isLineBreak c).drop 1

theorem throughBreak_append_afterBreak (text : List Char) :
    throughBreak text ++ afterBreak text = text := by
  rw [throughBreak, afterBreak, List.append_assoc, List.take_append_drop,
    List.takeWhile_append_dropWhile]

theorem splitLines_content_append {content rest : List Char} {line : Line} {lines : List Line}
    (unbroken : ∀ c ∈ content, isLineBreak c = false) (cut : splitLines rest = line :: lines) :
    splitLines (content ++ rest) = { line with content := content ++ line.content } :: lines := by
  induction content with
  | nil => exact cut
  | cons c content ih =>
    have later := ih fun d member => unbroken d (List.mem_cons_of_mem c member)
    rw [List.cons_append, splitLines_of_content (unbroken c List.mem_cons_self), later]
    rfl

theorem splitLines_content {content : List Char} (unbroken : ∀ c ∈ content, isLineBreak c = false)
    (nonempty : content ≠ []) : splitLines content = [⟨content, []⟩] := by
  obtain ⟨front, last, rfl⟩ := List.eq_nil_or_concat content |>.resolve_left nonempty
  rw [List.concat_eq_append] at unbroken ⊢
  have final : splitLines [last] = [⟨[last], []⟩] := splitLines_of_content (unbroken last (by simp))
  exact splitLines_content_append (fun c member => unbroken c (by simp [member])) final

/-- The first line of a text whose first line feed, if there is one, comes after `text`: it goes up
to the first line break, and takes a line feed that follows directly. -/
theorem head_splitLines {text rest : List Char} (unbroken : '\n' ∉ text) (nonempty : text ≠ [])
    (closed : rest = [] ∨ rest.head? = some '\n') :
    ∃ line lines, splitLines (text ++ rest) = line :: lines ∧
      (line.text = throughBreak text ∨ line.text = throughBreak text ++ ['\n']) := by
  have whole : text.takeWhile (fun c => !isLineBreak c) ++ text.dropWhile (fun c => !isLineBreak c) =
    text := List.takeWhile_append_dropWhile
  have content : ∀ c ∈ text.takeWhile (fun c => !isLineBreak c), isLineBreak c = false := by
    intro c member
    simpa using List.mem_takeWhile_imp member
  rw [throughBreak]
  generalize text.takeWhile (fun c => !isLineBreak c) = first at whole content
  cases tail : text.dropWhile fun c => !isLineBreak c with
  | nil =>
    -- the text has no line break, so its line goes on up to the line feed after it
    rw [tail, List.append_nil] at whole
    subst whole
    rcases closed with rfl | follows
    · rw [List.append_nil]
      exact ⟨_, _, splitLines_content content nonempty, Or.inl rfl⟩
    · obtain ⟨more, rfl⟩ := List.head?_eq_some_iff.mp follows
      have feed : splitLines ('\n' :: more) = ⟨[], ['\n']⟩ :: splitLines more :=
        splitLines_of_break rfl fun same => by cases same
      refine ⟨_, _, splitLines_content_append content feed, Or.inr ?_⟩
      simp [Line.text]
  | cons c more =>
    have breaks : isLineBreak c = true := by
      have found := List.head?_dropWhile_not (fun c => !isLineBreak c) text
      rw [tail] at found
      simpa using found
    rw [tail] at whole
    rw [← whole, List.append_assoc]
    by_cases paired : c = '\r' ∧ (more ++ rest).head? = some '\n'
    · -- only a carriage return at the very end of the text can meet a line feed
      obtain ⟨rfl, follows⟩ := paired
      cases more with
      | nil =>
        obtain ⟨after, rfl⟩ := List.head?_eq_some_iff.mp follows
        have pair : splitLines ('\r' :: '\n' :: after) = ⟨[], ['\r', '\n']⟩ :: splitLines after := by
          rw [splitLines]
        refine ⟨_, _, splitLines_content_append content pair, Or.inr ?_⟩
        simp [Line.text]
      | cons d more =>
        have feed : d = '\n' := Option.some.inj follows
        have member : d ∈ text := by simp [← whole]
        exact absurd (feed ▸ member) unbroken
    · have apart : splitLines (c :: (more ++ rest)) = ⟨[], [c]⟩ :: splitLines (more ++ rest) :=
        splitLines_of_break breaks fun same follows => paired ⟨same, follows⟩
      refine ⟨_, _, splitLines_content_append content apart, Or.inl ?_⟩
      simp [Line.text]

end First

namespace Line

theorem shown_eq (line : Line) :
    line.shown = (line.text.rdropWhile (· = '\n')).rdropWhile (· = '\r') := by
  rw [shown, List.rdropWhile, List.rdropWhile, List.reverse_reverse]

theorem shown_of_text {line : Line} {text : List Char} (unbroken : '\n' ∉ text)
    (whole : line.text = text ∨ line.text = text ++ ['\n']) :
    line.shown = text.rdropWhile (· = '\r') := by
  have kept : text.rdropWhile (· = '\n') = text := by
    refine rdropWhile_of_none fun c member => decide_eq_false ?_
    rintro rfl
    exact unbroken member
  have trimmed : line.text.rdropWhile (· = '\n') = text := by
    rcases whole with same | same
    · rw [same, kept]
    · rw [same, rdropWhile_append, if_pos (by decide), kept]
  rw [shown_eq, trimmed]

theorem feed_at_end (text : List Char) :
    ∀ line ∈ splitLines text, '\n' ∉ line.content ∧ '\n' ∉ line.ending.dropLast := by
  fun_induction splitLines text with
  | case1 => simp
  | case2 rest ih => exact List.forall_mem_cons.mpr ⟨by decide, ih⟩
  | case3 c rest single breaks ih => exact List.forall_mem_cons.mpr ⟨by simp, ih⟩
  | case4 c rest single content empty ih =>
    refine List.forall_mem_singleton.mpr ⟨?_, List.not_mem_nil⟩
    rw [List.mem_singleton]
    rintro rfl
    exact content rfl
  | case5 c rest single content line lines cut ih =>
    rw [cut] at ih
    obtain ⟨⟨first, ending⟩, later⟩ := List.forall_mem_cons.mp ih
    refine List.forall_mem_cons.mpr ⟨⟨?_, ending⟩, later⟩
    rintro (_ | ⟨_, inside⟩)
    · exact content rfl
    · exact first inside

/-- What is shown of a line has no line feed in it. -/
theorem not_mem_shown {text : List Char} {line : Line} (member : line ∈ splitLines text) :
    '\n' ∉ line.shown := by
  obtain ⟨content, ending⟩ := feed_at_end text line member
  have text : ∃ front, '\n' ∉ front ∧ (line.text = front ∨ line.text = front ++ ['\n']) := by
    rcases List.eq_nil_or_concat line.ending with none | ⟨front, last, some⟩
    · exact ⟨line.content, content, Or.inl (by rw [Line.text, none, List.append_nil])⟩
    · rw [some, List.concat_eq_append, List.dropLast_concat] at ending
      by_cases feed : last = '\n'
      · refine ⟨line.content ++ front, by simp [content, ending], Or.inr ?_⟩
        simp [Line.text, some, feed]
      · refine ⟨line.content ++ (front ++ [last]), ?_, Or.inl ?_⟩
        · simp [content, ending, Ne.symm feed]
        · rw [Line.text, some, List.concat_eq_append]
  obtain ⟨front, unbroken, whole⟩ := text
  rw [shown_of_text unbroken whole]
  exact fun inside => unbroken ((List.rdropWhile_prefix _ _).subset inside)

end Line

section Around

variable (source : List Char) (offset : Nat)

/-- The lines before the one that an offset is on. Here a line ends at a line feed only. -/
def linesAbove : List Char := (source.take offset).rdropWhile (· ≠ '\n')

/-- The part before an offset of the line that it is on. -/
def lineHead : List Char := (source.take offset).rtakeWhile (· ≠ '\n')

/-- The line that an offset is on: what lies between the last line feed before the offset and the
next line feed. -/
def lineAt : List Char := lineHead source offset ++ (source.drop offset).takeWhile (· ≠ '\n')

theorem linesAbove_append_lineHead :
    linesAbove source offset ++ lineHead source offset = source.take offset :=
  List.rdropWhile_append_rtakeWhile ..

theorem endsLine_linesAbove : EndsLine (linesAbove source offset) := by
  intro c last
  have nonempty : linesAbove source offset ≠ [] := by
    intro empty
    rw [empty] at last
    cases last
  have stopped : ¬ decide ((linesAbove source offset).getLast nonempty ≠ '\n') = true :=
    List.rdropWhile_last_not _ _ nonempty
  rw [List.getLast?_eq_some_getLast nonempty] at last
  rw [← Option.some.inj last]
  simpa using stopped

theorem not_mem_lineHead : '\n' ∉ lineHead source offset := fun member => by
  simpa using List.mem_rtakeWhile_imp member

theorem not_mem_lineAt : '\n' ∉ lineAt source offset := by
  rw [lineAt, List.mem_append]
  rintro (head | tail)
  · exact not_mem_lineHead source offset head
  · simpa using List.mem_takeWhile_imp tail

theorem source_around : ∃ below, source = linesAbove source offset ++ (lineAt source offset ++ below) ∧
    (below = [] ∨ below.head? = some '\n') := by
  refine ⟨(source.drop offset).dropWhile (· ≠ '\n'), ?_, ?_⟩
  · rw [lineAt, List.append_assoc, List.takeWhile_append_dropWhile, ← List.append_assoc,
      linesAbove_append_lineHead, List.take_append_drop]
  · have found := List.head?_dropWhile_not (· ≠ '\n') (source.drop offset)
    cases below : (source.drop offset).dropWhile (· ≠ '\n') with
    | nil => exact Or.inl rfl
    | cons c rest =>
      rw [below] at found
      right
      simpa using found

/-- Cut at every line break, the line with the number that an offset has by the line feeds before
it. It begins where the line of the offset does, if all lines above end with a line feed, and it goes
up to the first line break; otherwise it lies further up. -/
theorem line_by_feeds (nonempty : lineAt source offset ≠ []) :
    ∃ line, (splitLines source)[(linesAbove source offset).count '\n']? = some line ∧
      if lineFeedsOnly (linesAbove source offset) then
        line.shown = (throughBreak (lineAt source offset)).rdropWhile (· = '\r')
      else (splitLines (linesAbove source offset))[(linesAbove source offset).count '\n']? = some line := by
  obtain ⟨below, whole, closed⟩ := source_around source offset
  have ends := endsLine_linesAbove source offset
  have unbroken := not_mem_lineAt source offset
  have behind := count_le_length_splitLines (linesAbove source offset)
  have tidy := count_eq_length_iff ends
  have cut : splitLines source =
      splitLines (linesAbove source offset) ++ splitLines (lineAt source offset ++ below) := by
    rw [← splitLines_append ends, ← whole]
  rw [cut]
  split
  · -- as many lines above as line feeds, so the count names the first line that follows
    rename_i only
    obtain ⟨line, lines, first, text⟩ := head_splitLines unbroken nonempty closed
    refine ⟨line, ?_, ?_⟩
    · rw [tidy.mpr only, List.getElem?_append_right (Nat.le_refl _), Nat.sub_self, first]
      rfl
    · refine Line.shown_of_text ?_ text
      intro member
      apply unbroken
      rw [← throughBreak_append_afterBreak (lineAt source offset)]
      exact List.mem_append_left _ member
  · -- more lines above than line feeds, so the count ends among them
    rename_i mixed
    have inside : (linesAbove source offset).count '\n' <
        (splitLines (linesAbove source offset)).length :=
      Nat.lt_of_le_of_ne behind fun same => mixed (tidy.mp same)
    refine ⟨_, ?_, List.getElem?_eq_getElem inside⟩
    rw [List.getElem?_append_left inside, List.getElem?_eq_getElem inside]

end Around

end Astra.Text
