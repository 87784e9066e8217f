import Astra.Proofs.Channels

/-!
# Control sequences

A sequence that sets a style is an escape character, a bracket, parameters and the letter `m`.
Deleting all of them from a text that they were put into gives back the text, unless it has an
escape character of its own. Painting a text puts sequences into it.
-/

namespace Astra

/-- The characters that the parameters of a control sequence are made of. -/
def isParameter (c : Char) : Bool := c.isDigit || c = ';'

/-- What comes after the control sequence that a text begins with. -/
def afterControl? : List Char → Option (List Char)
  | '\x1b' :: '[' :: body =>
    match body.dropWhile isParameter with
    | 'm' :: rest => some rest
    | _ => none
  | _ => none

theorem afterControl?_length {text rest : List Char} (found : afterControl? text = some rest) :
    rest.length < text.length := by
  unfold afterControl? at found
  split at found
  · rename_i body
    split at found
    · rename_i tail hdrop
      cases found
      have shorter := (List.dropWhile_suffix isParameter (l := body)).length_le
      rw [hdrop] at shorter
      simp only [List.length_cons] at shorter ⊢
      omega
    · cases found
  · cases found

/-- A text without the control sequences in it, which are found from left to right. -/
def stripControls (text : List Char) : List Char :=
  match _h : afterControl? text with
  | some rest => stripControls rest
  | none =>
    match text with
    | [] => []
    | c :: rest => c :: stripControls rest
termination_by text.length
decreasing_by
  · exact afterControl?_length _h
  · exact Nat.lt_succ_self _

theorem stripControls_of_control {text rest : List Char} (found : afterControl? text = some rest) :
    stripControls text = stripControls rest := by
  rw [stripControls]
  split
  · rename_i other h
    rw [found] at h
    cases h
    rfl
  · rename_i h
    rw [found] at h
    cases h

theorem stripControls_cons {c : Char} {rest : List Char} (plain : c ≠ Rgb.escape) :
    stripControls (c :: rest) = c :: stripControls rest := by
  have none : afterControl? (c :: rest) = none := by
    unfold afterControl?
    split
    · rename_i heq
      exact absurd (List.cons.inj heq).1 plain
    · rfl
  rw [stripControls]
  split
  · rename_i h
    rw [none] at h
    cases h
  · rfl

/-- A control sequence with the given parameters. -/
def control (parameters : List Char) : List Char := Rgb.escape :: '[' :: parameters ++ ['m']

theorem stripControls_control {parameters : List Char} (rest : List Char)
    (proper : parameters.all isParameter = true) :
    stripControls (control parameters ++ rest) = stripControls rest := by
  have drop : (parameters ++ 'm' :: rest).dropWhile isParameter = 'm' :: rest := by
    rw [List.dropWhile_append_of_pos (List.all_eq_true.mp proper)]
    rfl
  apply stripControls_of_control
  show afterControl? ('\x1b' :: '[' :: (parameters ++ ['m'] ++ rest)) = some rest
  rw [List.append_assoc, List.singleton_append]
  simp only [afterControl?, drop]

/-- A text with control sequences put into it, and the text, which has no escape character. -/
inductive Tinted : List Char → List Char → Prop where
  | nil : Tinted [] []
  | char {c : Char} {tinted text : List Char} (ordinary : c ≠ Rgb.escape)
      (rest : Tinted tinted text) : Tinted (c :: tinted) (c :: text)
  | control {parameters tinted text : List Char} (proper : parameters.all isParameter = true)
      (rest : Tinted tinted text) : Tinted (control parameters ++ tinted) text

namespace Tinted

variable {tinted text : List Char}

theorem stripControls_eq (tints : Tinted tinted text) : stripControls tinted = text := by
  induction tints with
  | nil =>
    rw [stripControls]
    rfl
  | char ordinary _ ih => rw [stripControls_cons ordinary, ih]
  | control proper _ ih => rw [stripControls_control _ proper, ih]

theorem refl (plain : Rgb.escape ∉ text) : Tinted text text := by
  induction text with
  | nil => exact .nil
  | cons c rest ih =>
    rw [List.mem_cons, not_or] at plain
    exact .char (Ne.symm plain.1) (ih plain.2)

theorem append {tinted' text' : List Char} (first : Tinted tinted text)
    (second : Tinted tinted' text') : Tinted (tinted ++ tinted') (text ++ text') := by
  induction first with
  | nil => exact second
  | char ordinary _ ih => exact .char ordinary ih
  | control proper _ ih =>
    rw [List.append_assoc]
    exact .control proper ih

end Tinted

section Painting

/-- A color without a negative channel. -/
def Rgb.Unsigned (color : Rgb) : Prop := ∀ channel ∈ [color.red, color.green, color.blue], 0 ≤ channel

instance (color : Rgb) : Decidable color.Unsigned :=
  inferInstanceAs (Decidable (∀ channel ∈ [color.red, color.green, color.blue], 0 ≤ channel))

theorem Rgb.InRange.unsigned {color : Rgb} (proper : color.InRange) : color.Unsigned :=
  fun channel member => (proper channel member).1

theorem isParameter_of_mem_numeral {n : Int} (natural : 0 ≤ n) {c : Char}
    (member : c ∈ Text.Numeral.ofInt n) : isParameter c = true := by
  cases n with
  | ofNat n =>
    have digit : c.isDigit = true := Nat.isDigit_of_mem_toDigits (by decide) (by decide) member
    simp [isParameter, digit]
  | negSucc n => omega

/-- What stands between the bracket and the final letter of the sequence that sets a color. -/
def Rgb.parameters (color : Rgb) : List Char :=
  ['3', '8', ';', '2', ';'] ++ Text.Numeral.ofInt color.red ++ ';' :: Text.Numeral.ofInt color.green ++
    ';' :: Text.Numeral.ofInt color.blue

theorem Rgb.startSequence_eq (color : Rgb) : color.startSequence = control color.parameters := by
  have opening : "[38;2;".toList = ['[', '3', '8', ';', '2', ';'] := by decide
  rw [Rgb.startSequence, opening]
  rfl

theorem Rgb.resetSequence_eq : Rgb.resetSequence = control ['0'] := by decide

theorem Rgb.parameters_all {color : Rgb} (unsigned : color.Unsigned) :
    color.parameters.all isParameter = true := by
  have channel : ∀ n ∈ [color.red, color.green, color.blue],
      (Text.Numeral.ofInt n).all isParameter = true := fun n member =>
    List.all_eq_true.mpr fun c hc => isParameter_of_mem_numeral (unsigned n member) hc
  have red := channel color.red (by simp)
  have green := channel color.green (by simp)
  have blue := channel color.blue (by simp)
  simp only [Rgb.parameters, List.all_append, List.all_cons, List.all_nil, red, green, blue]
  decide

/-- Painting a text puts control sequences around it. -/
theorem Rgb.paint_tinted {color : Rgb} (unsigned : color.Unsigned) {text : List Char}
    (plain : Rgb.escape ∉ text) : Tinted (color.paint text) text := by
  rw [Rgb.paint]
  split
  · rename_i empty
    rw [empty]
    exact .nil
  · have reset : Tinted Rgb.resetSequence [] := by
      rw [Rgb.resetSequence_eq, ← List.append_nil (control ['0'])]
      exact .control (by decide) .nil
    have inside : Tinted (text ++ Rgb.resetSequence) text := by
      have inside := (Tinted.refl plain).append reset
      rwa [List.append_nil] at inside
    rw [List.append_assoc, Rgb.startSequence_eq]
    exact .control (Rgb.parameters_all unsigned) inside

/-- The color of a span, if it has one, can be shown. -/
def Span.InRange : Span → Prop
  | raw _ => True
  | painted color _ => color.InRange

theorem Span.write_tinted {span : Span} (proper : span.InRange) (plain : Rgb.escape ∉ span.text) :
    Tinted span.write span.text := by
  cases span with
  | raw text => exact .refl plain
  | painted color text => exact Rgb.paint_tinted proper.unsigned plain

/-- Written spans are their texts with control sequences put in. -/
theorem spans_tinted {spans : List Span} (proper : ∀ span ∈ spans, span.InRange)
    (plain : Rgb.escape ∉ spans.flatMap Span.text) :
    Tinted (spans.flatMap Span.write) (spans.flatMap Span.text) := by
  induction spans with
  | nil => exact .nil
  | cons span rest ih =>
    rw [List.flatMap_cons, List.mem_append, not_or] at plain
    have later := ih (fun other member => proper other (List.mem_cons_of_mem span member)) plain.2
    exact (Span.write_tinted (proper span List.mem_cons_self) plain.1).append later

/-- Deleting the control sequences from written spans leaves their texts. -/
theorem stripControls_write {spans : List Span} (proper : ∀ span ∈ spans, span.InRange)
    (plain : Rgb.escape ∉ spans.flatMap Span.text) :
    stripControls (spans.flatMap Span.write) = spans.flatMap Span.text :=
  (spans_tinted proper plain).stripControls_eq

end Painting

end Astra
