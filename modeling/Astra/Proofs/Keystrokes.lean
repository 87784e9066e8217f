import Astra.Prompt
import Astra.Proofs.Boxes
import Astra.Proofs.Quotations
import Astra.Proofs.Sessions

/-!
# Scripts typed at the prompt

A script is typed line by line, with the key for a new line between two lines and the key that
submits at the end. The loop then runs what was typed, whatever lines there are: a script may begin
or end with empty lines, and submitting nothing in between has no effect. What has been typed but
not submitted when the prompt is left is not run.
-/

namespace Astra.Prompt

/-- The keys that type a script: its lines with new lines between them. -/
def Key.ofScript (script : List Char) : List Key :=
  [Key.newline].intercalate ((script.splitOn '\n').map Key.ofText)

/-- A text of printable characters and line feeds. -/
def Typable (text : List Char) : Prop := ∀ c ∈ text, Text.isPrintable c = true ∨ c = '\n'

instance (text : List Char) : Decidable (Typable text) :=
  decidable_of_iff (text.all (fun c => Text.isPrintable c || c = '\n') = true) (by simp [Typable])

/-- The keys that leave the prompt when some text has been typed. -/
inductive Exits (typed : List Char) : Key → Prop where
  | escape : Exits typed .escape
  | interrupt : Exits typed .interrupt
  | endOfInput (empty : typed = []) : Exits typed .endOfInput

/-- Keys that type scripts in turn and then leave the prompt. -/
inductive Types : List (List Char) → List Key → Prop where
  /-- Leaving, with a script that has not been submitted, and whatever comes afterwards. -/
  | leaving {pending : List Char} {key : Key} (typable : Typable pending)
      (exits : Exits pending key) (further : List Key) : Types [] (Key.ofScript pending ++ key :: further)
  | submittingNothing {scripts : List (List Char)} {keys : List Key} (rest : Types scripts keys) :
      Types scripts (.enter :: keys)
  | submitting {script : List Char} {scripts : List (List Char)} {keys : List Key}
      (nonempty : script ≠ []) (typable : Typable script) (rest : Types scripts keys) :
      Types (script :: scripts) (Key.ofScript script ++ .enter :: keys)

section Typing

/-- A printable character is typed by its own key. -/
theorem Key.ofCharacter_of_isPrintable {c : Char} (printable : Text.isPrintable c = true) :
    Key.ofCharacter c = [.character c] := by
  have controls : ['\r', '\n', '\t', '\x08', '\x7f', '\x03', '\x04'].all
      (fun d => !Text.isPrintable d) = true := by decide
  have other := Text.not_mem_of_isPrintable controls printable
  simp only [List.mem_cons, List.not_mem_nil, or_false, not_or] at other
  simp [Key.ofCharacter, other]

/-- A script is typed character by character. -/
theorem Key.ofScript_cons (c : Char) (rest : List Char) :
    Key.ofScript (c :: rest) =
      (if c = '\n' then [.newline] else Key.ofCharacter c) ++ Key.ofScript rest := by
  obtain ⟨line, lines, split⟩ := List.exists_cons_of_ne_nil (List.splitOn_ne_nil '\n' rest)
  by_cases feed : c = '\n'
  · rw [if_pos feed, feed, Key.ofScript, Text.splitOn_cons_self, Key.ofScript, split]
    rfl
  · rw [if_neg feed, Key.ofScript, Text.splitOn_cons_of_ne feed split, Key.ofScript, split]
    cases lines with
    | nil => simp [Key.ofText]
    | cons next lines => simp [Key.ofText, List.intercalate]

/-- Typing adds to what is already there. -/
theorem submissionsAfter_ofScript {script : List Char} (typable : Typable script)
    (written : List Char) (keys : List Key) :
    submissionsAfter written (Key.ofScript script ++ keys) =
      submissionsAfter (written ++ script) keys := by
  induction script generalizing written with
  | nil =>
    rw [List.append_nil]
    rfl
  | cons c rest ih =>
    obtain ⟨first, later⟩ := List.forall_mem_cons.mp typable
    rw [Key.ofScript_cons, List.append_assoc, List.append_cons written c rest]
    by_cases feed : c = '\n'
    · rw [if_pos feed, feed]
      exact ih later _
    · rw [if_neg feed, Key.ofCharacter_of_isPrintable (first.resolve_right feed)]
      exact ih later _

theorem submissionsAfter_of_exits {typed : List Char} {key : Key} (exits : Exits typed key)
    (further : List Key) : submissionsAfter typed (key :: further) = [] := by
  cases exits with
  | escape => rfl
  | interrupt => rfl
  | endOfInput empty =>
    cases empty
    rfl

/-- What is submitted that is not empty is what was typed. -/
theorem Types.history_eq {scripts : List (List Char)} {keys : List Key}
    (types : Types scripts keys) : history (submissions keys) = scripts := by
  induction types with
  | leaving typable exits further =>
    rw [submissions, submissionsAfter_ofScript typable, List.nil_append,
      submissionsAfter_of_exits exits]
    rfl
  | submittingNothing rest ih => exact ih
  | submitting nonempty typable rest ih =>
    rw [submissions, submissionsAfter_ofScript typable, List.nil_append]
    exact (history_cons nonempty _).trans (congrArg _ ih)

end Typing

/-- Scripts that are typed and submitted at the prompt are run by the loop, in order and each once,
and are its history, however the session is left. Nothing else is run: neither the empty text that
is submitted in between, nor a script that is still being typed when the prompt is left, nor anything
that the keys after that would type. -/
theorem typed_scripts_run {scripts : List (List Char)} {keys : List Key}
    (types : Types scripts keys) {τ : Type} (run : τ → List Char → τ) (state : τ) (exit : Exit) :
    let session := Session.hold run exit { state } (submissions keys)
    session.history = scripts ∧ session.state = scripts.foldl run state := by
  intro session
  have held : session = _ := Session.hold_eq run exit { state } (submissions keys)
  rw [held, types.history_eq]
  exact ⟨rfl, rfl⟩

/-- A script of two lines and one of nothing but a new line are run. The empty submissions before
and between them, the script that escape breaks off, and the keys after it have no effect. -/
theorem typed_scripts_run_until_escape :
    let keys : List Key :=
      [.enter, .character 'a', .newline, .character 'b', .enter, .enter, .newline, .enter,
       .character 'c', .escape, .character 'd', .enter]
    let session := Session.hold (fun ran script => ran ++ [script]) .endOfInput { state := [] }
      (submissions keys)
    Types ["a\nb".toList, "\n".toList] keys ∧
    session.history = ["a\nb".toList, "\n".toList] ∧
    session.state = ["a\nb".toList, "\n".toList] := by
  intro keys session
  have leaving : Types [] (Key.ofScript ['c'] ++ .escape :: [.character 'd', .enter]) :=
    .leaving (by decide) .escape _
  have types : Types ["a\nb".toList, "\n".toList] keys :=
    .submittingNothing (.submitting (by decide) (by decide)
      (.submittingNothing (.submitting (by decide) (by decide) leaving)))
  exact ⟨types, typed_scripts_run types _ [] .endOfInput⟩

end Astra.Prompt
