import Mathlib.Algebra.GroupWithZero.Nat
import Astra.Command.Run
import Astra.Proofs.Balance

/-!
# Sessions

The loop at the prompt runs the scripts that are not empty, in order and each once, whatever a
script is run on and however the session is left. Reports in color share one supply: a report begins
where the opening marks of those before it have left the supply. Reports without color share
nothing.
-/

namespace Astra

section Draws

variable {σ σ' : Type} [ColorSource σ] [ColorSource σ']

theorem ColorSource.after_add (supply : σ) (m n : Nat) :
    after (after supply m) n = after supply (m + n) := by
  induction n with
  | zero => rfl
  | succ n ih =>
    rw [after, ih]
    rfl

theorem openingsBefore_length (marks : List (Option Mark)) :
    openingsBefore marks marks.length = openings marks := by
  induction marks with
  | nil => rfl
  | cons entry rest ih =>
    rw [openingsBefore] at ih ⊢
    rw [List.length_cons, Nat.count_succ', openings_cons, ← ih]
    rfl

/-- Whether a token opens a scope is told by the openers of the open ones. -/
theorem markStep_opens (t : Tracker) (supply : σ) (token : Token) :
    (markStep t supply token).mark.any Mark.opens =
      (decide (token.role = .opener) && !absorbs t.openers) := by
  have marked := markStep_marked t supply token
  generalize markStep t supply token = step at marked
  cases marked with
  | opened opener free => simp [opener, free]
  | absorbed opener absorbed => simp [opener, absorbed]
  | closed closer _ _ => simp [closer]
  | mismatched closer _ => simp [closer]
  | plain plain => simp [plain]

/-- How many opening marks there are does not depend on the colors. -/
theorem openings_markFrom {t t' : Tracker} (same : t.openers = t'.openers) (supply : σ) (other : σ')
    (tokens : List Token) :
    openings (markFrom t supply tokens).marks = openings (markFrom t' other tokens).marks := by
  induction tokens generalizing t t' supply other with
  | nil => rfl
  | cons token rest ih =>
    rw [markFrom_cons, markFrom_cons]
    dsimp only
    rw [openings_cons, openings_cons, markStep_opens, markStep_opens, same]
    congr 1
    apply ih
    rw [markStep_openers, markStep_openers, same]

/-- The number of opening marks in the listing of a script. -/
def openingMarks (supply : σ) (script : List Char) : Nat :=
  openings (depthMarks supply (Lexing.tokenize script).tokens).marks

theorem openingMarks_eq (supply : σ) (other : σ') : openingMarks supply = openingMarks other := by
  funext script
  exact openings_markFrom rfl supply other _

/-- How many colors the reports on some scripts draw. -/
def spent (style : ReportStyle) (supply : σ) (scripts : List (List Char)) : Nat :=
  if style.colorize then (scripts.map (openingMarks supply)).sum else 0

theorem spent_cons (style : ReportStyle) (supply other : σ) (script : List Char)
    (rest : List (List Char)) :
    spent style supply (script :: rest) = spent style supply [script] + spent style other rest := by
  rw [spent, spent, spent, openingMarks_eq other supply]
  split <;> simp

theorem Report.ofSource_supply (style : ReportStyle) (supply : σ) (script : List Char) :
    (Report.ofSource style supply script).supply =
      ColorSource.after supply (spent style supply [script]) := by
  show (Listing.ofTokens _ _ _ _ _).supply = _
  rw [Listing.ofTokens, spent]
  split
  · rw [List.map_singleton, List.sum_singleton, openingMarks, ← openingsBefore_length,
      depthMarks_length]
    exact depthMarks_supply supply _
  · rfl

/-- A report without colors does not depend on the supply. -/
theorem Report.ofSource_text_of_plain {style : ReportStyle} (plain : style.colorize = false)
    (supply : σ) (other : σ') (script : List Char) :
    (Report.ofSource style supply script).text = (Report.ofSource style other script).text := by
  simp [Report.ofSource, Report.ofOutcome, Listing.ofTokens, Listing.plain, plain]

end Draws

namespace Prompt

section Loop

variable {τ : Type}

theorem history_cons_nil (rest : List (List Char)) : history ([] :: rest) = history rest := rfl

theorem history_cons {script : List Char} (written : script ≠ []) (rest : List (List Char)) :
    history (script :: rest) = script :: history rest := by
  rw [history, history, List.filter_cons_of_pos]
  exact decide_eq_true written

theorem messages_cons (script : List Char) (rest : List (List Char)) :
    messages (script :: rest) = message :: messages rest := rfl

/-- What a session has done when it is left. -/
theorem Session.hold_eq (run : τ → List Char → τ) (exit : Exit) (session : Session τ)
    (scripts : List (List Char)) :
    session.hold run exit scripts =
      { state := (Prompt.history scripts).foldl run session.state
        history := session.history ++ Prompt.history scripts
        messages := session.messages ++ Prompt.messages scripts
        notes := session.notes ++ [closing (session.history ++ Prompt.history scripts)] } := by
  induction scripts generalizing session with
  | nil =>
    have none : session.history ++ Prompt.history [] = session.history := List.append_nil _
    rw [none]
    cases exit <;> rfl
  | cons script rest ih =>
    rw [hold, ih, messages_cons]
    by_cases empty : script = []
    · subst empty
      rw [history_cons_nil, submit, if_pos rfl]
      simp [ask]
    · rw [history_cons empty, submit, if_neg empty]
      simp [ask]

end Loop

section Reporting

variable {σ : Type} [ColorSource σ] (style : ReportStyle)

/-- The reports on scripts in turn. -/
def reports (supply : σ) : List (List Char) → List (Report σ)
  | [] => []
  | script :: rest =>
    let report := Report.ofSource style supply script
    report :: reports report.supply rest

theorem foldl_add_made (before : Reports σ) (scripts : List (List Char)) :
    (scripts.foldl (Reports.add style) before).made =
      before.made ++ reports style before.supply scripts := by
  induction scripts generalizing before with
  | nil => exact (List.append_nil _).symm
  | cons script rest ih =>
    rw [List.foldl_cons, ih]
    exact List.append_assoc _ _ _

theorem reports_length (supply : σ) (scripts : List (List Char)) :
    (reports style supply scripts).length = scripts.length := by
  induction scripts generalizing supply with
  | nil => rfl
  | cons script rest ih => exact congrArg (· + 1) (ih _)

/-- A report begins with the supply that those before it have left. -/
theorem reports_getElem? {supply : σ} {scripts : List (List Char)} {i : Nat} {script : List Char}
    (found : scripts[i]? = some script) :
    (reports style supply scripts)[i]? =
      some (Report.ofSource style
        (ColorSource.after supply (spent style supply (scripts.take i))) script) := by
  induction scripts generalizing supply i with
  | nil => cases found
  | cons first rest ih =>
    cases i with
    | zero =>
      cases found
      rw [List.take_zero, spent, List.map_nil, List.sum_nil, ite_self]
      rfl
    | succ i =>
      -- the induction counts with the supply after the first report, which makes no difference
      rw [reports, List.getElem?_cons_succ, ih found, List.take_succ_cons,
        spent_cons style supply (Report.ofSource style supply first).supply,
        ← ColorSource.after_add, ← Report.ofSource_supply]

end Reporting

end Prompt

section Command

variable {room : Config.Room} {arguments : List (List Char)} {disk : Disk}
  {unseeded supply : Supply} {request : Request} {settings : Settings}

/-- Without a script, a run is a session. -/
theorem run_of_session (requested : Request.ofArguments arguments = .ok request)
    (resolved : (Settings.resolve room disk request).2 = .ok settings)
    (scriptless : settings.script = none) (supplied : settings.supply unseeded = .ok supply)
    (scripts : List (List Char)) (exit : Prompt.Exit) :
    run room arguments disk scripts unseeded exit =
      .ok ((Transcript.ofSession (holdSession settings supply scripts exit)).withJournal
        request.verbose (Settings.resolve room disk request).1) := by
  have held : runSettings disk scripts unseeded settings exit =
      .ok (.ofSession (holdSession settings supply scripts exit)) := by
    rw [runSettings, supplied, scriptless]
    rfl
  rw [run, requested]
  dsimp only
  rw [runRequest]
  generalize Settings.resolve room disk request = resolution at resolved
  obtain ⟨notes, outcome⟩ := resolution
  cases resolved
  dsimp only
  rw [held]
  rfl

/-- A run without a script asks once for every script that is submitted, and once more, however it is
left. It runs the scripts that are not empty, in order and each once, and they are its history; the
same holds of the loop whatever the scripts are run on. Its output is one report after the other. A
report in color is that on its script alone with the supply advanced by the opening marks of the
scripts before; a report without color is that on its script alone, with any supply. -/
theorem session_reports (requested : Request.ofArguments arguments = .ok request)
    (resolved : (Settings.resolve room disk request).2 = .ok settings)
    (scriptless : settings.script = none) (supplied : settings.supply unseeded = .ok supply)
    (scripts : List (List Char)) (exit : Prompt.Exit) :
    let session := holdSession settings supply scripts exit
    let ran := scripts.filter (· ≠ [])
    (∃ transcript, run room arguments disk scripts unseeded exit = .ok transcript ∧
      transcript.ending = .returned 0 ∧ transcript.prompts = scripts.length + 1 ∧
      transcript.output = (session.state.made.map Report.text).flatten) ∧
    session.history = ran ∧
    session.messages = List.replicate (scripts.length + 1) Prompt.message ∧
    session.state = ran.foldl (Prompt.Reports.add settings.style) { supply } ∧
    (∀ (τ : Type) (step : τ → List Char → τ) (state : τ),
      (Prompt.Session.hold step exit { state } scripts).state = ran.foldl step state) ∧
    session.state.made.length = ran.length ∧
    ∀ i script, ran[i]? = some script →
      (settings.colorize = true →
        (session.state.made.map Report.text)[i]? =
          some (Report.ofSource settings.style
            (ColorSource.after supply ((ran.take i).map (openingMarks supply)).sum) script).text) ∧
      (settings.colorize = false → ∀ (σ : Type) [ColorSource σ] (other : σ),
        (session.state.made.map Report.text)[i]? =
          some (Report.ofSource settings.style other script).text) := by
  intro session ran
  have held : session = _ := Prompt.Session.hold_eq _ _ _ scripts
  have made : session.state.made = Prompt.reports settings.style supply ran := by
    rw [held]
    exact Prompt.foldl_add_made settings.style { supply } ran
  refine ⟨⟨_, run_of_session requested resolved scriptless supplied scripts exit, rfl, ?_, ?_⟩,
    ?_, ?_, ?_, ?_, ?_, ?_⟩
  · show session.messages.length = _
    rw [held]
    exact List.length_replicate
  · exact List.flatMap_def
  · rw [held]
    rfl
  · rw [held]
    rfl
  · rw [held]
    rfl
  · intro τ step state
    rw [Prompt.Session.hold_eq]
    rfl
  · rw [made, Prompt.reports_length]
  · intro i script found
    rw [List.getElem?_map, made, Prompt.reports_getElem? settings.style found]
    constructor
    · intro colored
      have spent : spent settings.style supply (ran.take i) = _ := if_pos colored
      rw [spent]
      rfl
    · intro plain σ _ other
      exact congrArg some (Report.ofSource_text_of_plain plain _ other script)

/-- An interrupted session with an empty script between two others: the second report begins one
color later. -/
theorem session_reports_seeded :
    let settings : Settings := ⟨none, true, some (.number 7), [], false⟩
    let session := holdSession settings (.ofSeed 7) ["(a)".toList, [], "[b".toList] .interrupt
    (∃ transcript, run .unbounded ["--seed".toList, "7".toList] (fun _ => .error .missing)
        ["(a)".toList, [], "[b".toList] (.ofSeed 0) .interrupt = .ok transcript ∧
      transcript.prompts = 4) ∧
    session.history = ["(a)".toList, "[b".toList] ∧
    (session.state.made.map Report.text)[1]? =
      some (Report.ofSource settings.style (ColorSource.after (Supply.ofSeed 7) 1)
        "[b".toList).text := by
  intro settings session
  have requested : Request.ofArguments ["--seed".toList, "7".toList] =
      .ok { seed := some (.number 7) } := by decide +kernel
  have resolved : (Settings.resolve .unbounded (fun _ => .error .missing)
      { seed := some (.number 7) }).2 = .ok settings := rfl
  have supplied : settings.supply (.ofSeed 0) = .ok (.ofSeed 7) := rfl
  have ran : ["(a)".toList, [], "[b".toList].filter (· ≠ []) = ["(a)".toList, "[b".toList] := rfl
  have one : openingMarks (Supply.ofSeed 7) "(a)".toList = 1 := by
    rw [openingMarks_eq _ (⟨[⟨255, 0, 0⟩], by decide, 0⟩ : Cycle)]
    decide +kernel
  obtain ⟨⟨transcript, done, _, prompts, _⟩, history, _, _, _, _, reports⟩ :=
    session_reports requested resolved rfl supplied ["(a)".toList, [], "[b".toList] .interrupt
  rw [ran] at history reports
  refine ⟨⟨transcript, done, prompts⟩, history, ?_⟩
  refine ((reports 1 "[b".toList rfl).1 rfl).trans ?_
  rw [List.take_succ_cons, List.take_zero, List.map_singleton, List.sum_singleton, one]

end Command

end Astra
