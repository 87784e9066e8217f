import Astra.Proofs.Nesting

/-!
# Enclosures and scopes

A scan remembers the one enclosure that it is in; a tracker keeps all open scopes and lets the
innermost one absorb openers when it is quote-like. At every point of a scan the two agree: the
scan is in an enclosure exactly when the tokens so far leave a quote-like scope innermost, and the
opener is the same token.
-/

namespace Astra.Lexing

section Categories

namespace Enclosure

variable (e f : Enclosure)

theorem ofOpener?_opener : ofOpener? e.opener = some e := by cases e <;> rfl

theorem opener_role : e.opener.role = .opener := by cases e <;> rfl

theorem closer_role : e.closer.role = .closer := by cases e <;> rfl

theorem opener_isQuoteLike : e.opener.isQuoteLike = true := by cases e <;> rfl

theorem opener?_closer : e.closer.opener? = some e.opener := by cases e <;> rfl

theorem opener_ne_closer : e.opener ≠ f.closer := by cases e <;> cases f <;> decide

variable {e f}

theorem opener_injective (same : e.opener = f.opener) : e = f := by
  cases e <;> cases f <;> first | rfl | cases same

theorem closer_injective (same : e.closer = f.closer) : e = f := by
  cases e <;> cases f <;> first | rfl | cases same

end Enclosure

variable {category : Category} (ordinary : isOrdinary category = true)

include ordinary

theorem ofOpener?_of_isOrdinary : Enclosure.ofOpener? category = none := by
  cases category <;> first | rfl | cases ordinary

theorem ne_closer_of_isOrdinary (e : Enclosure) : category ≠ e.closer := by
  rintro rfl
  cases e <;> cases ordinary

theorem isQuoteLike_of_isOrdinary : category.isQuoteLike = false := by
  cases category <;> first | rfl | cases ordinary

/-- A closer of an ordinary category closes no quote-like scope. -/
theorem opener?_of_isOrdinary {opener : Category} (required : category.opener? = some opener) :
    opener.isQuoteLike = false := by
  cases category <;> cases required <;> first | rfl | cases ordinary

end Categories

section Agreement

/-- The enclosure that a scan is in and the openers of the open scopes agree: the opener of the
enclosure is innermost, and nothing else that is open is quote-like. -/
inductive Agrees : Option Entered → List Token → Prop where
  | outside {openers : List Token}
      (plain : ∀ opener ∈ openers, opener.category.isQuoteLike = false) : Agrees none openers
  | inside {entered : Entered} {below : List Token}
      (plain : ∀ opener ∈ below, opener.category.isQuoteLike = false) :
      Agrees (some entered) (entered.opener :: below)

namespace Agrees

variable {openers : List Token} {entered : Entered} {token : Token}

theorem absorbs_of_none (agrees : Agrees none openers) : absorbs openers = false := by
  cases agrees with
  | outside plain =>
    cases openers with
    | nil => rfl
    | cons opener rest => exact plain opener List.mem_cons_self

theorem absorbs_of_some (agrees : Agrees (some entered) openers) : absorbs openers = true := by
  cases agrees with
  | inside _ => exact entered.enclosure.opener_isQuoteLike

theorem absorbs_iff {within : Option Entered} (agrees : Agrees within openers) :
    absorbs openers = true ↔ within.isSome = true := by
  cases within with
  | none => simp [agrees.absorbs_of_none]
  | some entered => simp [agrees.absorbs_of_some]

theorem opener_mem (agrees : Agrees (some entered) openers) : entered.opener ∈ openers := by
  cases agrees with
  | inside _ => exact List.mem_cons_self

/-- The closer of an enclosure closes a scope exactly inside that enclosure. -/
theorem closes_iff {within : Option Entered} (agrees : Agrees within openers) {e : Enclosure}
    (same : token.category = e.closer) :
    closes openers token = true ↔ within.map Entered.enclosure = some e := by
  cases agrees with
  | outside plain =>
    cases openers with
    | nil => simp [closes]
    | cons opener rest =>
      have quoteLike := plain opener List.mem_cons_self
      have foreign : token.category.opener? ≠ some opener.category := by
        rw [same, e.opener?_closer]
        intro required
        rw [← Option.some.inj required, e.opener_isQuoteLike] at quoteLike
        cases quoteLike
      simp [closes, foreign]
  | @inside entered below _ =>
    show decide (token.category.opener? = some entered.enclosure.opener) = true ↔
      some entered.enclosure = some e
    rw [decide_eq_true_iff, same, e.opener?_closer, Option.some.injEq, Option.some.injEq]
    exact ⟨fun opener => (Enclosure.opener_injective opener).symm, fun same => by rw [same]⟩

theorem not_closes_of_isOrdinary (agrees : Agrees (some entered) openers)
    (ordinary : isOrdinary token.category = true) : closes openers token = false := by
  cases agrees with
  | inside _ =>
    refine decide_eq_false fun required => ?_
    have plain := opener?_of_isOrdinary ordinary required
    have quoteLike : entered.opener.category.isQuoteLike = true :=
      entered.enclosure.opener_isQuoteLike
    rw [quoteLike] at plain
    cases plain

theorem ordinary_of_none (agrees : Agrees none openers)
    (ordinary : isOrdinary token.category = true) : Agrees none (openersAfter openers token) := by
  have free := agrees.absorbs_of_none
  cases agrees with
  | outside plain =>
    cases role : token.role with
    | opener =>
      rw [openersAfter_of_not_absorbs role free]
      refine .outside fun opener member => ?_
      rcases List.mem_cons.mp member with rfl | member
      · exact isQuoteLike_of_isOrdinary ordinary
      · exact plain opener member
    | closer =>
      cases own : closes openers token with
      | true =>
        rw [openersAfter_of_closes role own]
        exact .outside fun opener member => plain opener (List.mem_of_mem_tail member)
      | false =>
        rw [openersAfter_of_not_closes role own]
        exact .outside plain
    | plain =>
      rw [openersAfter, role]
      exact .outside plain

theorem ordinary_of_some (agrees : Agrees (some entered) openers)
    (ordinary : isOrdinary token.category = true) : openersAfter openers token = openers := by
  cases role : token.role with
  | opener => exact openersAfter_of_absorbs role agrees.absorbs_of_some
  | closer => exact openersAfter_of_not_closes role (agrees.not_closes_of_isOrdinary ordinary)
  | plain => rw [openersAfter, role]

variable {s : State}

/-- A lexeme that closes no enclosure leaves a scan where it is, inside one. -/
theorem withinAfter_of_some (inside : s.within = some entered) {category : Category}
    (other : category ≠ entered.enclosure.closer) (text : List Char) :
    s.withinAfter (.lexeme category text) = some entered := by
  simp only [State.withinAfter, inside, if_neg other]

/-- The closing text of a block comment closes nothing where no block comment is to be closed. -/
theorem foreignClosing {within : Option Entered} (agrees : Agrees within openers)
    (elsewhere : within.map Entered.enclosure ≠ some .blockComment)
    (same : token.category = .closeBlockComment) : openersAfter openers token = openers := by
  have role : token.role = .closer := by rw [Token.role, same]; rfl
  have foreign := mt (agrees.closes_iff (e := .blockComment) same).mp elsewhere
  exact openersAfter_of_not_closes role (Bool.eq_false_iff.mpr foreign)

/-- A lexeme changes the enclosure of a scan as its token changes the open scopes. -/
theorem lexeme {category : Category} {text : List Char} (agrees : Agrees s.within openers)
    (cut : Cut (s.within.map Entered.enclosure) s.ahead (.lexeme category text)) :
    Agrees (s.withinAfter (.lexeme category text))
      (openersAfter openers ⟨category, s.offset, text.length⟩) := by
  cases hwithin : s.within with
  | none =>
    rw [hwithin] at agrees cut
    have after : s.withinAfter (.lexeme category text) =
        (Enclosure.ofOpener? category).map (⟨·, s.offset⟩) := by
      simp only [State.withinAfter, hwithin]
    rw [after]
    cases cut with
    | closing e inside _ => cases inside
    | opening e _ =>
      have role : Token.role ⟨e.opener, s.offset, e.openingText.length⟩ = .opener := e.opener_role
      rw [openersAfter_of_not_absorbs role agrees.absorbs_of_none, e.ofOpener?_opener]
      cases agrees with
      | outside plain => exact .inside plain
    | foreignClosing elsewhere _ =>
      rw [agrees.foreignClosing elsewhere rfl]
      exact agrees
    | ordinary isOrdinary _ _ =>
      rw [ofOpener?_of_isOrdinary isOrdinary]
      exact agrees.ordinary_of_none isOrdinary
  | some entered =>
    rw [hwithin] at agrees cut
    cases cut with
    | closing e inside _ =>
      cases inside
      have left : s.withinAfter (.lexeme entered.enclosure.closer entered.enclosure.closingText) =
          none := by
        simp only [State.withinAfter, hwithin, if_true]
      have role : Token.role ⟨entered.enclosure.closer, s.offset,
          entered.enclosure.closingText.length⟩ = .closer := entered.enclosure.closer_role
      rw [left, openersAfter_of_closes role ((agrees.closes_iff rfl).mpr rfl)]
      cases agrees with
      | inside plain => exact .outside plain
    | opening e _ =>
      have role : Token.role ⟨e.opener, s.offset, e.openingText.length⟩ = .opener := e.opener_role
      rw [openersAfter_of_absorbs role agrees.absorbs_of_some,
        withinAfter_of_some hwithin (e.opener_ne_closer _)]
      exact agrees
    | foreignClosing elsewhere _ =>
      have other : Category.closeBlockComment ≠ entered.enclosure.closer := fun same =>
        elsewhere (congrArg some (Enclosure.closer_injective (f := .blockComment) same.symm))
      rw [agrees.foreignClosing elsewhere rfl, withinAfter_of_some hwithin other]
      exact agrees
    | ordinary isOrdinary _ _ =>
      rw [agrees.ordinary_of_some isOrdinary,
        withinAfter_of_some hwithin (ne_closer_of_isOrdinary isOrdinary _)]
      exact agrees

/-- A step of a scan keeps the agreement. -/
theorem step {piece : Piece} (agrees : Agrees s.within openers) (step : s.step = .piece piece) :
    Agrees (s.advance piece).within ((piece.tokensAt s.offset).foldl openersAfter openers) := by
  cases piece with
  | lexeme category text => exact agrees.lexeme (State.cut_of_step step)
  | blank c => exact agrees
  | stray c => exact agrees
  | danglingEscape => exact agrees

/-- A run of a scan keeps the agreement. -/
theorem run {t : State} {pieces : List Piece} (agrees : Agrees s.within openers)
    (run : Run s pieces t) :
    Agrees t.within ((tokensFrom s.offset pieces).foldl openersAfter openers) := by
  induction run generalizing openers with
  | nil _ => exact agrees
  | @cons s t piece pieces step _ ih =>
    have later := ih (agrees.step step)
    rw [tokensFrom_eq_collect] at later ⊢
    rw [collect, List.foldl_append]
    exact later

end Agrees

/-- At every point that the scan of a source reaches, its enclosure agrees with the openers that
the tokens so far leave open. -/
theorem agrees_of_run {source : List Char} {pieces : List Piece} {s : State}
    (run : Run (State.start source) pieces s) :
    Agrees s.within ((tokensFrom 0 pieces).foldl openersAfter []) :=
  Agrees.run (.outside (by simp)) run

end Agreement

section Closers

variable {source : List Char} {before after : List Token} {token : Token}

theorem isEnd_of_closer (closer : token.role = .closer) : token.isEnd = false := by
  apply decide_eq_false
  intro isEnd
  rw [Token.role, isEnd] at closer
  cases closer

theorem lexemes_split (split : tokens source = before ++ token :: after)
    (notEnd : token.isEnd = false) :
    ∃ later, tokensFrom 0 (scan source).pieces = before ++ token :: later := by
  rcases tokens_cases source with ⟨_, htokens⟩ | ⟨_, htokens⟩
  · exact ⟨after, htokens ▸ split⟩
  · rw [htokens] at split
    rcases List.eq_nil_or_concat after with rfl | ⟨later, last, rfl⟩
    · obtain ⟨_, same⟩ := List.append_inj' split rfl
      cases same
      cases notEnd
    · refine ⟨later, ?_⟩
      have grouped : before ++ token :: (later ++ [last]) = (before ++ token :: later) ++ [last] := by
        simp
      rw [List.concat_eq_append, grouped] at split
      exact (List.append_inj' split rfl).1

/-- The point of a scan at which a token is made. -/
theorem point_of_token (split : tokens source = before ++ token :: after)
    (notEnd : token.isEnd = false) :
    ∃ pieces s text, Run (State.start source) pieces s ∧ tokensFrom 0 pieces = before ∧
      s.step = .piece (.lexeme token.category text) ∧ token.start = s.offset := by
  obtain ⟨later, lexemes⟩ := lexemes_split split notEnd
  obtain ⟨done, category, text, rest, hpieces, hbefore, rfl⟩ := tokensFrom_split lexemes
  obtain ⟨s, t, first, step, _⟩ := scan_split hpieces
  refine ⟨done, s, text, first, hbefore, step, ?_⟩
  rw [first.offset_eq]
  rfl

/-- A token that covers something occurs once. -/
theorem token_once (split : tokens source = before ++ token :: after) (covers : 1 ≤ token.length) :
    token ∉ before ∧ token ∉ after := by
  have ordered := tokens_ordered source
  rw [split, List.pairwise_append] at ordered
  obtain ⟨_, later, across⟩ := ordered
  rw [List.pairwise_cons] at later
  constructor
  · intro member
    have bound := across token member token List.mem_cons_self
    unfold Token.stop at bound
    omega
  · intro member
    have bound := later.1 token member
    unfold Token.stop at bound
    omega

/-- The closer at an index closes a scope: renderings paint it in its own color and note no
mismatch, and it has a mark. -/
def Matched (source : List Char) (tokens : List Token) (index : Nat) (token : Token) : Prop :=
  (∀ policy, (Rendering.ofTokens source tokens policy).spans[2 * index + 1]? =
      some (.painted (policy.colorOf token.category) (token.text source)) ∧
    ∀ scope, Note.mismatch token scope ∉ (Rendering.ofTokens source tokens policy).notes) ∧
  ∀ (σ : Type) [ColorSource σ] (supply : σ), ∃ mark,
    (depthMarks supply tokens).marks[index]? = some (some mark) ∧ mark.opens = false

/-- The closer at an index closes no scope: renderings paint it in the color of a mismatch, which
they note, and it has no mark. -/
def Mismatched (source : List Char) (tokens : List Token) (index : Nat) (token : Token) : Prop :=
  (∀ policy, ∃ scope, (Rendering.ofTokens source tokens policy).spans[2 * index + 1]? =
      some (.painted (policy.mismatchColor scope) (token.text source)) ∧
    Note.mismatch token scope ∈ (Rendering.ofTokens source tokens policy).notes) ∧
  ∀ (σ : Type) [ColorSource σ] (supply : σ), (depthMarks supply tokens).marks[index]? = some none

/-- Renderings and marks find a closer of a source matched when it closes the innermost scope of the
tokens before it, and mismatched otherwise. -/
theorem matched_cases (split : tokens source = before ++ token :: after)
    (closer : token.role = .closer) :
    if closes (before.foldl openersAfter []) token then
      Matched source (tokens source) before.length token
    else Mismatched source (tokens source) before.length token := by
  obtain ⟨later, lexemes⟩ := lexemes_split split (isEnd_of_closer closer)
  have proper : ∀ other ∈ before ++ [token], other.isEnd = false := by
    intro other member
    refine lexeme_isEnd source other ?_
    rw [lexemes, ← List.singleton_append, ← List.append_assoc]
    exact List.mem_append_left later member
  have covers := (lexeme_not_endOfText source token (by rw [lexemes]; simp)).1
  have painted : ∀ policy, (Rendering.ofTokens source (before ++ token :: after) policy).spans[
      2 * before.length + 1]? = some (.painted
        (if closes (before.foldl openersAfter []) token then policy.colorOf token.category
          else policy.mismatchColor (innermost (before.foldl openersAfter [])))
        (token.text source)) := fun policy =>
    Rendering.closer_span source policy closer proper
  have noted : ∀ policy scope, Note.mismatch token scope ∈
      (Rendering.ofTokens source (before ++ token :: after) policy).notes ↔
      closes (before.foldl openersAfter []) token = false ∧
        scope = innermost (before.foldl openersAfter []) := fun policy =>
    Rendering.mismatch_iff source policy closer proper (token_once split covers)
  have marked := fun (σ : Type) [ColorSource σ] (supply : σ) =>
    closer_mark supply before after closer
  rw [split]
  cases own : closes (before.foldl openersAfter []) token with
  | true =>
    rw [own] at painted noted marked
    refine ⟨fun policy => ⟨painted policy, fun scope mismatch => ?_⟩, fun σ _ => marked σ⟩
    cases ((noted policy scope).mp mismatch).1
  | false =>
    rw [own] at painted noted marked
    exact ⟨fun policy => ⟨_, painted policy, (noted policy _).mpr ⟨rfl, rfl⟩⟩, fun σ _ => marked σ⟩

end Closers

section Points

/-- An opener of an enclosure and the innermost scope of a tracker that follows the scan. -/
theorem Agrees.opener_iff {within : Option Entered} {tracker : Tracker}
    (agrees : Agrees within tracker.openers) (opener : Token) :
    within.map Entered.opener = some opener ↔
      tracker.inQuote = true ∧ tracker.top?.map Scope.opener = some opener := by
  have top : tracker.top?.map Scope.opener = tracker.openers.head? := List.head?_map.symm
  rw [tracker.inQuote_eq, top]
  generalize tracker.openers = openers at agrees
  cases within with
  | none => simp [agrees.absorbs_of_none]
  | some entered =>
    rw [agrees.absorbs_of_some]
    cases agrees with
    | inside _ => simp

/-- Only the closing text of the enclosure that a scan is in makes the closer of a quotation. -/
theorem Cut.closer_inside {within : Option Enclosure} {ahead text : List Char} {e : Enclosure}
    (cut : Cut within ahead (.lexeme e.closer text)) (quotation : e ≠ .blockComment) :
    within = some e := by
  generalize same : e.closer = category at cut
  cases cut with
  | closing f inside _ => rw [inside, Enclosure.closer_injective same]
  | opening f _ => exact absurd same.symm (f.opener_ne_closer e)
  | foreignClosing _ _ =>
    exact absurd (Enclosure.closer_injective (f := .blockComment) same) quotation
  | ordinary isOrdinary _ _ => exact absurd same.symm (ne_closer_of_isOrdinary isOrdinary e)

variable {source : List Char} {pieces : List Piece} {s : State}

theorem tokens_begin (run : Run (State.start source) pieces s) :
    tokensFrom 0 pieces <+: tokens source := by
  have later : (scan source).pieces = pieces ++ s.scan.pieces := congrArg Scan.pieces run.scan_eq
  rw [tokens, later, tokensFrom_append, List.append_assoc]
  exact List.prefix_append _ _

/-- A tracker that is given the tokens up to a point of a scan. -/
theorem replay_of_run (run : Run (State.start source) pieces s) (colors : Nat → Rgb) :
    ∃ tracker : Tracker, Tracker.replay colors {} (tokensFrom 0 pieces) = .ok tracker ∧
      ∀ opener, s.within.map Entered.opener = some opener ↔
        tracker.inQuote = true ∧ tracker.top?.map Scope.opener = some opener := by
  obtain ⟨tracker, hreplay, hopeners⟩ := Tracker.replay_spec colors {} (tokensFrom 0 pieces)
  have agrees := agrees_of_run run
  refine ⟨tracker, hreplay, Agrees.opener_iff ?_⟩
  rw [hopeners]
  exact agrees

variable {before after : List Token} {token : Token}

/-- The closer of an enclosure is matched exactly where the scan was in that enclosure. -/
theorem closer_cases {e : Enclosure} (split : tokens source = before ++ token :: after)
    (same : token.category = e.closer) :
    ∃ pieces s text, Run (State.start source) pieces s ∧ tokensFrom 0 pieces = before ∧
      s.step = .piece (.lexeme e.closer text) ∧ token.start = s.offset ∧
      if s.within.map Entered.enclosure = some e then
        Matched source (tokens source) before.length token
      else Mismatched source (tokens source) before.length token := by
  have closer : token.role = .closer := by rw [Token.role, same, e.closer_role]
  obtain ⟨pieces, s, text, run, hbefore, step, hstart⟩ :=
    point_of_token split (isEnd_of_closer closer)
  refine ⟨pieces, s, text, run, hbefore, same ▸ step, hstart, ?_⟩
  have agrees := agrees_of_run run
  rw [hbefore] at agrees
  have cases := matched_cases split closer
  simp only [agrees.closes_iff same] at cases
  exact cases

/-- The closers of quotations are matched, as a scan makes them inside such a quotation only. -/
theorem closer_matched {e : Enclosure} (quotation : e ≠ .blockComment)
    (split : tokens source = before ++ token :: after) (same : token.category = e.closer) :
    Matched source (tokens source) before.length token := by
  obtain ⟨_, s, text, _, _, step, _, matched⟩ := closer_cases split same
  rw [if_pos ((State.cut_of_step step).closer_inside quotation)] at matched
  exact matched

end Points

section Ends

/-- The enclosure that a source ends in. -/
def Ending.within : Ending → Option Entered
  | unterminated entered => some entered
  | _ => none

variable {source : List Char}

theorem Complaint.not_isUnterminated_of_isSkip {complaint : Complaint}
    (skip : complaint.isSkip = true) : complaint.isUnterminated = false := by
  cases complaint <;> first | rfl | cases skip

theorem unterminated_message (e : Enclosure) :
    Complaint.message (.unterminated e) = if e.opener = .openBlockComment then
      "unterminated block comment".toList else "unterminated quote".toList := by
  cases e <;> rfl

theorem Ending.mem_findings_iff {ending : Ending} {length : Nat} {finding : Finding} :
    finding ∈ ending.findings length ∧ finding.complaint.isUnterminated = true ↔
      ∃ entered, ending.within = some entered ∧
        finding = ⟨.unterminated entered.enclosure, entered.start, length - entered.start⟩ := by
  cases ending with
  | complete => simp [findings, within]
  | nul offset =>
    simp only [findings, within, List.mem_singleton]
    constructor
    · rintro ⟨rfl, kind⟩
      cases kind
    · rintro ⟨_, none, _⟩
      cases none
  | unterminated entered =>
    simp only [findings, within, List.mem_singleton, Option.some.injEq, exists_eq_left']
    constructor
    · exact And.left
    · rintro rfl
      exact ⟨rfl, rfl⟩

/-- The only diagnostic about an enclosure is about the one that the source ends in. -/
theorem unterminated_iff (d : Diagnostic) :
    d ∈ (tokenize source).diagnostics ∧ d.isUnterminated = true ↔
      ∃ entered, (scan source).ending.within = some entered ∧
        d = Finding.diagnostic source
          ⟨.unterminated entered.enclosure, entered.start, source.length - entered.start⟩ := by
  rw [tokenize_diagnostics, List.mem_map]
  constructor
  · rintro ⟨⟨finding, member, rfl⟩, kind⟩
    rw [Finding.diagnostic_isUnterminated] at kind
    rcases List.mem_append.mp member with skipped | last
    · rw [Complaint.not_isUnterminated_of_isSkip (findingsFrom_isSkip skipped)] at kind
      cases kind
    · obtain ⟨entered, ends, rfl⟩ := Ending.mem_findings_iff.mp ⟨last, kind⟩
      exact ⟨entered, ends, rfl⟩
  · rintro ⟨entered, ends, rfl⟩
    obtain ⟨member, kind⟩ := Ending.mem_findings_iff.mpr ⟨entered, ends, rfl⟩
    exact ⟨⟨_, List.mem_append_right _ member, rfl⟩, Finding.diagnostic_isUnterminated source _⟩

/-- Where a scan ends and not at a NUL character, it is in the enclosure that the source ends in. -/
theorem State.within_of_ending {s : State} {ending : Ending} (stops : s.step = .ending ending)
    (notNul : ¬ ∃ offset, ending = .nul offset) : s.within = ending.within := by
  rcases ending_cases stops with ⟨rfl, _, within⟩ | ⟨entered, rfl, _, within⟩ | ⟨rfl, _⟩
  · exact within
  · exact within
  · exact absurd ⟨_, rfl⟩ notNul

/-- Unless a NUL character stopped the scan, all tokens of a source leave the enclosure open that
the source ends in. -/
theorem agrees_at_end (notNul : ¬ ∃ offset, (scan source).ending = .nul offset) :
    Agrees (scan source).ending.within ((tokens source).foldl openersAfter []) := by
  obtain ⟨t, run, stops, _⟩ := scan_spec source
  have agrees := agrees_of_run run
  rw [State.within_of_ending stops notNul] at agrees
  rcases tokens_cases source with ⟨nul, _⟩ | ⟨_, htokens⟩
  · exact absurd nul notNul
  · rw [htokens, List.foldl_append]
    exact agrees

/-- The opener of an enclosure that a source ends in is among the tokens. -/
theorem opener_mem_tokensFrom {entered : Entered}
    (ends : (scan source).ending.within = some entered) :
    entered.opener ∈ tokensFrom 0 (scan source).pieces := by
  have notNul : ¬ ∃ offset, (scan source).ending = .nul offset := by
    rintro ⟨offset, nul⟩
    rw [nul] at ends
    cases ends
  obtain ⟨t, run, stops, _⟩ := scan_spec source
  have agrees := agrees_of_run run
  rw [State.within_of_ending stops notNul, ends] at agrees
  rcases mem_of_mem_foldl_openersAfter agrees.opener_mem with none | member
  · cases none
  · exact member

/-- An enclosure that a source ends in begins in that source. -/
theorem start_le_length {entered : Entered} (ends : (scan source).ending.within = some entered) :
    entered.start ≤ source.length := by
  obtain ⟨t, _, _, whole, _⟩ := scan_spec source
  have bounds := tokensFrom_bounds (opener_mem_tokensFrom ends)
  have total := congrArg List.length whole
  rw [List.length_append] at total
  simp only [Token.stop, Entered.opener] at bounds
  omega

/-- All tokens of a source leave a tracker with a quote-like scope innermost exactly when there is a
complaint about an enclosure, and the complaint is about that scope. -/
theorem replay_at_end (notNul : ¬ ∃ offset, (scan source).ending = .nul offset)
    (colors : Nat → Rgb) :
    ∃ tracker : Tracker, Tracker.replay colors {} (tokens source) = .ok tracker ∧
      ((tokenize source).diagnostics.any Diagnostic.isUnterminated = true ↔
        tracker.inQuote = true) ∧
      ∀ d ∈ (tokenize source).diagnostics, d.isUnterminated = true →
        ∃ scope, tracker.top? = some scope ∧ d.position.offset = scope.opener.start ∧
          d.length = source.length - scope.opener.start ∧
          d.message = (if scope.opener.category = .openBlockComment then
            "unterminated block comment".toList else "unterminated quote".toList) := by
  obtain ⟨tracker, hreplay, hopeners⟩ := Tracker.replay_spec colors {} (tokens source)
  have agrees : Agrees (scan source).ending.within tracker.openers := by
    rw [hopeners]
    exact agrees_at_end notNul
  refine ⟨tracker, hreplay, ?_, ?_⟩
  · rw [tracker.inQuote_eq, agrees.absorbs_iff, List.any_eq_true, Option.isSome_iff_exists]
    constructor
    · rintro ⟨d, reported⟩
      obtain ⟨entered, ends, _⟩ := (unterminated_iff d).mp reported
      exact ⟨entered, ends⟩
    · rintro ⟨entered, ends⟩
      exact ⟨_, (unterminated_iff _).mpr ⟨entered, ends, rfl⟩⟩
  · intro d member kind
    obtain ⟨entered, ends, rfl⟩ := (unterminated_iff d).mp ⟨member, kind⟩
    rw [ends] at agrees
    obtain ⟨_, top⟩ := (agrees.opener_iff entered.opener).mp rfl
    obtain ⟨scope, hscope, same⟩ := Option.map_eq_some_iff.mp top
    refine ⟨scope, hscope, ?_, ?_, ?_⟩
    · rw [same]
      rfl
    · have bound := start_le_length ends
      rw [same]
      show ((source.length - entered.start : Nat) : Int) = source.length - (entered.start : Int)
      omega
    · rw [same]
      exact unterminated_message entered.enclosure

end Ends

/-- At every point of a scan, its enclosure is the innermost scope that the tokens so far leave
open, if that scope is quote-like. So the closers of quotations always match, the closing text of a
block comment matches inside a block comment only, and an enclosure is reported as unterminated
exactly when all tokens leave a quote-like scope open, which the report is then about. -/
theorem scan_and_scopes_agree (source : List Char) :
    (∀ pieces s, Run (State.start source) pieces s →
      tokensFrom 0 pieces <+: (tokenize source).tokens ∧
      ∀ colors : Nat → Rgb, ∃ tracker : Tracker,
        Tracker.replay colors {} (tokensFrom 0 pieces) = .ok tracker ∧
        ∀ opener, s.within.map Entered.opener = some opener ↔
          tracker.inQuote = true ∧ tracker.top?.map Scope.opener = some opener) ∧
    (∀ before token after, (tokenize source).tokens = before ++ token :: after →
      (token.category ∈ [.closeDoubleQuote, .closeSingleQuote, .closeBacktick] →
        Matched source (tokenize source).tokens before.length token) ∧
      (token.category = .closeBlockComment →
        ∃ pieces s text, Run (State.start source) pieces s ∧ tokensFrom 0 pieces = before ∧
          s.step = .piece (.lexeme .closeBlockComment text) ∧ token.start = s.offset ∧
          if s.within.map Entered.enclosure = some .blockComment then
            Matched source (tokenize source).tokens before.length token
          else Mismatched source (tokenize source).tokens before.length token)) ∧
    ((tokenize source).diagnostics.any Diagnostic.isNul = false →
      ∀ colors : Nat → Rgb, ∃ tracker : Tracker,
        Tracker.replay colors {} (tokenize source).tokens = .ok tracker ∧
        ((tokenize source).diagnostics.any Diagnostic.isUnterminated = true ↔
          tracker.inQuote = true) ∧
        ∀ d ∈ (tokenize source).diagnostics, d.isUnterminated = true →
          ∃ scope, tracker.top? = some scope ∧
            d.position.offset = scope.opener.start ∧
            d.length = source.length - scope.opener.start ∧
            d.message = (if scope.opener.category = .openBlockComment then
              "unterminated block comment".toList else "unterminated quote".toList)) := by
  rw [tokenize_tokens]
  refine ⟨fun pieces s run => ⟨tokens_begin run, replay_of_run run⟩, ?_, ?_⟩
  · intro before token after split
    constructor
    · intro quotation
      have closer : token.category = .closeDoubleQuote ∨ token.category = .closeSingleQuote ∨
          token.category = .closeBacktick := by simpa using quotation
      rcases closer with same | same | same
      · exact closer_matched (e := .doubleQuote) (by decide) split same
      · exact closer_matched (e := .singleQuote) (by decide) split same
      · exact closer_matched (e := .backtick) (by decide) split same
    · exact closer_cases (e := .blockComment) split
  · intro reached
    refine replay_at_end ?_
    rw [← any_isNul_iff, reached]
    exact Bool.false_ne_true

/-- The closing text of a block comment inside a quotation does not end the quotation. -/
theorem scan_and_scopes_agree_quoted_comment :
    Matched "(\"*/\"".toList (tokenize "(\"*/\"".toList).tokens 3 ⟨.closeDoubleQuote, 4, 1⟩ := by
  have split : (tokenize "(\"*/\"".toList).tokens =
      [⟨.openParenthesis, 0, 1⟩, ⟨.openDoubleQuote, 1, 1⟩, ⟨.closeBlockComment, 2, 2⟩] ++
        ⟨.closeDoubleQuote, 4, 1⟩ :: [⟨.endOfText, 5, 0⟩] := by decide +kernel
  obtain ⟨_, closers, _⟩ := scan_and_scopes_agree "(\"*/\"".toList
  exact (closers _ _ _ split).1 (by decide)

end Astra.Lexing
