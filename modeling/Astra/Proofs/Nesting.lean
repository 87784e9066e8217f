import Astra.Paint.Listing
import Astra.Proofs.Coverage

/-!
# Openers of open scopes

Which scopes are open does not depend on their colors. The openers of the open scopes change by a
rule of their own, and whoever drives a tracker follows that rule: a replay of tokens, the marking
of depths, and the rendering of a source.
-/

namespace Astra

/-- Whether the innermost of some openers absorbs further ones. -/
def absorbs (openers : List Token) : Bool := openers.head?.any (·.category.isQuoteLike)

/-- Whether a closer closes the innermost scope of some openers. -/
def closes (openers : List Token) (closer : Token) : Bool :=
  openers.head?.any fun opener => closer.category.opener? = some opener.category

/-- The category of the innermost of some openers. -/
def innermost (openers : List Token) : Option Category := openers.head?.map Token.category

/-- The openers of the open scopes after a token, innermost first. -/
def openersAfter (openers : List Token) (token : Token) : List Token :=
  match token.role with
  | .opener => if absorbs openers then openers else token :: openers
  | .closer => if closes openers token then openers.tail else openers
  | .plain => openers

section OpenersAfter

variable {openers : List Token} {token : Token}

theorem openersAfter_of_absorbs (opener : token.role = .opener) (absorbed : absorbs openers = true) :
    openersAfter openers token = openers := by
  rw [openersAfter, opener]
  exact if_pos absorbed

theorem openersAfter_of_not_absorbs (opener : token.role = .opener)
    (free : absorbs openers = false) : openersAfter openers token = token :: openers := by
  rw [openersAfter, opener]
  exact if_neg (Bool.not_eq_true _ ▸ free)

theorem openersAfter_of_closes (closer : token.role = .closer) (own : closes openers token = true) :
    openersAfter openers token = openers.tail := by
  rw [openersAfter, closer]
  exact if_pos own

theorem openersAfter_of_not_closes (closer : token.role = .closer)
    (foreign : closes openers token = false) : openersAfter openers token = openers := by
  rw [openersAfter, closer]
  exact if_neg (Bool.not_eq_true _ ▸ foreign)

/-- Only tokens that were met are open. -/
theorem mem_of_mem_openersAfter {opener : Token} (member : opener ∈ openersAfter openers token) :
    opener ∈ openers ∨ opener = token := by
  rw [openersAfter] at member
  cases role : token.role with
  | opener =>
    rw [role] at member
    dsimp only at member
    split at member
    · exact .inl member
    · exact (List.mem_cons.mp member).symm
  | closer =>
    rw [role] at member
    dsimp only at member
    split at member
    · exact .inl (List.mem_of_mem_tail member)
    · exact .inl member
  | plain =>
    rw [role] at member
    exact .inl member

theorem mem_of_mem_foldl_openersAfter {opener : Token} {tokens : List Token}
    (member : opener ∈ tokens.foldl openersAfter openers) : opener ∈ openers ∨ opener ∈ tokens := by
  induction tokens generalizing openers with
  | nil => exact .inl member
  | cons token rest ih =>
    rcases ih member with here | later
    · rcases mem_of_mem_openersAfter here with old | rfl
      · exact .inl old
      · exact .inr List.mem_cons_self
    · exact .inr (List.mem_cons_of_mem token later)

end OpenersAfter

theorem opener?_isSome_of_closer {category : Category} (closer : category.role = .closer) :
    ∃ opener, category.opener? = some opener := by
  cases category <;> cases closer <;> exact ⟨_, rfl⟩

namespace Tracker

/-- The openers of the open scopes, innermost first. -/
def openers (t : Tracker) : List Token := t.scopes.map Scope.opener

variable {t after : Tracker} {token : Token} {color : Rgb} {scope : Scope}

theorem inQuote_eq (t : Tracker) : t.inQuote = absorbs t.openers := by
  obtain ⟨scopes⟩ := t
  cases scopes with
  | nil => rfl
  | cons scope rest => rfl

theorem innermost?_eq (t : Tracker) : t.innermost? = innermost t.openers := by
  obtain ⟨scopes⟩ := t
  cases scopes with
  | nil => rfl
  | cons scope rest => rfl

theorem enter?_of_absorbs (absorbed : absorbs t.openers = true) : t.enter? token color = none := by
  rw [enter?, inQuote_eq, if_pos absorbed]

theorem enter?_of_not_absorbs (free : absorbs t.openers = false) :
    t.enter? token color =
      some (⟨token, color, t.depth + 1⟩, ⟨⟨token, color, t.depth + 1⟩ :: t.scopes⟩) := by
  rw [enter?, inQuote_eq, if_neg (Bool.not_eq_true _ ▸ free)]

theorem leave?_of_not_closes (foreign : closes t.openers token = false) : t.leave? token = none := by
  obtain ⟨scopes⟩ := t
  cases scopes with
  | nil => rfl
  | cons scope rest => exact if_neg (of_decide_eq_false foreign)

theorem leave?_of_closes (own : closes t.openers token = true) :
    ∃ scope rest, t.scopes = scope :: rest ∧ t.leave? token = some (scope, ⟨rest⟩) := by
  obtain ⟨scopes⟩ := t
  cases scopes with
  | nil => cases own
  | cons scope rest => exact ⟨scope, rest, rfl, if_pos (of_decide_eq_true own)⟩

/-- The scopes after a token; a scope that it opens gets the color. -/
def pass (t : Tracker) (color : Rgb) (token : Token) : Tracker :=
  match token.role with
  | .opener => (t.enter? token color).elim t Prod.snd
  | .closer => (t.leave? token).elim t Prod.snd
  | .plain => t

theorem pass_openers (t : Tracker) (color : Rgb) (token : Token) :
    (t.pass color token).openers = openersAfter t.openers token := by
  rw [pass, openersAfter]
  cases token.role with
  | opener =>
    cases absorbed : absorbs t.openers with
    | true => rw [enter?_of_absorbs absorbed]; rfl
    | false => rw [enter?_of_not_absorbs absorbed]; rfl
  | closer =>
    cases own : closes t.openers token with
    | false => rw [leave?_of_not_closes own]; rfl
    | true =>
      obtain ⟨scope, rest, hscopes, hleave⟩ := leave?_of_closes own
      have top : t.openers = scope.opener :: rest.map Scope.opener := congrArg _ hscopes
      rw [hleave, top]
      rfl
  | plain => rfl

/-- A token given to a tracker: openers are to open a scope, closers to close one, and others are
passed over. -/
def give (t : Tracker) (color : Rgb) (token : Token) : Except DelimiterFault Tracker :=
  match token.role with
  | .opener => return (← t.enter token color).2
  | .closer => return (← t.leave token).2.1
  | .plain => return t

/-- Tokens given to a tracker in turn, with a color for each. -/
def replay (colors : Nat → Rgb) (t : Tracker) : List Token → Except DelimiterFault Tracker
  | [] => return t
  | token :: rest => do (← t.give (colors 0) token).replay (fun n => colors (n + 1)) rest

theorem isClosedBy_of_closer (closer : token.role = .closer) :
    t.isClosedBy token = .ok (closes t.openers token) := by
  obtain ⟨opener, required⟩ := opener?_isSome_of_closer closer
  have found : Delimiters.standard.requiredOpener token.category = .ok opener := by
    have standard : Delimiters.standard.opener? token.category = some opener := required
    rw [Delimiters.requiredOpener, standard]
  obtain ⟨scopes⟩ := t
  cases scopes with
  | nil => rfl
  | cons scope below =>
    rw [isClosedBy, top?, List.head?_cons]
    dsimp only
    rw [found]
    simp [closes, openers, required, pure, Except.pure, bind, Except.bind]

theorem leave_eq (closer : token.role = .closer) :
    t.leave token = .ok ((t.leave? token).elim (none, t, [.mismatch token t.innermost?])
      fun left => (some left.1, left.2, [])) := by
  rw [leave, isClosedBy_of_closer closer]
  cases own : closes t.openers token with
  | true =>
    obtain ⟨scope, below, _, left⟩ := leave?_of_closes own
    rw [left]
    rfl
  | false =>
    rw [leave?_of_not_closes own]
    rfl

/-- A token is never refused, since its role decides what is done with it. -/
theorem give_eq (t : Tracker) (color : Rgb) (token : Token) :
    t.give color token = .ok (t.pass color token) := by
  rw [give, pass]
  cases role : token.role with
  | opener =>
    rw [enter, if_pos role]
    dsimp only
    cases t.enter? token color with
    | none => rfl
    | some entered => rfl
  | closer =>
    rw [leave_eq role]
    dsimp only
    cases t.leave? token with
    | none => rfl
    | some left => rfl
  | plain => rfl

theorem replay_spec (colors : Nat → Rgb) (t : Tracker) (tokens : List Token) :
    ∃ u, t.replay colors tokens = .ok u ∧ u.openers = tokens.foldl openersAfter t.openers := by
  induction tokens generalizing colors t with
  | nil => exact ⟨t, rfl, rfl⟩
  | cons token rest ih =>
    obtain ⟨u, hreplay, hopeners⟩ := ih (fun n => colors (n + 1)) (t.pass (colors 0) token)
    refine ⟨u, ?_, ?_⟩
    · rw [replay, give_eq]
      exact hreplay
    · rw [hopeners, pass_openers]
      rfl

end Tracker

section Marking

variable {σ : Type} [ColorSource σ]

/-- What marking one token gives, and where it leaves the scopes and the supply of colors. -/
structure MarkStep (σ : Type) where
  mark : Option Mark
  notes : List Note
  tracker : Tracker
  supply : σ

def markStep (t : Tracker) (supply : σ) (token : Token) : MarkStep σ :=
  match token.role with
  | .opener =>
    if absorbs t.openers then ⟨none, [], t, supply⟩
    else
      let drawn := ColorSource.next supply
      ⟨some ⟨t.depth + 1, drawn.1, true⟩, [], t.pass drawn.1 token, drawn.2⟩
  | .closer =>
    match t.leave? token with
    | some (scope, after) => ⟨some ⟨scope.depth, scope.color, false⟩, [], after, supply⟩
    | none => ⟨none, [.mismatch token t.innermost?], t, supply⟩
  | .plain => ⟨none, [], t, supply⟩

theorem markFrom_cons (t : Tracker) (supply : σ) (token : Token) (rest : List Token) :
    markFrom t supply (token :: rest) =
      let step := markStep t supply token
      let later := markFrom step.tracker step.supply rest
      ⟨step.mark :: later.marks, step.notes ++ later.notes, later.supply⟩ := by
  rw [markStep]
  rw [markFrom]
  cases role : token.role with
  | opener =>
    dsimp only
    rw [Tracker.inQuote_eq]
    cases absorbed : absorbs t.openers with
    | true => rfl
    | false =>
      have entered : t.enter? token (ColorSource.next supply).1 = some (_, _) :=
        Tracker.enter?_of_not_absorbs absorbed
      simp only [Tracker.pass, role, entered]
      rfl
  | closer =>
    dsimp only
    cases t.leave? token with
    | none => rfl
    | some left => rfl
  | plain => rfl

theorem markStep_openers (t : Tracker) (supply : σ) (token : Token) :
    (markStep t supply token).tracker.openers = openersAfter t.openers token := by
  rw [markStep]
  cases role : token.role with
  | opener =>
    cases absorbed : absorbs t.openers with
    | true => simp [openersAfter, role, absorbed]
    | false => exact t.pass_openers _ token
  | closer =>
    have passed := t.pass_openers ⟨0, 0, 0⟩ token
    rw [Tracker.pass, role] at passed
    dsimp only at passed ⊢
    cases left : t.leave? token with
    | none => rw [left] at passed; exact passed
    | some scope => rw [left] at passed; exact passed
  | plain => simp [openersAfter, role]

/-- The scopes and the supply after marking some tokens. -/
def markAfter (t : Tracker) (supply : σ) : List Token → Tracker × σ
  | [] => (t, supply)
  | token :: rest =>
    let step := markStep t supply token
    markAfter step.tracker step.supply rest

theorem markAfter_openers (t : Tracker) (supply : σ) (tokens : List Token) :
    (markAfter t supply tokens).1.openers = tokens.foldl openersAfter t.openers := by
  induction tokens generalizing t supply with
  | nil => rfl
  | cons token rest ih => rw [markAfter, ih, markStep_openers, List.foldl_cons]

/-- The mark of a token depends on the tokens before it only. -/
theorem markFrom_getElem? (t : Tracker) (supply : σ) (before : List Token) (token : Token)
    (after : List Token) :
    (markFrom t supply (before ++ token :: after)).marks[before.length]? =
      some (markStep (markAfter t supply before).1 (markAfter t supply before).2 token).mark := by
  induction before generalizing t supply with
  | nil =>
    rw [List.nil_append, markFrom_cons]
    rfl
  | cons first rest ih =>
    rw [List.cons_append, markFrom_cons, markAfter]
    exact ih _ _

theorem markStep_of_closes {t : Tracker} (supply : σ) {token : Token}
    (closer : token.role = .closer) (own : closes t.openers token = true) :
    ∃ mark, (markStep t supply token).mark = some mark ∧ mark.opens = false := by
  obtain ⟨scope, rest, _, hleave⟩ := Tracker.leave?_of_closes own
  refine ⟨⟨scope.depth, scope.color, false⟩, ?_, rfl⟩
  rw [markStep, closer]
  dsimp only
  rw [hleave]

theorem markStep_of_not_closes {t : Tracker} (supply : σ) {token : Token}
    (closer : token.role = .closer) (foreign : closes t.openers token = false) :
    (markStep t supply token).mark = none := by
  rw [markStep, closer]
  dsimp only
  rw [Tracker.leave?_of_not_closes foreign]

/-- A closer has a mark exactly when it closes the innermost scope of the tokens before it. -/
theorem closer_mark (supply : σ) (before : List Token) {token : Token} (after : List Token)
    (closer : token.role = .closer) :
    if closes (before.foldl openersAfter []) token then
      ∃ mark, (depthMarks supply (before ++ token :: after)).marks[before.length]? =
        some (some mark) ∧ mark.opens = false
    else (depthMarks supply (before ++ token :: after)).marks[before.length]? = some none := by
  have openers : (markAfter {} supply before).1.openers = before.foldl openersAfter [] :=
    markAfter_openers {} supply before
  rw [depthMarks, markFrom_getElem?, ← openers]
  cases own : closes (markAfter {} supply before).1.openers token with
  | true =>
    obtain ⟨mark, found, opens⟩ := markStep_of_closes (markAfter {} supply before).2 closer own
    exact ⟨mark, congrArg some found, opens⟩
  | false => exact congrArg some (markStep_of_not_closes _ closer own)

end Marking

namespace Rendering

variable (source : List Char) (policy : Policy)

theorem resolve_openers (t : Tracker) (token : Token) :
    (resolve policy t token).2.1.openers = openersAfter t.openers token := by
  rw [← t.pass_openers (policy.colorOf token.category) token]
  rw [resolve, Tracker.pass]
  cases token.role with
  | opener =>
    dsimp only
    cases t.enter? token (policy.colorOf token.category) with
    | none => rfl
    | some entered => rfl
  | closer =>
    dsimp only
    cases t.leave? token with
    | none => rfl
    | some left => rfl
  | plain => rfl

/-- A closer keeps its own color if it closes the innermost scope. Otherwise the color is that of a
mismatch, which is also noted. -/
theorem resolve_closer (t : Tracker) {token : Token} (closer : token.role = .closer) :
    (resolve policy t token).1 = (if closes t.openers token then policy.colorOf token.category
      else policy.mismatchColor (innermost t.openers)) ∧
    (resolve policy t token).2.2 = (if closes t.openers token then []
      else [.mismatch token (innermost t.openers)]) := by
  rw [resolve, closer, ← t.innermost?_eq]
  dsimp only
  cases own : closes t.openers token with
  | true =>
    obtain ⟨scope, rest, _, hleave⟩ := Tracker.leave?_of_closes own
    rw [hleave]
    exact ⟨rfl, rfl⟩
  | false =>
    rw [Tracker.leave?_of_not_closes own]
    exact ⟨rfl, rfl⟩

/-- A mismatch is noted exactly for a closer that does not close the innermost scope. -/
theorem resolve_mismatch_iff (t : Tracker) {token : Token} (closer : token.role = .closer)
    (scope : Option Category) :
    Note.mismatch token scope ∈ (resolve policy t token).2.2 ↔
      closes t.openers token = false ∧ scope = innermost t.openers := by
  rw [(resolve_closer policy t closer).2]
  cases closes t.openers token <;> simp

/-- The color in which a token stands in a rendering is decided by the scopes that the tokens before
it leave open. -/
theorem token_span {position : Int} {t : Tracker} {before after : List Token} {token : Token}
    (lexemes : ∀ other ∈ before ++ [token], other.isEnd = false) :
    ∃ u : Tracker, u.openers = before.foldl openersAfter t.openers ∧
      (ofTokensFrom source policy position t (before ++ token :: after)).spans[
        2 * before.length + 1]? = some (.painted (resolve policy u token).1 (token.text source)) := by
  induction before generalizing position t with
  | nil =>
    rw [List.nil_append, ofTokensFrom_token source policy (lexemes token (by simp))]
    exact ⟨t, rfl, rfl⟩
  | cons first rest ih =>
    have later := @ih first.stop (resolve policy t first).2.1
      (fun next member => lexemes next (List.mem_cons_of_mem first member))
    rw [resolve_openers] at later
    rw [List.cons_append, ofTokensFrom_token source policy (lexemes first (by simp))]
    exact later

/-- The color in which a closer stands in a rendering. -/
theorem closer_span {position : Int} {t : Tracker} {before after : List Token} {token : Token}
    (closer : token.role = .closer) (lexemes : ∀ other ∈ before ++ [token], other.isEnd = false) :
    (ofTokensFrom source policy position t (before ++ token :: after)).spans[2 * before.length + 1]? =
      some (.painted
        (if closes (before.foldl openersAfter t.openers) token then policy.colorOf token.category
          else policy.mismatchColor (innermost (before.foldl openersAfter t.openers)))
        (token.text source)) := by
  obtain ⟨u, openers, span⟩ := token_span source policy lexemes
  rw [span, (resolve_closer policy u closer).1, openers]

/-- A mismatch is noted when a token is resolved, never for an overlap. -/
theorem mismatch_mem_cons {first : Token} (notEnd : first.isEnd = false) {position : Int}
    {t : Tracker} {rest : List Token} {token : Token} {scope : Option Category} :
    Note.mismatch token scope ∈ (ofTokensFrom source policy position t (first :: rest)).notes ↔
      Note.mismatch token scope ∈ (resolve policy t first).2.2 ∨
      Note.mismatch token scope ∈
        (ofTokensFrom source policy first.stop (resolve policy t first).2.1 rest).notes := by
  have quiet : Note.mismatch token scope ∉ overlapNotes position first := by
    rw [overlapNotes]
    split <;> simp
  rw [ofTokensFrom_token source policy notEnd]
  simp [quiet]

theorem mem_of_mismatch {position : Int} {t : Tracker} {tokens : List Token} {token : Token}
    {scope : Option Category}
    (noted : Note.mismatch token scope ∈ (ofTokensFrom source policy position t tokens).notes) :
    token ∈ tokens := by
  induction tokens generalizing position t with
  | nil => cases noted
  | cons first rest ih =>
    cases isEnd : first.isEnd with
    | true =>
      rw [ofTokensFrom_end source policy isEnd, overlapNotes] at noted
      split at noted <;> simp at noted
    | false =>
      rcases (mismatch_mem_cons source policy isEnd).mp noted with here | later
      · obtain ⟨_, same⟩ := resolve_notes policy t first _ here
        cases same
        exact List.mem_cons_self
      · exact List.mem_cons_of_mem first (ih later)

/-- A closer that occurs once is noted as a mismatch exactly when it does not close the innermost
scope of the tokens before it. -/
theorem mismatch_iff {position : Int} {t : Tracker} {before after : List Token} {token : Token}
    (closer : token.role = .closer) (lexemes : ∀ other ∈ before ++ [token], other.isEnd = false)
    (single : token ∉ before ∧ token ∉ after) (scope : Option Category) :
    Note.mismatch token scope ∈
      (ofTokensFrom source policy position t (before ++ token :: after)).notes ↔
      closes (before.foldl openersAfter t.openers) token = false ∧
        scope = innermost (before.foldl openersAfter t.openers) := by
  induction before generalizing position t with
  | nil =>
    have notEnd := lexemes token (by simp)
    have elsewhere : Note.mismatch token scope ∉
        (ofTokensFrom source policy token.stop (resolve policy t token).2.1 after).notes :=
      fun later => single.2 (mem_of_mismatch source policy later)
    rw [List.nil_append, List.foldl_nil, ← resolve_mismatch_iff policy t closer,
      mismatch_mem_cons source policy notEnd, or_iff_left elsewhere]
  | cons first rest ih =>
    have notEnd := lexemes first (by simp)
    have later := @ih first.stop (resolve policy t first).2.1
      (fun next member => lexemes next (List.mem_cons_of_mem first member))
      ⟨fun member => single.1 (List.mem_cons_of_mem first member), single.2⟩
    have elsewhere : Note.mismatch token scope ∉ (resolve policy t first).2.2 := by
      intro here
      obtain ⟨_, same⟩ := resolve_notes policy t first _ here
      exact single.1 ((Note.mismatch.inj same).1 ▸ List.mem_cons_self)
    rw [resolve_openers] at later
    rw [List.cons_append, mismatch_mem_cons source policy notEnd, or_iff_right elsewhere]
    exact later

end Rendering

end Astra
