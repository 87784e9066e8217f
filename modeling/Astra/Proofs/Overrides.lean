import Astra.Paint.Listing
import Astra.Proofs.Decisions

/-!
# What color overrides change

Overrides replace base colors. A base color is also kept with the scope that its token opens, but no
decision about scopes looks at it, so that two renderings of the same tokens go through the same
scopes whatever their policies are. Where a token does not stand in its base color, the tint of the
innermost scope or the color of mismatches takes its place, and overrides do not reach those.
-/

namespace Astra

/-- A token that follows on open scopes and stands in its base color there: it opens a scope, closes
one, or is plain and not in a quote-like scope. -/
inductive Tracker.Shows (t : Tracker) (token : Token) : Prop where
  | opened {color : Rgb} {scope : Scope} {after : Tracker} (opener : token.role = .opener)
      (entered : t.enter? token color = some (scope, after)) : Shows t token
  | closed {scope : Scope} {after : Tracker} (closer : token.role = .closer)
      (left : t.leave? token = some (scope, after)) : Shows t token
  | plain (plain : token.role = .plain)
      (free : ∀ category, t.innermost? = some category → category.isQuoteLike = false) :
      Shows t token

namespace Tracker

variable {t u : Tracker} {token : Token}

theorem inQuote_eq_false_iff :
    t.inQuote = false ↔ ∀ category, t.innermost? = some category → category.isQuoteLike = false := by
  rw [inQuote]
  cases t.innermost? with
  | none => simp
  | some category => simp

theorem shows_of_opener (opener : token.role = .opener) :
    t.Shows token ↔ absorbs t.openers = false := by
  constructor
  · intro shown
    cases shown with
    | opened _ entered =>
      by_contra absorbed
      rw [enter?_of_absorbs (Bool.not_eq_false _ ▸ absorbed)] at entered
      cases entered
    | closed closer _ => cases opener.symm.trans closer
    | plain plain _ => cases opener.symm.trans plain
  · intro free
    have entered : t.enter? token Palette.magenta = some (_, _) := enter?_of_not_absorbs free
    exact .opened opener entered

theorem shows_of_closer (closer : token.role = .closer) :
    t.Shows token ↔ closes t.openers token = true := by
  constructor
  · intro shown
    cases shown with
    | opened opener _ => cases closer.symm.trans opener
    | closed _ left =>
      by_contra foreign
      rw [leave?_of_not_closes (Bool.not_eq_true _ ▸ foreign)] at left
      cases left
    | plain plain _ => cases closer.symm.trans plain
  · intro own
    obtain ⟨scope, rest, _, left⟩ := leave?_of_closes own
    exact .closed closer left

theorem shows_of_plain (plain : token.role = .plain) :
    t.Shows token ↔ absorbs t.openers = false := by
  rw [← inQuote_eq, inQuote_eq_false_iff]
  constructor
  · intro shown
    cases shown with
    | opened opener _ => cases plain.symm.trans opener
    | closed closer _ => cases plain.symm.trans closer
    | plain _ free => exact free
  · intro free
    exact .plain plain free

/-- Whether a base color shows is decided by the openers of the open scopes, not by their colors. -/
theorem shows_congr (same : t.openers = u.openers) : t.Shows token ↔ u.Shows token := by
  cases role : token.role with
  | opener => rw [shows_of_opener role, shows_of_opener role, same]
  | closer => rw [shows_of_closer role, shows_of_closer role, same]
  | plain => rw [shows_of_plain role, shows_of_plain role, same]

end Tracker

section Colors

/-- The scopes that have a tint are the quote-like ones. -/
theorem Palette.contentTint?_isSome (category : Category) :
    (Palette.contentTint? category).isSome = category.isQuoteLike := by
  cases category <;> rfl

variable (policy : Policy) (overrides : Overrides)

theorem Policy.override_colorOf (category : Category) :
    (policy.override overrides).colorOf category =
      (overrides.lookup category).getD (policy.colorOf category) := by
  change ((overrides.lookup category).or (policy.base category)).getD policy.fallback = _
  cases overrides.lookup category with
  | none => rfl
  | some color => rfl

/-- Outside quote-like scopes content keeps its own color. -/
theorem Policy.contentColor_of_not_absorbs (tints : policy.contentTint = Palette.contentTint?)
    {openers : List Token} (free : absorbs openers = false) (default : Rgb) :
    policy.contentColor (innermost openers) default = default := by
  cases openers with
  | nil => rfl
  | cons opener rest =>
    have untinted : (Palette.contentTint? opener.category).isSome = false :=
      (Palette.contentTint?_isSome _).trans free
    have nothing := Option.not_isSome_iff_eq_none.mp (Bool.not_eq_true _ ▸ untinted)
    change (policy.contentTint opener.category).getD default = default
    rw [tints, nothing]
    rfl

/-- In a quote-like scope the tint of the scope is all that counts. -/
theorem Policy.contentColor_of_absorbs (tints : policy.contentTint = Palette.contentTint?)
    {openers : List Token} (absorbed : absorbs openers = true) (default other : Rgb) :
    policy.contentColor (innermost openers) default =
      Policy.standard.contentColor (innermost openers) other := by
  cases openers with
  | nil => cases absorbed
  | cons opener rest =>
    have tinted : (Palette.contentTint? opener.category).isSome = true :=
      (Palette.contentTint?_isSome _).trans absorbed
    obtain ⟨tint, found⟩ := Option.isSome_iff_exists.mp tinted
    change (policy.contentTint opener.category).getD default =
      (Palette.contentTint? opener.category).getD other
    rw [tints, found]
    rfl

end Colors

/-- The text of a span, and whether it has a color. -/
def Span.bare : Span → Bool × List Char
  | raw text => (false, text)
  | painted _ text => (true, text)

namespace Rendering

section Resolving

variable {t u : Tracker} {token : Token}

theorem resolve_opener (policy : Policy) (opener : token.role = .opener) :
    (resolve policy t token).1 = (if absorbs t.openers then
      policy.contentColor (innermost t.openers) (policy.colorOf token.category)
      else policy.colorOf token.category) ∧
    (resolve policy t token).2.2 = [] := by
  rw [resolve, opener, ← t.innermost?_eq]
  dsimp only
  cases absorbed : absorbs t.openers with
  | true =>
    rw [Tracker.enter?_of_absorbs absorbed]
    exact ⟨rfl, rfl⟩
  | false =>
    have entered : t.enter? token (policy.colorOf token.category) = some (_, _) :=
      Tracker.enter?_of_not_absorbs absorbed
    rw [entered]
    exact ⟨rfl, rfl⟩

theorem resolve_plain (policy : Policy) (plain : token.role = .plain) :
    (resolve policy t token).1 =
      policy.contentColor (innermost t.openers) (policy.colorOf token.category) ∧
    (resolve policy t token).2.2 = [] := by
  rw [resolve, plain, ← t.innermost?_eq]
  exact ⟨rfl, rfl⟩

/-- What is noted about a token does not depend on the policy or on the colors of scopes. -/
theorem resolve_notes_eq (p q : Policy) (same : t.openers = u.openers) :
    (resolve p t token).2.2 = (resolve q u token).2.2 := by
  cases role : token.role with
  | opener => rw [(resolve_opener p role).2, (resolve_opener q role).2]
  | closer => rw [(resolve_closer p t role).2, (resolve_closer q u role).2, same]
  | plain => rw [(resolve_plain p role).2, (resolve_plain q role).2]

/-- A token whose base color shows is painted in it. -/
theorem resolve_of_shows (policy : Policy) (tints : policy.contentTint = Palette.contentTint?)
    (shown : t.Shows token) : (resolve policy t token).1 = policy.colorOf token.category := by
  cases role : token.role with
  | opener =>
    have free := (Tracker.shows_of_opener role).mp shown
    rw [(resolve_opener policy role).1, free]
    rfl
  | closer =>
    have own := (Tracker.shows_of_closer role).mp shown
    rw [(resolve_closer policy t role).1, own]
    rfl
  | plain =>
    have free := (Tracker.shows_of_plain role).mp shown
    rw [(resolve_plain policy role).1, policy.contentColor_of_not_absorbs tints free]

/-- A token whose base color does not show is painted alike under all overrides. -/
theorem resolve_of_not_shows (overrides : Overrides) (same : t.openers = u.openers)
    (hidden : ¬ t.Shows token) :
    (resolve (Policy.standard.override overrides) u token).1 = (resolve .standard t token).1 := by
  cases role : token.role with
  | opener =>
    rw [Tracker.shows_of_opener role, Bool.not_eq_false] at hidden
    rw [(resolve_opener _ role).1, (resolve_opener _ role).1, ← same, hidden]
    exact Policy.contentColor_of_absorbs _ rfl hidden _ _
  | closer =>
    rw [Tracker.shows_of_closer role, Bool.not_eq_true] at hidden
    rw [(resolve_closer _ u role).1, (resolve_closer _ t role).1, ← same, hidden]
    rfl
  | plain =>
    rw [Tracker.shows_of_plain role, Bool.not_eq_false] at hidden
    rw [(resolve_plain _ role).1, (resolve_plain _ role).1, ← same]
    exact Policy.contentColor_of_absorbs _ rfl hidden _ _

end Resolving

section TwoRuns

variable (source : List Char)

/-- Two renderings of the same tokens differ in colors only, whatever their policies are. -/
theorem ofTokensFrom_eq (p q : Policy) {t u : Tracker} (same : t.openers = u.openers)
    (position : Int) (tokens : List Token) :
    (ofTokensFrom source p position t tokens).notes =
      (ofTokensFrom source q position u tokens).notes ∧
    (ofTokensFrom source p position t tokens).spans.map Span.bare =
      (ofTokensFrom source q position u tokens).spans.map Span.bare := by
  induction tokens generalizing position t u with
  | nil => exact ⟨rfl, rfl⟩
  | cons token rest ih =>
    cases isEnd : token.isEnd with
    | true =>
      rw [ofTokensFrom_end source p isEnd, ofTokensFrom_end source q isEnd]
      exact ⟨rfl, rfl⟩
    | false =>
      have next : (resolve p t token).2.1.openers = (resolve q u token).2.1.openers := by
        rw [resolve_openers, resolve_openers, same]
      obtain ⟨notes, spans⟩ := ih next token.stop
      rw [ofTokensFrom_token source p isEnd, ofTokensFrom_token source q isEnd]
      constructor
      · dsimp only
        rw [notes, resolve_notes_eq p q same]
      · simp only [List.map_cons, spans]
        rfl

/-- The scopes that a rendering has open before the token at an index. -/
def scopesAt (policy : Policy) (tokens : List Token) (i : Nat) : Tracker :=
  (tokens.take i).foldl (fun t token => (resolve policy t token).2.1) {}

theorem scopesAt_openers (policy : Policy) (tokens : List Token) (i : Nat) :
    (scopesAt policy tokens i).openers = (tokens.take i).foldl openersAfter [] :=
  (List.foldl_hom Tracker.openers fun t token => (resolve_openers policy t token).symm).symm

/-- What overrides do to the color of a token before the end. -/
theorem override_span (overrides : Overrides) {tokens : List Token} {i : Nat} {token : Token}
    (found : (beforeEnd tokens)[i]? = some token) :
    ∃ old new,
      (ofTokens source tokens .standard).spans[2 * i + 1]? =
        some (.painted old (token.text source)) ∧
      (ofTokens source tokens (Policy.standard.override overrides)).spans[2 * i + 1]? =
        some (.painted new (token.text source)) ∧
      ((scopesAt .standard (beforeEnd tokens) i).Shows token →
        new = (overrides.lookup token.category).getD old) ∧
      (¬ (scopesAt .standard (beforeEnd tokens) i).Shows token → new = old) := by
  obtain ⟨t, openers, old⟩ := span_resolved .standard source found
  obtain ⟨u, others, new⟩ := span_resolved (Policy.standard.override overrides) source found
  have same : t.openers = u.openers := openers.trans others.symm
  have shows_iff : (scopesAt .standard (beforeEnd tokens) i).Shows token ↔ t.Shows token :=
    Tracker.shows_congr ((scopesAt_openers _ _ _).trans openers.symm)
  refine ⟨_, _, old, new, ?_, ?_⟩
  · intro shown
    have shown := shows_iff.mp shown
    rw [resolve_of_shows _ rfl ((Tracker.shows_congr same).mp shown), resolve_of_shows _ rfl shown,
      Policy.override_colorOf]
  · intro hidden
    exact resolve_of_not_shows overrides same (mt shows_iff.mpr hidden)

/-- Whether a rendering can be made does not depend on its policy. -/
theorem ofTokens?_fault (p q : Policy) (tokens : List Token) (fault : Text.WriteFault) :
    ofTokens? source tokens p = .error fault ↔ ofTokens? source tokens q = .error fault := by
  have notes : (ofTokens source tokens p).notes = (ofTokens source tokens q).notes :=
    (ofTokensFrom_eq source p q rfl 0 tokens).1
  rw [ofTokens?, ofTokens?, notes]
  cases (ofTokens source tokens q).notes.forM Note.check with
  | error other => exact Iff.rfl
  | ok done => exact ⟨nofun, nofun⟩

end TwoRuns

end Rendering

namespace Listing

variable {σ : Type} [ColorSource σ] (supply : σ) (source : List Char)

/-- Whether a listing can be made does not depend on its policy. -/
theorem ofTokens?_fault (p q : Policy) (tokens : List Token) (fault : Text.WriteFault) :
    ofTokens? true p supply source tokens = .error fault ↔
      ofTokens? true q supply source tokens = .error fault := by
  have notes : (ofTokens true p supply source tokens).notes =
      (ofTokens true q supply source tokens).notes := rfl
  rw [ofTokens?, ofTokens?, notes]
  cases (ofTokens true q supply source tokens).notes.forM Note.check with
  | error other => exact Iff.rfl
  | ok done =>
    cases tokens.forM Token.checkSpan with
    | error other => exact Iff.rfl
    | ok done => exact ⟨nofun, nofun⟩

/-- A line of a listing in color: the name of a category in its base color, and what does not depend
on the policy. -/
theorem line_eq (policy : Policy) {tokens : List Token} {i : Nat} {token : Token}
    (found : tokens[i]? = some token) :
    (ofTokens true policy supply source tokens).lines[i]? =
      some ((policy.colorOf token.category).paint token.category.name.toList ++
        (token.details source ++ (depthMarks supply tokens).marks[i]?.join.elim [] Mark.label)) := by
  have bound : i < (depthMarks supply tokens).marks.length := by
    rw [depthMarks_length]
    exact (List.getElem?_eq_some_iff.mp found).1
  have marked : (depthMarks supply tokens).marks[i]? = some (depthMarks supply tokens).marks[i] :=
    List.getElem?_eq_getElem bound
  change (List.zipWith (paintedLine policy source) tokens (depthMarks supply tokens).marks)[i]? = _
  rw [List.getElem?_zipWith, found, marked]
  exact congrArg some (List.append_assoc _ _ _)

end Listing

/-- Overrides change the colors they name and nothing else. Two renderings of the same tokens, one of
them under overrides, have the same notes and the same texts. The color of a token before the end
differs only if its category is named and its base color shows, and then it is the named one.
Whether its base color shows is the same with and without the overrides. In two listings that draw
on the same colors, only the names of the categories that are named have another color. -/
theorem overrides_touch_named {σ : Type} [ColorSource σ] (supply : σ) (source : List Char)
    (tokens : List Token) (overrides : Overrides) :
    let changed := Policy.standard.override overrides
    (Rendering.ofTokens source tokens changed).notes =
      (Rendering.ofTokens source tokens .standard).notes ∧
    (Rendering.ofTokens source tokens changed).spans.map Span.bare =
      (Rendering.ofTokens source tokens .standard).spans.map Span.bare ∧
    (∀ fault, Rendering.ofTokens? source tokens changed = .error fault ↔
      Rendering.ofTokens? source tokens .standard = .error fault) ∧
    (∀ i token, (beforeEnd tokens)[i]? = some token →
      ((Rendering.scopesAt changed (beforeEnd tokens) i).Shows token ↔
        (Rendering.scopesAt .standard (beforeEnd tokens) i).Shows token) ∧
      ∃ old new,
        (Rendering.ofTokens source tokens .standard).spans[2 * i + 1]? =
          some (.painted old (token.text source)) ∧
        (Rendering.ofTokens source tokens changed).spans[2 * i + 1]? =
          some (.painted new (token.text source)) ∧
        (new ≠ old → (Rendering.scopesAt .standard (beforeEnd tokens) i).Shows token ∧
          overrides.lookup token.category = some new) ∧
        ((Rendering.scopesAt .standard (beforeEnd tokens) i).Shows token →
          ∀ color, overrides.lookup token.category = some color → new = color)) ∧
    (∀ fault, Listing.ofTokens? true changed supply source tokens = .error fault ↔
      Listing.ofTokens? true .standard supply source tokens = .error fault) ∧
    (Listing.ofTokens true changed supply source tokens).notes =
      (Listing.ofTokens true .standard supply source tokens).notes ∧
    (Listing.ofTokens true changed supply source tokens).supply =
      (Listing.ofTokens true .standard supply source tokens).supply ∧
    (Listing.ofTokens true changed supply source tokens).lines.length =
      (Listing.ofTokens true .standard supply source tokens).lines.length ∧
    ∀ (i : Nat) (token : Token), tokens[i]? = some token → ∃ rest,
      (Listing.ofTokens true .standard supply source tokens).lines[i]? =
        some ((Policy.standard.colorOf token.category).paint token.category.name.toList ++ rest) ∧
      (Listing.ofTokens true changed supply source tokens).lines[i]? =
        some (((overrides.lookup token.category).getD
          (Policy.standard.colorOf token.category)).paint token.category.name.toList ++ rest) := by
  intro changed
  obtain ⟨notes, spans⟩ := Rendering.ofTokensFrom_eq source changed .standard
    (rfl : ({} : Tracker).openers = ({} : Tracker).openers) 0 tokens
  refine ⟨notes, spans, Rendering.ofTokens?_fault source changed .standard tokens, ?_,
    Listing.ofTokens?_fault supply source changed .standard tokens, rfl, rfl, ?_, ?_⟩
  · intro i token found
    have openers : (Rendering.scopesAt changed (beforeEnd tokens) i).openers =
        (Rendering.scopesAt .standard (beforeEnd tokens) i).openers := by
      rw [Rendering.scopesAt_openers, Rendering.scopesAt_openers]
    obtain ⟨old, new, before, after, shown, hidden⟩ := Rendering.override_span source overrides found
    refine ⟨Tracker.shows_congr openers, old, new, before, after, ?_, ?_⟩
    · intro differs
      have shows := Classical.not_not.mp fun covered => differs (hidden covered)
      refine ⟨shows, ?_⟩
      have color := shown shows
      cases named : overrides.lookup token.category with
      | none =>
        rw [named] at color
        exact absurd color differs
      | some other =>
        rw [named] at color
        exact congrArg some color.symm
    · intro shows color named
      rw [shown shows, named]
      rfl
  · change (List.zipWith _ _ _).length = (List.zipWith _ _ _).length
    rw [List.length_zipWith, List.length_zipWith]
  · intro i token found
    have line := Listing.line_eq supply source changed found
    rw [Policy.override_colorOf] at line
    exact ⟨_, Listing.line_eq supply source .standard found, line⟩

end Astra
