import Astra.Proofs.Matching

/-!
# Renderings and marks decide alike

A rendering and the marking of depths each keep track of the open scopes. They agree about every
token before the first one at the end of a text: what has a mark is painted in its own color, and
all else in a color that depends on the innermost scope, which the marks tell. They note the same
mismatches.
-/

namespace Astra

/-- The tokens before the first one at the end of a text. -/
def beforeEnd (tokens : List Token) : List Token := tokens.takeWhile fun token => !token.isEnd

theorem isEnd_of_mem_beforeEnd {tokens : List Token} {token : Token}
    (member : token ∈ beforeEnd tokens) : token.isEnd = false := by
  have all : (beforeEnd tokens).all (fun token => !token.isEnd) = true := List.all_takeWhile
  simpa using List.all_eq_true.mp all token member

/-- A token before the end, between what stands before and after it. -/
theorem beforeEnd_split {tokens : List Token} {i : Nat} {token : Token}
    (found : (beforeEnd tokens)[i]? = some token) :
    (∃ after, tokens = (beforeEnd tokens).take i ++ token :: after) ∧
    ∀ other ∈ (beforeEnd tokens).take i ++ [token], other.isEnd = false := by
  obtain ⟨bound, rfl⟩ := List.getElem?_eq_some_iff.mp found
  constructor
  · obtain ⟨rest, whole⟩ : beforeEnd tokens <+: tokens := List.takeWhile_prefix _
    refine ⟨(beforeEnd tokens).drop (i + 1) ++ rest, ?_⟩
    rw [← List.cons_append, ← List.append_assoc, ← List.drop_eq_getElem_cons bound,
      List.take_append_drop, whole]
  · rw [← List.take_succ_eq_append_getElem bound]
    intro other member
    exact isEnd_of_mem_beforeEnd (List.mem_of_mem_take member)

/-- What opened the innermost scope at an index, as the marks tell it: the token of the last opening
mark that is pending there. -/
def ScopeAt (tokens : List Token) (marks : List (Option Mark)) (i : Nat) : Option Category → Prop
  | none => ∀ opening, ¬ Pending marks opening i
  | some category => ∃ opening opener, Pending marks opening i ∧
      (∀ other, Pending marks other i → other ≤ opening) ∧
      tokens[opening]? = some opener ∧ opener.category = category

section Scopes

theorem Tracks.scopeAt {tokens : List Token} {marks : List (Option Mark)} {t : Tracker} {i : Nat}
    (tracks : Tracks tokens marks t.scopes (pendingAt marks i)) :
    ScopeAt tokens marks i (innermost t.openers) := by
  obtain ⟨scopes⟩ := t
  generalize pending : pendingAt marks i = stack at tracks
  cases tracks with
  | nil =>
    intro opening isPending
    rw [← mem_pendingAt, pending] at isPending
    cases isPending
  | @cons opener color below opening stack token mark rest =>
    obtain ⟨isPending, latest⟩ := latest_of_pendingAt pending
    exact ⟨opening, opener, isPending, latest, token, rfl⟩

variable {σ : Type} [ColorSource σ] (supply : σ)

/-- The scope that the marks tell at a token is the innermost one that the tokens before it leave
open. -/
theorem scopeAt_innermost {tokens : List Token} {i : Nat} (bound : i ≤ tokens.length) :
    ScopeAt tokens (depthMarks supply tokens).marks i
      (innermost ((tokens.take i).foldl openersAfter [])) := by
  have openers : (pointAt supply tokens i).1.openers = (tokens.take i).foldl openersAfter [] :=
    markAfter_openers {} supply (tokens.take i)
  rw [← openers]
  exact (tracks_at supply tokens bound).1.scopeAt

end Scopes

namespace Rendering

variable (policy : Policy)

/-- The color of a token by whether it has a mark and by the innermost scope. -/
def decided (marked : Bool) (scope : Option Category) (token : Token) : Rgb :=
  if marked then policy.colorOf token.category
  else if token.role = .closer then policy.mismatchColor scope
  else policy.contentColor scope (policy.colorOf token.category)

variable {σ : Type} [ColorSource σ]

/-- A token is resolved as it is marked, if the same scopes are open. -/
theorem resolve_of_marked {t u : Tracker} {supply : σ} {token : Token} {step : MarkStep σ}
    (marked : Marked u supply token step) (same : t.openers = u.openers) :
    (resolve policy t token).1 = decided policy step.mark.isSome (innermost u.openers) token ∧
    (resolve policy t token).2.2 = step.notes := by
  cases marked with
  | opened opener free =>
    rw [← same] at free
    have entered : t.enter? token (policy.colorOf token.category) = some (_, _) :=
      Tracker.enter?_of_not_absorbs free
    rw [resolve, opener]
    dsimp only
    rw [entered]
    exact ⟨rfl, rfl⟩
  | closed closer top own =>
    have own : closes t.openers token = true := by
      rw [same]
      simp [closes, Tracker.openers, top, own]
    obtain ⟨color, notes⟩ := resolve_closer policy t closer
    rw [color, notes, own]
    exact ⟨rfl, rfl⟩
  | absorbed opener absorbed =>
    rw [← same] at absorbed
    rw [resolve, opener]
    dsimp only
    rw [Tracker.enter?_of_absorbs absorbed, t.innermost?_eq, same]
    exact ⟨by simp [decided, opener], rfl⟩
  | mismatched closer foreign =>
    obtain ⟨color, notes⟩ := resolve_closer policy t closer
    rw [color, notes, same, foreign]
    exact ⟨by simp [decided, closer], rfl⟩
  | plain plain =>
    rw [resolve, plain]
    dsimp only
    rw [t.innermost?_eq, same]
    exact ⟨by simp [decided, plain], rfl⟩

variable (source : List Char)

/-- The span of a token before the end is decided by the scopes that the tokens before it leave
open. -/
theorem span_resolved {tokens : List Token} {i : Nat} {token : Token}
    (found : (beforeEnd tokens)[i]? = some token) :
    ∃ u : Tracker, u.openers = ((beforeEnd tokens).take i).foldl openersAfter [] ∧
      (ofTokens source tokens policy).spans[2 * i + 1]? =
        some (.painted (resolve policy u token).1 (token.text source)) := by
  obtain ⟨⟨after, whole⟩, lexemes⟩ := beforeEnd_split found
  have length : ((beforeEnd tokens).take i).length = i := by
    obtain ⟨bound, _⟩ := List.getElem?_eq_some_iff.mp found
    rw [List.length_take]
    omega
  obtain ⟨u, openers, span⟩ := @token_span source policy 0 {} _ after token lexemes
  rw [← whole, length] at span
  exact ⟨u, openers, span⟩

variable (supply : σ)

/-- The span of a token before the end. -/
theorem span_decided {tokens : List Token} {i : Nat} {token : Token}
    (found : (beforeEnd tokens)[i]? = some token) :
    (ofTokens source tokens policy).spans[2 * i + 1]? =
      some (.painted (decided policy (depthMarks supply (beforeEnd tokens)).marks[i]?.join.isSome
        (innermost (((beforeEnd tokens).take i).foldl openersAfter [])) token)
        (token.text source)) := by
  obtain ⟨step, marked, mark, _⟩ := point_step supply found
  have openers : (pointAt supply (beforeEnd tokens) i).1.openers =
      ((beforeEnd tokens).take i).foldl openersAfter [] := markAfter_openers {} supply _
  -- the rendering has a tracker of its own, which has seen the same tokens
  obtain ⟨u, same, span⟩ := span_resolved policy source found
  have color := (resolve_of_marked policy marked (same.trans openers.symm)).1
  rw [color, openers] at span
  rw [span, mark]
  rfl

end Rendering

section Notes

def Note.isMismatch : Note → Bool
  | .mismatch _ _ => true
  | _ => false

variable {σ : Type} [ColorSource σ]

theorem Marked.notes_isMismatch {t : Tracker} {supply : σ} {token : Token} {step : MarkStep σ}
    (marked : Marked t supply token step) : step.notes.filter Note.isMismatch = step.notes := by
  cases marked <;> rfl

theorem overlapNotes_not_isMismatch (position : Int) (token : Token) :
    (Rendering.overlapNotes position token).filter Note.isMismatch = [] := by
  rw [Rendering.overlapNotes]
  split <;> rfl

/-- A rendering notes the mismatches that marking the tokens before the end notes, if the same
scopes are open. -/
theorem mismatches_eq (source : List Char) (policy : Policy) (position : Int) (supply : σ)
    {t u : Tracker} (same : t.openers = u.openers) (tokens : List Token) :
    (Rendering.ofTokensFrom source policy position t tokens).notes.filter Note.isMismatch =
      (markFrom u supply (beforeEnd tokens)).notes := by
  induction tokens generalizing position t u supply with
  | nil => rfl
  | cons token rest ih =>
    cases isEnd : token.isEnd with
    | true =>
      have nothing : beforeEnd (token :: rest) = [] := by simp [beforeEnd, isEnd]
      rw [nothing, Rendering.ofTokensFrom_end source policy isEnd]
      exact overlapNotes_not_isMismatch position token
    | false =>
      have more : beforeEnd (token :: rest) = token :: beforeEnd rest := by simp [beforeEnd, isEnd]
      have marked := markStep_marked u supply token
      have notes := (Rendering.resolve_of_marked policy marked same).2
      have next : (Rendering.resolve policy t token).2.1.openers =
          (markStep u supply token).tracker.openers := by
        rw [Rendering.resolve_openers, markStep_openers, same]
      rw [more, Rendering.ofTokensFrom_token source policy isEnd, markFrom_cons]
      dsimp only
      rw [List.filter_append, List.filter_append, overlapNotes_not_isMismatch, notes,
        marked.notes_isMismatch, ih _ _ next, List.nil_append]

end Notes

/-- A rendering decides about scopes as the marks of the tokens before the end do. A token with a
mark is painted in its own color, any other closer in the color of a mismatch in the innermost
scope, and everything else in the color of content of that scope; the scope is that of the last
opening mark that is pending. The mismatches noted are the same, in the same order. -/
theorem rendering_decides_as_marks {σ : Type} [ColorSource σ] (source : List Char)
    (tokens : List Token) (policy : Policy) (supply : σ) :
    (∀ i token, (beforeEnd tokens)[i]? = some token →
      ∃ scope, ScopeAt (beforeEnd tokens) (depthMarks supply (beforeEnd tokens)).marks i scope ∧
        (Rendering.ofTokens source tokens policy).spans[2 * i + 1]? =
          some (.painted
            (if (depthMarks supply (beforeEnd tokens)).marks[i]?.join.isSome then
              policy.colorOf token.category
            else if token.role = .closer then policy.mismatchColor scope
            else policy.contentColor scope (policy.colorOf token.category))
            (token.text source))) ∧
    (Rendering.ofTokens source tokens policy).notes.filter Note.isMismatch =
      (depthMarks supply (beforeEnd tokens)).notes := by
  constructor
  · intro i token found
    obtain ⟨bound, _⟩ := List.getElem?_eq_some_iff.mp found
    exact ⟨_, scopeAt_innermost supply (Nat.le_of_lt bound),
      Rendering.span_decided policy source supply found⟩
  · exact mismatches_eq source policy 0 supply rfl tokens

end Astra
