import Astra.Proofs.Matching

/-!
# Balanced token lists

A grammar of the token lists in which every scope is closed. Brackets hold balanced lists; between
the delimiters of a quotation or a block comment there is any content without a closer. Marking
accepts exactly the lists of the grammar: it notes no mismatch and leaves no scope open.
-/

namespace Astra

/-- An opener and a closer that requires it. -/
structure ClosedBy (opener closer : Token) : Prop where
  opens : opener.role = .opener
  closes : closer.role = .closer
  own : closer.category.opener? = some opener.category

/-- The token lists in which every scope is closed. -/
inductive Balanced : List Token → Prop where
  | nil : Balanced []
  | plain {token : Token} {rest : List Token} (plain : token.role = .plain)
      (later : Balanced rest) : Balanced (token :: rest)
  | bracket {opener closer : Token} {inner rest : List Token} (pair : ClosedBy opener closer)
      (transparent : opener.category.isQuoteLike = false) (inside : Balanced inner)
      (later : Balanced rest) : Balanced (opener :: inner ++ closer :: rest)
  | quote {opener closer : Token} {content rest : List Token} (pair : ClosedBy opener closer)
      (quoteLike : opener.category.isQuoteLike = true)
      (unclosed : ∀ token ∈ content, token.role = .plain ∨ token.role = .opener)
      (later : Balanced rest) : Balanced (opener :: content ++ closer :: rest)

/-- Tokens that close what is open, and nothing else: every closer among them closes the innermost
scope, and no scope is open after them. -/
def Settles (openers : List Token) : List Token → Prop
  | [] => openers = []
  | token :: rest =>
    (token.role = .closer → closes openers token = true) ∧
      Settles (openersAfter openers token) rest

instance Settles.decidable : (openers tokens : List Token) → Decidable (Settles openers tokens)
  | openers, [] => inferInstanceAs (Decidable (openers = []))
  | openers, token :: rest =>
    have := Settles.decidable (openersAfter openers token) rest
    inferInstanceAs (Decidable (_ ∧ Settles (openersAfter openers token) rest))

section Acceptance

variable {σ : Type} [ColorSource σ]

def openings (marks : List (Option Mark)) : Nat := marks.countP (·.any Mark.opens)

def closings (marks : List (Option Mark)) : Nat := marks.countP (·.any fun mark => !mark.opens)

theorem openings_cons (entry : Option Mark) (marks : List (Option Mark)) :
    openings (entry :: marks) = openings marks + if entry.any Mark.opens then 1 else 0 :=
  List.countP_cons

theorem closings_cons (entry : Option Mark) (marks : List (Option Mark)) :
    closings (entry :: marks) = closings marks + if entry.any (fun mark => !mark.opens) then 1 else 0 :=
  List.countP_cons

/-- Whether no mismatch is noted. -/
def Quiet (notes : List Note) : Prop := ∀ closer scope, Note.mismatch closer scope ∉ notes

/-- Marking notes no mismatch, and closes as much as was and is opened, exactly when the tokens
settle what is open. -/
theorem quiet_iff_settles (t : Tracker) (supply : σ) (tokens : List Token) :
    (Quiet (markFrom t supply tokens).notes ∧
      closings (markFrom t supply tokens).marks =
        t.depth + openings (markFrom t supply tokens).marks) ↔
    Settles t.openers tokens := by
  induction tokens generalizing t supply with
  | nil =>
    have quiet : Quiet [] := fun _ _ => List.not_mem_nil
    have empty : Settles t.openers [] ↔ t.scopes = [] := List.map_eq_nil_iff
    rw [empty, ← List.length_eq_zero_iff]
    exact ⟨fun accepted => accepted.2.symm, fun none => ⟨quiet, none.symm⟩⟩
  | cons token rest ih =>
    have marked := markStep_marked t supply token
    have openers := markStep_openers t supply token
    rw [markFrom_cons, Settles, ← openers]
    generalize markStep t supply token = step at marked
    rw [← ih step.tracker step.supply]
    dsimp only
    generalize markFrom step.tracker step.supply rest = later
    rw [openings_cons, closings_cons]
    cases marked with
    | opened opener _ =>
      -- the new scope is one more to be closed, and so is its mark: the sum stays the same
      have deeper : Tracker.depth ⟨⟨token, (ColorSource.next supply).1, t.depth + 1⟩ :: t.scopes⟩ =
        t.depth + 1 := rfl
      simp only [opener, deeper, reduceCtorEq, false_implies, true_and, List.nil_append]
      refine and_congr_right fun _ => ?_
      simp only [Option.any_some, Bool.not_true, Bool.false_eq_true, if_false, if_true]
      omega
    | @closed scope below closer top own =>
      have closes : closes t.openers token = true := by simp [closes, Tracker.openers, top, own]
      have depth : t.depth = below.length + 1 := congrArg List.length top
      have above : Tracker.depth ⟨below⟩ = below.length := rfl
      simp only [closes, depth, above, implies_true, true_and, List.nil_append]
      refine and_congr_right fun _ => ?_
      simp only [Option.any_some, Bool.not_false, Bool.false_eq_true, if_false, if_true]
      omega
    | absorbed opener _ => simp [opener]
    | mismatched closer foreign =>
      constructor
      · rintro ⟨quiet, _⟩
        exact absurd List.mem_cons_self (quiet token (innermost t.openers))
      · rintro ⟨own, _⟩
        cases foreign.symm.trans (own closer)
    | plain plain => simp [plain]

end Acceptance

section Soundness

variable {openers content more : List Token}

theorem settles_plain {token : Token} (plain : token.role = .plain) :
    Settles openers (token :: more) ↔ Settles openers more := by
  simp [Settles, plain, openersAfter]

theorem settles_opener {token : Token} (opener : token.role = .opener)
    (free : absorbs openers = false) :
    Settles openers (token :: more) ↔ Settles (token :: openers) more := by
  rw [Settles, openersAfter_of_not_absorbs opener free, opener]
  simp

theorem settles_closer {opener closer : Token} (pair : ClosedBy opener closer) :
    Settles (opener :: openers) (closer :: more) ↔ Settles openers more := by
  have own : closes (opener :: openers) closer = true := by simp [closes, pair.own]
  rw [Settles, openersAfter_of_closes pair.closes own]
  simp [own]

/-- Content of a quotation changes nothing. -/
theorem settles_content (absorbed : absorbs openers = true)
    (unclosed : ∀ token ∈ content, token.role = .plain ∨ token.role = .opener) :
    Settles openers (content ++ more) ↔ Settles openers more := by
  induction content with
  | nil => rfl
  | cons token rest ih =>
    have later := ih fun other member => unclosed other (List.mem_cons_of_mem token member)
    rcases unclosed token List.mem_cons_self with plain | opener
    · rw [List.cons_append, settles_plain plain, later]
    · rw [List.cons_append, Settles, openersAfter_of_absorbs opener absorbed, later, opener]
      simp

/-- A balanced list settles nothing but what it opens. -/
theorem Balanced.settles {tokens : List Token} (balanced : Balanced tokens)
    (free : absorbs openers = false) :
    Settles openers (tokens ++ more) ↔ Settles openers more := by
  induction balanced generalizing openers more with
  | nil => rfl
  | plain plain _ ih => rw [List.cons_append, settles_plain plain, ih free]
  | @bracket opener closer inner rest pair transparent _ _ inside later =>
    have outside : absorbs (opener :: openers) = false := transparent
    rw [List.append_assoc, List.cons_append, settles_opener pair.opens free, inside outside,
      List.cons_append, settles_closer pair, later free]
  | @quote opener closer content rest pair quoteLike unclosed _ later =>
    have absorbed : absorbs (opener :: openers) = true := quoteLike
    rw [List.append_assoc, List.cons_append, settles_opener pair.opens free,
      settles_content absorbed unclosed, List.cons_append, settles_closer pair, later free]

end Soundness

section Completeness

/-- Tokens that close open scopes one after the other. Before the closer of a scope stands what may
stand inside it. -/
inductive Finishes : List Token → List Token → Prop where
  | done {tokens : List Token} (balanced : Balanced tokens) : Finishes [] tokens
  | bracket {opener closer : Token} {below inner rest : List Token} (closes : closer.role = .closer)
      (own : closer.category.opener? = some opener.category)
      (transparent : opener.category.isQuoteLike = false) (inside : Balanced inner)
      (later : Finishes below rest) : Finishes (opener :: below) (inner ++ closer :: rest)
  | quote {opener closer : Token} {below content rest : List Token}
      (closes : closer.role = .closer)
      (own : closer.category.opener? = some opener.category)
      (quoteLike : opener.category.isQuoteLike = true)
      (unclosed : ∀ token ∈ content, token.role = .plain ∨ token.role = .opener)
      (later : Finishes below rest) : Finishes (opener :: below) (content ++ closer :: rest)

namespace Finishes

variable {openers tokens : List Token} {token : Token}

/-- What is balanced may come first, unless the innermost scope is opaque. -/
theorem prepend {first : List Token} (free : absorbs openers = false)
    (grows : ∀ rest, Balanced rest → Balanced (first ++ rest))
    (finishes : Finishes openers tokens) : Finishes openers (first ++ tokens) := by
  cases finishes with
  | done balanced => exact .done (grows _ balanced)
  | bracket closes own transparent inside later =>
    rw [← List.append_assoc]
    exact .bracket closes own transparent (grows _ inside) later
  | quote closes own quoteLike unclosed later =>
    cases quoteLike.symm.trans free

theorem absorb (absorbed : absorbs openers = true)
    (content : token.role = .plain ∨ token.role = .opener) (finishes : Finishes openers tokens) :
    Finishes openers (token :: tokens) := by
  cases finishes with
  | done balanced => cases absorbed
  | bracket closes own transparent inside later => cases transparent.symm.trans absorbed
  | quote closes own quoteLike unclosed later =>
    rw [← List.cons_append]
    refine .quote closes own quoteLike ?_ later
    intro other member
    rcases List.mem_cons.mp member with rfl | member
    · exact content
    · exact unclosed other member

theorem plain (plain : token.role = .plain) (finishes : Finishes openers tokens) :
    Finishes openers (token :: tokens) := by
  cases absorbed : absorbs openers with
  | true => exact finishes.absorb absorbed (Or.inl plain)
  | false =>
    rw [← List.singleton_append]
    exact finishes.prepend absorbed fun rest balanced => .plain plain balanced

theorem opener (opens : token.role = .opener) (free : absorbs openers = false)
    (finishes : Finishes (token :: openers) tokens) : Finishes openers (token :: tokens) := by
  cases finishes with
  | bracket closes own transparent inside later =>
    -- with its closer found, the whole pair is a balanced list in front of the rest
    rw [List.append_cons, ← List.cons_append]
    refine later.prepend free fun more balanced => ?_
    simpa using Balanced.bracket ⟨opens, closes, own⟩ transparent inside balanced
  | quote closes own quoteLike unclosed later =>
    rw [List.append_cons, ← List.cons_append]
    refine later.prepend free fun more balanced => ?_
    simpa using Balanced.quote ⟨opens, closes, own⟩ quoteLike unclosed balanced

theorem closer (closes : token.role = .closer) (own : Astra.closes openers token = true)
    (finishes : Finishes openers.tail tokens) : Finishes openers (token :: tokens) := by
  cases openers with
  | nil => cases own
  | cons opener below =>
    have required : token.category.opener? = some opener.category := of_decide_eq_true own
    cases kind : opener.category.isQuoteLike with
    | true =>
      show Finishes (opener :: below) ([] ++ token :: tokens)
      exact .quote closes required kind (by simp) finishes
    | false => exact .bracket closes required kind .nil finishes

end Finishes

theorem Settles.finishes {openers tokens : List Token} (settles : Settles openers tokens) :
    Finishes openers tokens := by
  -- what the rest finishes is told by the scopes that are open after the first token
  induction tokens generalizing openers with
  | nil =>
    cases settles
    exact .done .nil
  | cons token rest ih =>
    obtain ⟨matched, later⟩ := settles
    have finishes := ih later
    cases role : token.role with
    | plain =>
      rw [openersAfter, role] at finishes
      exact finishes.plain role
    | opener =>
      cases absorbed : absorbs openers with
      | true =>
        rw [openersAfter_of_absorbs role absorbed] at finishes
        exact finishes.absorb absorbed (Or.inr role)
      | false =>
        rw [openersAfter_of_not_absorbs role absorbed] at finishes
        exact finishes.opener role absorbed
    | closer =>
      have own := matched role
      rw [openersAfter_of_closes role own] at finishes
      exact finishes.closer role own

end Completeness

/-- Tokens that start with nothing open settle exactly when they are balanced. -/
theorem settles_iff_balanced (tokens : List Token) : Settles [] tokens ↔ Balanced tokens := by
  constructor
  · intro settles
    cases settles.finishes with
    | done balanced => exact balanced
  · intro balanced
    have settles : Settles [] (tokens ++ []) ↔ Settles [] [] := balanced.settles rfl
    rw [List.append_nil] at settles
    exact settles.mpr rfl

instance (tokens : List Token) : Decidable (Balanced tokens) :=
  decidable_of_iff _ (settles_iff_balanced tokens)

-- a quotation may hold an opener, but no closer of anything else
example : Balanced [⟨.openDoubleQuote, 0, 1⟩, ⟨.openParenthesis, 1, 1⟩, ⟨.closeDoubleQuote, 2, 1⟩] ∧
    ¬ Balanced [⟨.openDoubleQuote, 0, 1⟩, ⟨.openParenthesis, 1, 1⟩, ⟨.closeParenthesis, 2, 1⟩,
      ⟨.closeDoubleQuote, 3, 1⟩] := by
  decide

/-- Marking tokens notes no mismatch and gives as many closing as opening marks exactly when the
tokens are balanced, whatever colors are drawn. -/
theorem accepts_iff_balanced {σ : Type} [ColorSource σ] (supply : σ) (tokens : List Token) :
    ((∀ closer scope, Note.mismatch closer scope ∉ (depthMarks supply tokens).notes) ∧
      closings (depthMarks supply tokens).marks = openings (depthMarks supply tokens).marks) ↔
    Balanced tokens := by
  rw [← settles_iff_balanced]
  have accepted := quiet_iff_settles {} supply tokens
  rw [Tracker.depth, List.length_nil, Nat.zero_add] at accepted
  exact accepted

end Astra
