import Mathlib.Data.Finset.Basic
import Astra.Proofs.Matching

/-!
# Tokens without marks

A token that gets no mark leaves the open scopes and the supply of colors as they were. The marks of
the others are therefore the same if it is left out, and what stands in a quotation is of no account
for what follows it.
-/

namespace Astra

section Without

variable {α : Type} (places : Finset Nat)

/-- Entries that are numbered from an index on, without those at some places. -/
def withoutFrom (index : Nat) : List α → List α
  | [] => []
  | entry :: rest =>
    if index ∈ places then withoutFrom (index + 1) rest else entry :: withoutFrom (index + 1) rest

/-- A list without its entries at some places. -/
def without (entries : List α) : List α := withoutFrom places 0 entries

end Without

section Steps

variable {σ : Type} [ColorSource σ] {t : Tracker} {supply : σ} {token : Token}
  {tokens content : List Token}

/-- A token without a mark changes nothing. -/
theorem markStep_of_unmarked (unmarked : (markStep t supply token).mark = none) :
    (markStep t supply token).tracker = t ∧ (markStep t supply token).supply = supply := by
  have marked := markStep_marked t supply token
  generalize markStep t supply token = step at marked unmarked ⊢
  cases marked with
  | opened _ _ => cases unmarked
  | closed _ _ _ => cases unmarked
  | absorbed _ _ => exact ⟨rfl, rfl⟩
  | mismatched _ _ => exact ⟨rfl, rfl⟩
  | plain _ => exact ⟨rfl, rfl⟩

/-- Tokens without marks are left out together with their entries. -/
theorem markFrom_withoutFrom (places : Finset Nat) (index : Nat)
    (unmarked : ∀ i, index + i ∈ places → (markFrom t supply tokens).marks[i]?.join = none) :
    (markFrom t supply (withoutFrom places index tokens)).marks =
      withoutFrom places index (markFrom t supply tokens).marks ∧
    (markFrom t supply (withoutFrom places index tokens)).supply =
      (markFrom t supply tokens).supply := by
  induction tokens generalizing t supply index with
  | nil => exact ⟨rfl, rfl⟩
  | cons token rest ih =>
    rw [markFrom_cons] at unmarked ⊢
    have tail : ∀ i, index + 1 + i ∈ places →
        (markFrom (markStep t supply token).tracker (markStep t supply token).supply
          rest).marks[i]?.join = none := by
      intro i listed
      exact unmarked (i + 1) (by rwa [Nat.add_comm i, ← Nat.add_assoc])
    have later := ih (index + 1) tail
    by_cases listed : index ∈ places
    · have none : (markStep t supply token).mark = none := unmarked 0 listed
      obtain ⟨sameTracker, sameSupply⟩ := markStep_of_unmarked none
      simp only [withoutFrom, if_pos listed]
      rw [sameTracker, sameSupply] at later ⊢
      exact later
    · simp only [withoutFrom, if_neg listed]
      rw [markFrom_cons]
      exact ⟨congrArg _ later.1, later.2⟩

theorem markAfter_append (t : Tracker) (supply : σ) (before after : List Token) :
    markAfter t supply (before ++ after) =
      markAfter (markAfter t supply before).1 (markAfter t supply before).2 after := by
  induction before generalizing t supply with
  | nil => rfl
  | cons first rest ih => exact ih _ _

theorem markFrom_append (t : Tracker) (supply : σ) (before after : List Token) :
    (markFrom t supply (before ++ after)).marks = (markFrom t supply before).marks ++
      (markFrom (markAfter t supply before).1 (markAfter t supply before).2 after).marks := by
  induction before generalizing t supply with
  | nil => rfl
  | cons first rest ih =>
    rw [List.cons_append, markFrom_cons, markFrom_cons, markAfter]
    exact congrArg _ (ih _ _)

/-- In a quotation only its own closer has a mark. -/
theorem markStep_of_absorbs (absorbed : absorbs t.openers = true)
    (foreign : closes t.openers token = false) : (markStep t supply token).mark = none := by
  have marked := markStep_marked t supply token
  generalize markStep t supply token = step at marked
  cases marked with
  | opened _ free =>
    rw [absorbed] at free
    cases free
  | @closed scope below _ top own =>
    have openers : t.openers = scope.opener :: below.map Scope.opener := congrArg _ top
    rw [openers] at foreign
    exact absurd own (of_decide_eq_false foreign)
  | absorbed _ _ => rfl
  | mismatched _ _ => rfl
  | plain _ => rfl

/-- The content of a quotation has no marks and changes nothing. -/
theorem markFrom_content (supply : σ) (absorbed : absorbs t.openers = true)
    (foreign : ∀ token ∈ content, closes t.openers token = false) :
    (markFrom t supply content).marks = List.replicate content.length none ∧
    markAfter t supply content = (t, supply) := by
  induction content with
  | nil => exact ⟨rfl, rfl⟩
  | cons token rest ih =>
    have none : (markStep t supply token).mark = none :=
      markStep_of_absorbs absorbed (foreign token List.mem_cons_self)
    obtain ⟨sameTracker, sameSupply⟩ := markStep_of_unmarked none
    obtain ⟨marks, after⟩ := ih fun other member =>
      foreign other (List.mem_cons_of_mem token member)
    rw [markFrom_cons, markAfter]
    dsimp only
    rw [sameTracker, sameSupply, none, marks]
    exact ⟨rfl, after⟩

end Steps

section Quotations

variable {σ : Type} [ColorSource σ] {supply : σ} {tokens : List Token} {i j n : Nat}
  {opener : Token}

theorem depthMarks_split (bound : n ≤ tokens.length) :
    (depthMarks supply (tokens.take n)).marks = (depthMarks supply tokens).marks.take n ∧
    (markFrom (pointAt supply tokens n).1 (pointAt supply tokens n).2 (tokens.drop n)).marks =
      (depthMarks supply tokens).marks.drop n := by
  have split := markFrom_append {} supply (tokens.take n) (tokens.drop n)
  have length : (markFrom {} supply (tokens.take n)).marks.length = n := by
    rw [markFrom_length, List.length_take, Nat.min_eq_left bound]
  rw [List.take_append_drop] at split
  constructor
  · exact (List.take_left' length ▸ congrArg (List.take n) split).symm
  · exact (List.drop_left' length ▸ congrArg (List.drop n) split).symm

theorem Partners.le_length (partners : Partners (depthMarks supply tokens).marks i j) :
    j ≤ tokens.length := by
  by_contra beyond
  have nothing : (depthMarks supply tokens).marks[j]? = none := by
    rw [List.getElem?_eq_none_iff, depthMarks_length]
    omega
  have closes := partners.closes
  rw [closesAt, nothing] at closes
  cases closes

/-- An opening mark leaves its token on top of the open scopes. -/
theorem openers_of_opensAt (opens : opensAt (depthMarks supply tokens).marks i = true)
    (found : tokens[i]? = some opener) :
    ∃ below, (pointAt supply tokens (i + 1)).1.openers = opener :: below := by
  obtain ⟨step, marked, mark, next⟩ := point_step supply found
  rw [next]
  rw [opensAt, mark] at opens
  cases marked with
  | opened _ _ => exact ⟨_, rfl⟩
  | closed _ _ _ => cases opens
  | absorbed _ _ => cases opens
  | mismatched _ _ => cases opens
  | plain _ => cases opens

/-- From a quotation's opener to its closer nothing changes. -/
theorem pointAt_of_partners (partners : Partners (depthMarks supply tokens).marks i j)
    (found : tokens[i]? = some opener) (quote : opener.category.isQuoteLike = true)
    (after : i < n) (before : n ≤ j) :
    pointAt supply tokens n = pointAt supply tokens (i + 1) ∧
    pendingAt (depthMarks supply tokens).marks n =
      pendingAt (depthMarks supply tokens).marks (i + 1) := by
  obtain ⟨below, openers⟩ := openers_of_opensAt partners.opens found
  induction n, after using Nat.le_induction with
  | base => exact ⟨rfl, rfl⟩
  | succ n after ih =>
    obtain ⟨same, pending⟩ := ih (by omega)
    have bound := partners.le_length
    obtain ⟨token, next⟩ : ∃ token, tokens[n]? = some token :=
      ⟨_, List.getElem?_eq_getElem (show n < tokens.length by omega)⟩
    obtain ⟨step, marked, mark, reached⟩ := point_step supply next
    rw [same] at marked
    cases marked with
    | opened _ free =>
      rw [openers, absorbs, List.head?_cons, Option.any_some, quote] at free
      cases free
    | closed _ _ _ =>
      have earlier : Partners (depthMarks supply tokens).marks i n := by
        refine partners_iff_head.mpr ⟨by rw [closesAt, mark]; rfl, ?_⟩
        rw [pending, pendingAt_of_opensAt partners.opens]
        rfl
      have := partners.right_unique earlier
      omega
    | absorbed _ _ => exact ⟨reached, (pendingAt_of_unmarked mark).trans pending⟩
    | mismatched _ _ => exact ⟨reached, (pendingAt_of_unmarked mark).trans pending⟩
    | plain _ => exact ⟨reached, (pendingAt_of_unmarked mark).trans pending⟩

end Quotations

/-- Tokens without marks are of no account. If some of them are left out, their entries are left out
of the marks, and the others and the supply are as they were. The content of a quotation can be
replaced by any other that does not close it, and all marks outside are the same. -/
theorem unmarked_tokens_irrelevant {σ : Type} [ColorSource σ] (supply : σ) (tokens : List Token) :
    (∀ places : Finset Nat, (∀ i ∈ places, (depthMarks supply tokens).marks[i]? = some none) →
      (depthMarks supply (without places tokens)).marks =
        without places (depthMarks supply tokens).marks ∧
      (depthMarks supply (without places tokens)).supply = (depthMarks supply tokens).supply) ∧
    ∀ i j opener content, Partners (depthMarks supply tokens).marks i j →
      tokens[i]? = some opener → opener.category.isQuoteLike = true →
      (∀ token ∈ content, token.category.opener? ≠ some opener.category) →
      (depthMarks supply (tokens.take (i + 1) ++ content ++ tokens.drop j)).marks =
        (depthMarks supply tokens).marks.take (i + 1) ++ List.replicate content.length none ++
          (depthMarks supply tokens).marks.drop j ∧
      (depthMarks supply (tokens.take (i + 1) ++ content ++ tokens.drop j)).supply =
        (depthMarks supply tokens).supply := by
  constructor
  · intro places unmarked
    apply markFrom_withoutFrom
    intro i listed
    rw [Nat.zero_add] at listed
    exact congrArg Option.join (unmarked i listed)
  · intro i j opener content partners found quote foreign
    obtain ⟨bound, _⟩ := List.getElem?_eq_some_iff.mp found
    have inside : j ≤ tokens.length := partners.le_length
    obtain ⟨below, openers⟩ := openers_of_opensAt partners.opens found
    have absorbed : absorbs (pointAt supply tokens (i + 1)).1.openers = true := by
      rw [openers]
      exact quote
    have unclosed : ∀ token ∈ content,
        closes (pointAt supply tokens (i + 1)).1.openers token = false := by
      intro token member
      rw [openers]
      exact decide_eq_false (foreign token member)
    obtain ⟨blank, unchanged⟩ :=
      markFrom_content (pointAt supply tokens (i + 1)).2 absorbed unclosed
    have same := (pointAt_of_partners partners found quote partners.lt (Nat.le_refl j)).1
    have through :
        markAfter {} supply (tokens.take (i + 1) ++ content) = pointAt supply tokens j := by
      rw [markAfter_append, same]
      exact unchanged
    constructor
    · rw [← (depthMarks_split bound).1, ← (depthMarks_split inside).2, ← blank, ← through]
      exact (markFrom_append ..).trans (congrArg (· ++ _) (markFrom_append ..))
    · have whole : markAfter {} supply tokens = markAfter (pointAt supply tokens j).1
          (pointAt supply tokens j).2 (tokens.drop j) := by
        rw [pointAt, ← markAfter_append, List.take_append_drop]
      rw [depthMarks, depthMarks, markFrom_supply, markFrom_supply, markAfter_append, through,
        whole]

/-- A parenthesis in a quotation and a foreign closer after it are left out; then the quotation gets
other content, with a closer that is not its own. -/
theorem unmarked_tokens_irrelevant_quoted :
    let supply : Cycle := ⟨[⟨255, 0, 0⟩, ⟨0, 0, 255⟩], by decide, 0⟩
    let tokens : List Token := [⟨.openParenthesis, 0, 1⟩, ⟨.openDoubleQuote, 1, 1⟩,
      ⟨.openParenthesis, 2, 1⟩, ⟨.closeDoubleQuote, 3, 1⟩, ⟨.closeBracket, 4, 1⟩,
      ⟨.closeParenthesis, 5, 1⟩]
    let content : List Token := [⟨.closeSingleQuote, 2, 1⟩, ⟨.openBrace, 3, 1⟩]
    let marks := (depthMarks supply tokens).marks
    (∀ i ∈ ({2, 4} : Finset Nat), marks[i]? = some none) ∧
    (depthMarks supply (without {2, 4} tokens)).marks = without {2, 4} marks ∧
    Partners marks 1 3 ∧
    (depthMarks supply (tokens.take 2 ++ content ++ tokens.drop 3)).marks =
      marks.take 2 ++ [none, none] ++ marks.drop 3 := by
  intro supply tokens content marks
  obtain ⟨removal, replacement⟩ := unmarked_tokens_irrelevant supply tokens
  have unmarked : ∀ i ∈ ({2, 4} : Finset Nat), marks[i]? = some none := by decide +kernel
  have partners : Partners marks 1 3 := by decide +kernel
  refine ⟨unmarked, (removal _ unmarked).1, partners, ?_⟩
  exact (replacement 1 3 ⟨.openDoubleQuote, 1, 1⟩ content partners rfl rfl (by decide)).1

end Astra
