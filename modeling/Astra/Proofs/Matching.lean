import Mathlib.Data.Nat.Count
import Astra.Proofs.Nesting

/-!
# Marks as a matching

Closing marks are matched with opening ones by a rule that looks at the marks alone: a closing mark
belongs to the latest opening mark that has no partner yet. The marks of tokens follow this rule.
Each closing mark has a partner, of the category that the closer requires and with the same depth
and color, and depths and colors of opening marks are told by what stands before them.
-/

namespace Astra

section Partners

variable (marks : List (Option Mark))

def opensAt (i : Nat) : Bool := marks[i]?.join.any Mark.opens

def closesAt (i : Nat) : Bool := marks[i]?.join.any fun mark => !mark.opens

/-- The closing mark at `j` belongs to the opening mark at `i`: the latest one before `j` that has
no partner before `j`. -/
def Partners (i j : Nat) : Prop :=
  i < j ∧ opensAt marks i = true ∧ closesAt marks j = true ∧
    (∀ earlier, earlier < j → ¬ Partners i earlier) ∧
    ∀ later, i < later → later < j → opensAt marks later = true →
      ∃ earlier, ∃ _ : earlier < j, Partners later earlier
termination_by j

/-- An opening mark before `n` that has no partner before `n`. -/
def Pending (i n : Nat) : Prop :=
  i < n ∧ opensAt marks i = true ∧ ∀ j, j < n → ¬ Partners marks i j

variable {marks} {i j n : Nat}

theorem not_closesAt_of_opensAt (opens : opensAt marks i = true) : closesAt marks i = false := by
  unfold opensAt at opens
  unfold closesAt
  cases entry : marks[i]?.join with
  | none => rfl
  | some mark =>
    rw [entry] at opens
    have isOpening : mark.opens = true := opens
    simp [isOpening]

theorem partners_iff :
    Partners marks i j ↔ closesAt marks j = true ∧ Pending marks i j ∧
      ∀ later, i < later → ¬ Pending marks later j := by
  rw [Partners, Pending]
  constructor
  · rintro ⟨before, opens, closes, fresh, latest⟩
    refine ⟨closes, ⟨before, opens, fresh⟩, ?_⟩
    rintro later after ⟨within, laterOpens, pending⟩
    obtain ⟨earlier, bound, partners⟩ := latest later after within laterOpens
    exact pending earlier bound partners
  · rintro ⟨closes, ⟨before, opens, fresh⟩, latest⟩
    refine ⟨before, opens, closes, fresh, ?_⟩
    intro later after within laterOpens
    by_contra unpartnered
    refine latest later after ⟨within, laterOpens, ?_⟩
    intro earlier bound partners
    exact unpartnered ⟨earlier, bound, partners⟩

theorem Partners.lt (partners : Partners marks i j) : i < j := (partners_iff.mp partners).2.1.1

theorem Partners.opens (partners : Partners marks i j) : opensAt marks i = true :=
  (partners_iff.mp partners).2.1.2.1

theorem Partners.closes (partners : Partners marks i j) : closesAt marks j = true :=
  (partners_iff.mp partners).1

/-- A closing mark has one partner at most. -/
theorem Partners.left_unique {i' : Nat} (first : Partners marks i j) (second : Partners marks i' j) :
    i' = i := by
  obtain ⟨_, pending, latest⟩ := partners_iff.mp first
  obtain ⟨_, pending', latest'⟩ := partners_iff.mp second
  by_contra different
  rcases Nat.lt_or_gt_of_ne different with before | after
  · exact latest' i before pending
  · exact latest i' after pending'

/-- An opening mark has one partner at most. -/
theorem Partners.right_unique {j' : Nat} (first : Partners marks i j) (second : Partners marks i j') :
    j = j' := by
  by_contra different
  rcases Nat.lt_or_gt_of_ne different with before | after
  · exact (partners_iff.mp second).2.1.2.2 j before first
  · exact (partners_iff.mp first).2.1.2.2 j' after second

/-- Of two pairs, the one that begins later lies inside the other or after it. -/
theorem Partners.nested_or_disjoint {i' j' : Nat} (first : Partners marks i j)
    (second : Partners marks i' j') (order : i < i') : j' < j ∨ j < i' := by
  rcases Nat.lt_trichotomy i' j with inside | same | outside
  · left
    by_contra crossing
    have pending : Pending marks i' j := by
      refine ⟨inside, second.opens, ?_⟩
      intro earlier bound partners
      have := partners.right_unique second
      omega
    exact (partners_iff.mp first).2.2 i' order pending
  · have closes := first.closes
    rw [← same, not_closesAt_of_opensAt second.opens] at closes
    cases closes
  · exact Or.inr outside

end Partners

section PendingStack

variable (marks : List (Option Mark))

/-- The opening marks before an index that have no partner before it, latest first. -/
def pendingAt : Nat → List Nat
  | 0 => []
  | n + 1 =>
    if opensAt marks n then n :: pendingAt n
    else if closesAt marks n then (pendingAt n).tail
    else pendingAt n

variable {marks} {i n : Nat}

theorem pendingAt_of_opensAt (opens : opensAt marks n = true) :
    pendingAt marks (n + 1) = n :: pendingAt marks n := by
  rw [pendingAt, if_pos opens]

theorem pendingAt_of_closesAt (closes : closesAt marks n = true) :
    pendingAt marks (n + 1) = (pendingAt marks n).tail := by
  have opens : opensAt marks n ≠ true := by
    intro opens
    rw [not_closesAt_of_opensAt opens] at closes
    cases closes
  rw [pendingAt, if_neg opens, if_pos closes]

theorem pendingAt_of_unmarked (unmarked : marks[n]? = some none) :
    pendingAt marks (n + 1) = pendingAt marks n := by
  simp [pendingAt, opensAt, closesAt, unmarked]

theorem pendingAt_sorted (n : Nat) :
    (pendingAt marks n).Pairwise (· > ·) ∧ ∀ i ∈ pendingAt marks n, i < n := by
  induction n with
  | zero => exact ⟨.nil, by simp [pendingAt]⟩
  | succ n ih =>
    obtain ⟨sorted, bounded⟩ := ih
    rw [pendingAt]
    split
    · refine ⟨.cons bounded sorted, ?_⟩
      intro i member
      rcases List.mem_cons.mp member with rfl | below
      · exact Nat.lt_succ_self i
      · exact Nat.lt_succ_of_lt (bounded i below)
    · split
      · exact ⟨sorted.tail, fun i member =>
          Nat.lt_succ_of_lt (bounded i (List.mem_of_mem_tail member))⟩
      · exact ⟨sorted, fun i member => Nat.lt_succ_of_lt (bounded i member)⟩

/-- The head of a sorted list is the greatest element. -/
theorem head?_eq_some_iff_of_sorted {stack : List Nat} (sorted : stack.Pairwise (· > ·)) :
    stack.head? = some i ↔ i ∈ stack ∧ ∀ later, i < later → later ∉ stack := by
  cases stack with
  | nil => simp
  | cons top below =>
    have smaller := (List.pairwise_cons.mp sorted).1
    rw [List.head?_cons, Option.some.injEq]
    constructor
    · rintro rfl
      refine ⟨List.mem_cons_self, ?_⟩
      intro later after member
      rcases List.mem_cons.mp member with rfl | member
      · omega
      · have := smaller later member
        omega
    · rintro ⟨member, greatest⟩
      rcases List.mem_cons.mp member with rfl | member
      · rfl
      · exact absurd List.mem_cons_self (greatest top (smaller i member))

theorem mem_tail_iff_of_sorted {stack : List Nat} (sorted : stack.Pairwise (· > ·)) :
    i ∈ stack.tail ↔ i ∈ stack ∧ stack.head? ≠ some i := by
  cases stack with
  | nil => simp
  | cons top below =>
    have smaller := (List.pairwise_cons.mp sorted).1
    simp only [List.tail_cons, List.mem_cons, List.head?_cons, ne_eq, Option.some.injEq]
    constructor
    · intro member
      have := smaller i member
      exact ⟨Or.inr member, by omega⟩
    · rintro ⟨same | member, other⟩
      · exact absurd same.symm other
      · exact member

theorem partners_iff_head_of (sound : ∀ i, i ∈ pendingAt marks n ↔ Pending marks i n) :
    Partners marks i n ↔ closesAt marks n = true ∧ (pendingAt marks n).head? = some i := by
  rw [partners_iff, head?_eq_some_iff_of_sorted (pendingAt_sorted n).1, sound]
  simp only [sound]

/-- The next entry of the marks decides which opening marks are pending after it. -/
theorem pending_succ :
    Pending marks i (n + 1) ↔
      (i = n ∧ opensAt marks n = true) ∨ (Pending marks i n ∧ ¬ Partners marks i n) := by
  constructor
  · rintro ⟨bound, opens, fresh⟩
    by_cases last : i = n
    · exact Or.inl ⟨last, last ▸ opens⟩
    · exact Or.inr ⟨⟨by omega, opens, fun j before => fresh j (by omega)⟩, fresh n (by omega)⟩
  · rintro (⟨rfl, opens⟩ | ⟨⟨bound, opens, fresh⟩, alone⟩)
    · refine ⟨Nat.lt_succ_self i, opens, ?_⟩
      intro j before partners
      have := partners.lt
      omega
    · refine ⟨by omega, opens, ?_⟩
      intro j before
      by_cases last : j = n
      · exact last ▸ alone
      · exact fresh j (by omega)

theorem mem_pendingAt : i ∈ pendingAt marks n ↔ Pending marks i n := by
  induction n generalizing i with
  | zero =>
    rw [pendingAt]
    constructor
    · intro member
      cases member
    · rintro ⟨bound, _⟩
      omega
  | succ n ih =>
    rw [pending_succ, partners_iff_head_of fun i => ih, ← ih]
    by_cases opens : opensAt marks n = true
    · rw [pendingAt_of_opensAt opens, not_closesAt_of_opensAt opens]
      simp [opens]
    · by_cases closes : closesAt marks n = true
      · rw [pendingAt_of_closesAt closes, mem_tail_iff_of_sorted (pendingAt_sorted n).1]
        simp [opens, closes]
      · rw [pendingAt, if_neg opens, if_neg closes]
        simp [opens, closes]

theorem partners_iff_head :
    Partners marks i n ↔ closesAt marks n = true ∧ (pendingAt marks n).head? = some i :=
  partners_iff_head_of fun _ => mem_pendingAt

/-- The first of the pending opening marks is the latest one. -/
theorem latest_of_pendingAt {stack : List Nat} (pending : pendingAt marks n = i :: stack) :
    Pending marks i n ∧ ∀ other, Pending marks other n → other ≤ i := by
  have head : (pendingAt marks n).head? = some i := by rw [pending, List.head?_cons]
  obtain ⟨member, latest⟩ := (head?_eq_some_iff_of_sorted (pendingAt_sorted n).1).mp head
  refine ⟨mem_pendingAt.mp member, ?_⟩
  intro other isPending
  by_contra later
  exact latest other (by omega) (mem_pendingAt.mpr isPending)

instance : Decidable (Pending marks i n) := decidable_of_iff _ mem_pendingAt

instance : Decidable (Partners marks i n) := decidable_of_iff _ partners_iff_head.symm

theorem count_pending : Nat.count (Pending marks · n) n = (pendingAt marks n).length := by
  have distinct : (pendingAt marks n).Nodup := (pendingAt_sorted n).1.imp fun after => Nat.ne_of_gt after
  rw [Nat.count_eq_card_filter_range, ← List.toFinset_card_of_nodup distinct]
  congr 1
  ext i
  rw [Finset.mem_filter, Finset.mem_range, List.mem_toFinset, mem_pendingAt]
  exact ⟨And.right, fun pending => ⟨pending.1, pending⟩⟩

end PendingStack

namespace ColorSource

variable {σ : Type} [ColorSource σ]

/-- A supply after some draws. -/
def after (supply : σ) : Nat → σ
  | 0 => supply
  | n + 1 => (next (after supply n)).2

/-- The color that is drawn from a supply after some others. -/
def nth (supply : σ) (n : Nat) : Rgb := (next (after supply n)).1

end ColorSource

namespace Cycle

theorem after_eq (c : Cycle) (n : Nat) :
    ColorSource.after c n = { c with drawn := c.drawn + n } := by
  induction n with
  | zero => rfl
  | succ n ih =>
    rw [ColorSource.after, ih]
    rfl

/-- A palette is repeated. -/
theorem nth_eq (c : Cycle) (n : Nat) :
    c.palette[(c.drawn + n) % c.palette.length]? = some (ColorSource.nth c n) := by
  rw [ColorSource.nth, after_eq]
  exact List.getElem?_eq_getElem _

end Cycle

section Points

variable {σ : Type} [ColorSource σ]

/-- What marking one token can do. -/
inductive Marked (t : Tracker) (supply : σ) (token : Token) : MarkStep σ → Prop where
  | opened (opener : token.role = .opener) (free : absorbs t.openers = false) :
      Marked t supply token
        ⟨some ⟨t.depth + 1, (ColorSource.next supply).1, true⟩, [],
          ⟨⟨token, (ColorSource.next supply).1, t.depth + 1⟩ :: t.scopes⟩,
          (ColorSource.next supply).2⟩
  | closed {scope : Scope} {below : List Scope} (closer : token.role = .closer)
      (top : t.scopes = scope :: below)
      (own : token.category.opener? = some scope.opener.category) :
      Marked t supply token ⟨some ⟨scope.depth, scope.color, false⟩, [], ⟨below⟩, supply⟩
  | absorbed (opener : token.role = .opener) (absorbed : absorbs t.openers = true) :
      Marked t supply token ⟨none, [], t, supply⟩
  | mismatched (closer : token.role = .closer) (foreign : closes t.openers token = false) :
      Marked t supply token ⟨none, [.mismatch token (innermost t.openers)], t, supply⟩
  | plain (plain : token.role = .plain) : Marked t supply token ⟨none, [], t, supply⟩

theorem markStep_marked (t : Tracker) (supply : σ) (token : Token) :
    Marked t supply token (markStep t supply token) := by
  rw [markStep]
  cases role : token.role with
  | opener =>
    cases absorbed : absorbs t.openers with
    | true => exact .absorbed role absorbed
    | false =>
      have entered : t.enter? token (ColorSource.next supply).1 = some (_, _) :=
        Tracker.enter?_of_not_absorbs absorbed
      simp only [Tracker.pass, role, entered]
      exact .opened role absorbed
  | closer =>
    cases own : closes t.openers token with
    | true =>
      obtain ⟨scope, below, top, left⟩ := Tracker.leave?_of_closes own
      have openers : t.openers = scope.opener :: below.map Scope.opener := congrArg _ top
      rw [openers] at own
      dsimp only
      rw [left]
      exact .closed role top (of_decide_eq_true own)
    | false =>
      dsimp only
      rw [Tracker.leave?_of_not_closes own, Tracker.innermost?_eq]
      exact .mismatched role own
  | plain => exact .plain role

theorem markAfter_concat (t : Tracker) (supply : σ) (before : List Token) (token : Token) :
    markAfter t supply (before ++ [token]) =
      let step := markStep (markAfter t supply before).1 (markAfter t supply before).2 token
      (step.tracker, step.supply) := by
  induction before generalizing t supply with
  | nil => rfl
  | cons first rest ih => exact ih _ _

theorem markFrom_length (t : Tracker) (supply : σ) (tokens : List Token) :
    (markFrom t supply tokens).marks.length = tokens.length := by
  induction tokens generalizing t supply with
  | nil => rfl
  | cons token rest ih =>
    rw [markFrom_cons]
    simp [ih]

theorem markFrom_supply (t : Tracker) (supply : σ) (tokens : List Token) :
    (markFrom t supply tokens).supply = (markAfter t supply tokens).2 := by
  induction tokens generalizing t supply with
  | nil => rfl
  | cons token rest ih =>
    rw [markFrom_cons, markAfter]
    exact ih _ _

variable (supply : σ) (tokens : List Token)

/-- The open scopes and the supply when some of the tokens have been marked. -/
def pointAt (n : Nat) : Tracker × σ := markAfter {} supply (tokens.take n)

variable {tokens} {n : Nat} {token : Token}

/-- The marking of a token from one point to the next. -/
theorem point_step (found : tokens[n]? = some token) :
    ∃ step, Marked (pointAt supply tokens n).1 (pointAt supply tokens n).2 token step ∧
      (depthMarks supply tokens).marks[n]? = some step.mark ∧
      pointAt supply tokens (n + 1) = (step.tracker, step.supply) := by
  obtain ⟨bound, rfl⟩ := List.getElem?_eq_some_iff.mp found
  refine ⟨_, markStep_marked _ _ _, ?_, ?_⟩
  · have split : tokens = tokens.take n ++ tokens[n] :: tokens.drop (n + 1) := by simp
    have length : (tokens.take n).length = n := by
      rw [List.length_take]
      omega
    have mark := markFrom_getElem? {} supply (tokens.take n) tokens[n] (tokens.drop (n + 1))
    rw [← split, length] at mark
    exact mark
  · rw [pointAt, List.take_succ_eq_append_getElem bound, markAfter_concat]
    rfl

/-- The token of a mark. -/
theorem exists_token {mark : Option Mark}
    (found : (depthMarks supply tokens).marks[n]? = some mark) : ∃ token, tokens[n]? = some token := by
  obtain ⟨bound, _⟩ := List.getElem?_eq_some_iff.mp found
  rw [depthMarks, markFrom_length] at bound
  exact ⟨_, List.getElem?_eq_getElem bound⟩

end Points

section Tracking

/-- Open scopes and pending opening marks, pair by pair: the opener of a scope is the token of the
mark, and the mark shows the color of the scope and how many scopes lie below it. -/
inductive Tracks (tokens : List Token) (marks : List (Option Mark)) :
    List Scope → List Nat → Prop where
  | nil : Tracks tokens marks [] []
  | cons {opener : Token} {color : Rgb} {below : List Scope} {i : Nat} {stack : List Nat}
      (token : tokens[i]? = some opener)
      (mark : marks[i]? = some (some ⟨below.length + 1, color, true⟩))
      (rest : Tracks tokens marks below stack) :
      Tracks tokens marks (⟨opener, color, below.length + 1⟩ :: below) (i :: stack)

theorem Tracks.length_eq {tokens : List Token} {marks : List (Option Mark)} {scopes : List Scope}
    {stack : List Nat} (tracks : Tracks tokens marks scopes stack) :
    scopes.length = stack.length := by
  induction tracks with
  | nil => rfl
  | cons _ _ _ ih => exact congrArg (· + 1) ih

theorem Tracks.tail {tokens : List Token} {marks : List (Option Mark)} {scope : Scope}
    {below : List Scope} {stack : List Nat} (tracks : Tracks tokens marks (scope :: below) stack) :
    Tracks tokens marks below stack.tail := by
  cases tracks with
  | cons _ _ rest => exact rest

variable {σ : Type} [ColorSource σ] (supply : σ) (tokens : List Token)

/-- How many opening marks stand before an index. -/
def openingsBefore (marks : List (Option Mark)) (n : Nat) : Nat :=
  Nat.count (fun i => opensAt marks i = true) n

/-- The open scopes at every point are those of the pending opening marks, and each opening mark
has drawn one color. -/
theorem tracks_at {n : Nat} (bound : n ≤ tokens.length) :
    Tracks tokens (depthMarks supply tokens).marks (pointAt supply tokens n).1.scopes
      (pendingAt (depthMarks supply tokens).marks n) ∧
    (pointAt supply tokens n).2 =
      ColorSource.after supply (openingsBefore (depthMarks supply tokens).marks n) := by
  induction n with
  | zero => exact ⟨.nil, rfl⟩
  | succ n ih =>
    obtain ⟨tracks, drawn⟩ := ih (by omega)
    have found : tokens[n]? = some tokens[n] := List.getElem?_eq_getElem bound
    obtain ⟨step, marked, mark, next⟩ := point_step supply found
    generalize (depthMarks supply tokens).marks = marks at tracks drawn mark ⊢
    rw [next]
    -- a step without a mark leaves the scopes, the pending marks and the supply as they are
    have unmarked : marks[n]? = some none →
        Tracks tokens marks (pointAt supply tokens n).1.scopes (pendingAt marks (n + 1)) ∧
        (pointAt supply tokens n).2 = ColorSource.after supply (openingsBefore marks (n + 1)) := by
      intro none
      have silent : opensAt marks n = false := by simp [opensAt, none]
      rw [pendingAt_of_unmarked none, openingsBefore, Nat.count_succ, silent]
      exact ⟨tracks, drawn⟩
    cases marked with
    | opened opener free =>
      have opens : opensAt marks n = true := by simp [opensAt, mark]
      rw [pendingAt_of_opensAt opens, openingsBefore, Nat.count_succ, if_pos opens]
      refine ⟨.cons found mark tracks, ?_⟩
      rw [drawn]
      rfl
    | closed closer top own =>
      have closes : closesAt marks n = true := by simp [closesAt, mark]
      have silent : opensAt marks n = false := by simp [opensAt, mark]
      rw [top] at tracks
      rw [pendingAt_of_closesAt closes, openingsBefore, Nat.count_succ, silent]
      exact ⟨tracks.tail, drawn⟩
    | absorbed _ _ => exact unmarked mark
    | mismatched _ _ => exact unmarked mark
    | plain _ => exact unmarked mark

variable {supply tokens} {i j : Nat} {mark : Mark}

/-- A closing mark has a partner with the same depth and color, whose token is of the category that
the closer requires. -/
theorem exists_partner (found : (depthMarks supply tokens).marks[j]? = some (some mark))
    (closes : mark.opens = false) :
    ∃ i opener closer, Partners (depthMarks supply tokens).marks i j ∧
      (depthMarks supply tokens).marks[i]? = some (some { mark with opens := true }) ∧
      tokens[i]? = some opener ∧ tokens[j]? = some closer ∧
      closer.category.opener? = some opener.category := by
  obtain ⟨closer, atClose⟩ := exists_token supply found
  obtain ⟨bound, _⟩ := List.getElem?_eq_some_iff.mp atClose
  obtain ⟨tracks, _⟩ := tracks_at supply tokens (Nat.le_of_lt bound)
  obtain ⟨step, marked, atStep, _⟩ := point_step supply atClose
  rw [found, Option.some.injEq] at atStep
  cases marked with
  | opened _ _ =>
    cases atStep
    cases closes
  | @closed scope below _ top own =>
    rw [top] at tracks
    cases atStep
    generalize pending : pendingAt (depthMarks supply tokens).marks j = stack at tracks
    cases tracks with
    | @cons opener color _ i stack token opening _ =>
      refine ⟨i, opener, closer, ?_, opening, token, atClose, own⟩
      rw [partners_iff_head, pending]
      exact ⟨by simp [closesAt, found], rfl⟩
  | absorbed _ _ => cases atStep
  | mismatched _ _ => cases atStep
  | plain _ => cases atStep

/-- An opening mark shows how many opening marks are pending before it, and the color that is drawn
after those of the opening marks before it. -/
theorem opening_mark (found : (depthMarks supply tokens).marks[i]? = some (some mark))
    (opens : mark.opens = true) :
    mark.depth = 1 + Nat.count (Pending (depthMarks supply tokens).marks · i) i ∧
    mark.color = ColorSource.nth supply (openingsBefore (depthMarks supply tokens).marks i) := by
  obtain ⟨token, atToken⟩ := exists_token supply found
  obtain ⟨bound, _⟩ := List.getElem?_eq_some_iff.mp atToken
  obtain ⟨tracks, drawn⟩ := tracks_at supply tokens (Nat.le_of_lt bound)
  obtain ⟨step, marked, atStep, _⟩ := point_step supply atToken
  rw [found, Option.some.injEq] at atStep
  cases marked with
  | opened _ _ =>
    cases atStep
    rw [count_pending, ← tracks.length_eq, ColorSource.nth, ← drawn]
    exact ⟨Nat.add_comm _ 1, rfl⟩
  | closed _ _ _ =>
    cases atStep
    cases opens
  | absorbed _ _ => cases atStep
  | mismatched _ _ => cases atStep
  | plain _ => cases atStep

variable (supply tokens)

theorem depthMarks_length : (depthMarks supply tokens).marks.length = tokens.length :=
  markFrom_length {} supply tokens

/-- One color is drawn for each opening mark. -/
theorem depthMarks_supply :
    (depthMarks supply tokens).supply =
      ColorSource.after supply (openingsBefore (depthMarks supply tokens).marks tokens.length) := by
  have whole : pointAt supply tokens tokens.length = markAfter {} supply tokens := by
    rw [pointAt, List.take_length]
  rw [← (tracks_at supply tokens (Nat.le_refl _)).2, whole]
  exact markFrom_supply {} supply tokens

end Tracking

/-- The marks of tokens form a matching that is well nested. Every closing mark has exactly one
partner, an opening mark of the same depth and color whose token is what the closer requires; no
opening mark has two partners; two pairs are nested or disjoint. The depth of an opening mark counts
the opening marks that are pending before it. Opening marks take the colors of the supply in turn,
and nothing else draws a color; from a palette they take its colors again and again. -/
theorem marks_form_matching {σ : Type} [ColorSource σ] (supply : σ) (tokens : List Token) :
    (depthMarks supply tokens).marks.length = tokens.length ∧
    (∀ j mark, (depthMarks supply tokens).marks[j]? = some (some mark) → mark.opens = false →
      ∃ i, Partners (depthMarks supply tokens).marks i j ∧
        (∀ other, Partners (depthMarks supply tokens).marks other j → other = i) ∧
        (∃ partner, (depthMarks supply tokens).marks[i]? = some (some partner) ∧
          partner.opens = true ∧ partner.depth = mark.depth ∧ partner.color = mark.color) ∧
        ∃ opener closer, tokens[i]? = some opener ∧ tokens[j]? = some closer ∧
          Delimiters.standard.requiredOpener closer.category = .ok opener.category) ∧
    (∀ i j j', Partners (depthMarks supply tokens).marks i j →
      Partners (depthMarks supply tokens).marks i j' → j = j') ∧
    (∀ i j i' j', Partners (depthMarks supply tokens).marks i j →
      Partners (depthMarks supply tokens).marks i' j' → i < i' → j' < j ∨ j < i') ∧
    (∀ i mark, (depthMarks supply tokens).marks[i]? = some (some mark) → mark.opens = true →
      mark.depth = 1 + Nat.count (Pending (depthMarks supply tokens).marks · i) i ∧
      mark.color = ColorSource.nth supply (openingsBefore (depthMarks supply tokens).marks i)) ∧
    (depthMarks supply tokens).supply =
      ColorSource.after supply (openingsBefore (depthMarks supply tokens).marks tokens.length) ∧
    ∀ palette cycle, Cycle.ofList palette = .ok cycle →
      (∀ i mark, (depthMarks cycle tokens).marks[i]? = some (some mark) → mark.opens = true →
        palette[openingsBefore (depthMarks cycle tokens).marks i % palette.length]? =
          some mark.color) ∧
      (depthMarks cycle tokens).supply.drawn =
        openingsBefore (depthMarks cycle tokens).marks tokens.length := by
  refine ⟨depthMarks_length supply tokens, ?_, ?_, ?_, ?_, depthMarks_supply supply tokens, ?_⟩
  · intro j mark found closes
    obtain ⟨i, opener, closer, partners, same, atOpen, atClose, own⟩ := exists_partner found closes
    refine ⟨i, partners, fun other => partners.left_unique, ⟨_, same, rfl, rfl, rfl⟩,
      opener, closer, atOpen, atClose, ?_⟩
    have required : Delimiters.standard.opener? closer.category = some opener.category := own
    rw [Delimiters.requiredOpener, required]
  · intro i j j' first second
    exact first.right_unique second
  · intro i j i' j' first second order
    exact first.nested_or_disjoint second order
  · intro i mark found opens
    exact opening_mark found opens
  · intro palette cycle made
    rw [Cycle.ofList] at made
    split at made
    · cases made
      constructor
      · intro i mark found opens
        rw [(opening_mark found opens).2, ← Cycle.nth_eq, Nat.zero_add]
      · rw [depthMarks_supply, Cycle.after_eq, Nat.zero_add]
    · cases made

/-- Neither the parenthesis in a quotation nor the foreign closer after it keeps a parenthesis from
its partner. -/
theorem marks_form_matching_quoted :
    let marks := (depthMarks (⟨[⟨255, 0, 0⟩], by decide, 0⟩ : Cycle)
      [⟨.openParenthesis, 0, 1⟩, ⟨.openDoubleQuote, 1, 1⟩, ⟨.openParenthesis, 2, 1⟩,
        ⟨.closeDoubleQuote, 3, 1⟩, ⟨.closeBracket, 4, 1⟩, ⟨.closeParenthesis, 5, 1⟩]).marks
    marks[5]? = some (some ⟨1, ⟨255, 0, 0⟩, false⟩) ∧ Partners marks 0 5 ∧
      ∀ other, Partners marks other 5 → other = 0 := by
  intro marks
  have found : marks[5]? = some (some ⟨1, ⟨255, 0, 0⟩, false⟩) := by decide +kernel
  have first : Partners marks 0 5 := by decide +kernel
  obtain ⟨_, closing, _⟩ := marks_form_matching (⟨[⟨255, 0, 0⟩], by decide, 0⟩ : Cycle)
    [⟨.openParenthesis, 0, 1⟩, ⟨.openDoubleQuote, 1, 1⟩, ⟨.openParenthesis, 2, 1⟩,
      ⟨.closeDoubleQuote, 3, 1⟩, ⟨.closeBracket, 4, 1⟩, ⟨.closeParenthesis, 5, 1⟩]
  obtain ⟨i, partners, unique, _⟩ := closing 5 _ found rfl
  rw [← unique 0 first] at unique
  exact ⟨found, first, unique⟩

end Astra
