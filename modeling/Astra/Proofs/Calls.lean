import Astra.Nesting
import Astra.Proofs.Balance

/-!
# Scopes under any calls

A client may open and close scopes and ask about the innermost one in any order and with any token.
One inductive predicate says all that a call can lead to; what holds of the scopes after any calls
is derived from it. Which call opened the scope that another one closes is told by the replies
alone.
-/

namespace Astra

theorem opener?_of_not_closer {category : Category} (other : category.role ≠ .closer) :
    category.opener? = none := by
  cases category <;> first | rfl | exact absurd rfl other

namespace Tracker

variable {t : Tracker} {token : Token}

section Performing

theorem isClosedBy_of_not_closer (other : token.role ≠ .closer) (inside : t.depth ≠ 0) :
    t.isClosedBy token = .error (.notClosing token.category) := by
  have none : Delimiters.standard.opener? token.category = none := opener?_of_not_closer other
  obtain ⟨scopes⟩ := t
  cases scopes with
  | nil => exact absurd rfl inside
  | cons scope below =>
    rw [isClosedBy, top?, List.head?_cons]
    dsimp only
    rw [Delimiters.requiredOpener, none]
    rfl

/-- All that a call can lead to. -/
inductive Performed (t : Tracker) : Call → Turn → Prop where
  | notOpening {token : Token} {color : Rgb} (other : token.role ≠ .opener) :
      Performed t (.enter token color) ⟨.error (.notOpening token.category), [], t⟩
  | absorbed {token : Token} {color : Rgb} (opener : token.role = .opener)
      (absorbed : absorbs t.openers = true) :
      Performed t (.enter token color) ⟨.ok (.entered none), [], t⟩
  | entered {token : Token} {color : Rgb} (opener : token.role = .opener)
      (free : absorbs t.openers = false) :
      Performed t (.enter token color) ⟨.ok (.entered (some ⟨token, color, t.depth + 1⟩)), [],
        ⟨⟨token, color, t.depth + 1⟩ :: t.scopes⟩⟩
  | notLeaving {token : Token} (other : token.role ≠ .closer) (inside : t.depth ≠ 0) :
      Performed t (.leave token) ⟨.error (.notClosing token.category), [], t⟩
  | mismatched {token : Token} (admitted : token.role = .closer ∨ t.depth = 0)
      (foreign : closes t.openers token = false) :
      Performed t (.leave token) ⟨.ok (.left none), [.mismatch token (innermost t.openers)], t⟩
  | left {token : Token} {scope : Scope} {below : List Scope} (closer : token.role = .closer)
      (top : t.scopes = scope :: below) :
      Performed t (.leave token) ⟨.ok (.left (some scope)), [], ⟨below⟩⟩
  | notAsked {token : Token} (other : token.role ≠ .closer) (inside : t.depth ≠ 0) :
      Performed t (.isClosedBy token) ⟨.error (.notClosing token.category), [], t⟩
  | asked {token : Token} (admitted : token.role = .closer ∨ t.depth = 0) :
      Performed t (.isClosedBy token) ⟨.ok (.closes (closes t.openers token)), [], t⟩

theorem perform_enter (t : Tracker) (token : Token) (color : Rgb) :
    Performed t (.enter token color) (t.perform (.enter token color)) := by
  rw [perform, enter]
  by_cases role : token.role = .opener
  · rw [if_pos role]
    cases free : absorbs t.openers with
    | true =>
      rw [enter?_of_absorbs free]
      exact .absorbed role free
    | false =>
      rw [enter?_of_not_absorbs free]
      exact .entered role free
  · rw [if_neg role]
    exact .notOpening role

theorem perform_leave (t : Tracker) (token : Token) :
    Performed t (.leave token) (t.perform (.leave token)) := by
  rw [perform]
  by_cases role : token.role = .closer
  · rw [leave_eq role, innermost?_eq]
    cases own : closes t.openers token with
    | true =>
      obtain ⟨scope, below, top, left⟩ := leave?_of_closes own
      rw [left]
      exact .left role top
    | false =>
      rw [leave?_of_not_closes own]
      exact .mismatched (.inl role) own
  · by_cases empty : t.depth = 0
    · have outside : t.scopes = [] := List.eq_nil_of_length_eq_zero empty
      obtain ⟨scopes⟩ := t
      cases outside
      exact .mismatched (.inr rfl) rfl
    · rw [leave, isClosedBy_of_not_closer role empty]
      exact .notLeaving role empty

theorem perform_isClosedBy (t : Tracker) (token : Token) :
    Performed t (.isClosedBy token) (t.perform (.isClosedBy token)) := by
  rw [perform]
  by_cases role : token.role = .closer
  · rw [isClosedBy_of_closer role]
    exact .asked (.inl role)
  · by_cases empty : t.depth = 0
    · have outside : t.scopes = [] := List.eq_nil_of_length_eq_zero empty
      obtain ⟨scopes⟩ := t
      cases outside
      exact .asked (.inr rfl)
    · rw [isClosedBy_of_not_closer role empty]
      exact .notAsked role empty

theorem perform_performed (t : Tracker) (call : Call) : Performed t call (t.perform call) := by
  cases call with
  | enter token color => exact perform_enter t token color
  | leave token => exact perform_leave t token
  | isClosedBy token => exact perform_isClosedBy t token

end Performing

section Histories

/-- The scopes after calls that are made in turn. -/
def after (t : Tracker) (calls : List Call) : Tracker :=
  calls.foldl (fun t call => (t.perform call).after) t

/-- What calls give back that are made in turn. -/
def replies (t : Tracker) : List Call → List (Except DelimiterFault Reply)
  | [] => []
  | call :: rest => (t.perform call).reply :: (t.perform call).after.replies rest

/-- The scope that a call gives back. -/
def Reply.scope? : Reply → Option Scope
  | entered scope => scope
  | left scope => scope
  | closes _ => none

/-- A reply as a mark: calls that open a scope have an opening mark, calls that close one a closing
mark, and no other call has a mark. -/
def markOf : Except DelimiterFault Reply → Option Mark
  | .ok (.entered (some scope)) => some ⟨scope.depth, scope.color, true⟩
  | .ok (.left (some scope)) => some ⟨scope.depth, scope.color, false⟩
  | _ => none

def marksOf (calls : List Call) : List (Option Mark) := (replies {} calls).map markOf

theorem replies_getElem? {t : Tracker} {calls : List Call} {n : Nat} {call : Call}
    (found : calls[n]? = some call) :
    (t.replies calls)[n]? = some ((t.after (calls.take n)).perform call).reply := by
  induction calls generalizing t n with
  | nil => cases found
  | cons first rest ih =>
    cases n with
    | zero =>
      cases found
      rfl
    | succ n => exact ih found

variable {call : Call} {turn : Turn}

/-- A call that gives back no scope changes nothing. -/
theorem Performed.after_eq (performed : Performed t call turn)
    (nothing : turn.reply.toOption.bind Reply.scope? = none) : turn.after = t := by
  cases performed with
  | entered _ _ => cases nothing
  | left _ _ => cases nothing
  | _ => rfl

end Histories

section Invariant

/-- Open scopes, innermost first: each counts the scopes below it and was opened by an opener, and
only the innermost one may absorb. -/
inductive Stacked : List Scope → Prop where
  | nil : Stacked []
  | cons {opener : Token} {below : List Scope} (color : Rgb) (opens : opener.role = .opener)
      (transparent : ∀ scope ∈ below, scope.opener.category.isQuoteLike = false)
      (rest : Stacked below) : Stacked (⟨opener, color, below.length + 1⟩ :: below)

theorem Stacked.tail {scope : Scope} {below : List Scope} (stacked : Stacked (scope :: below)) :
    Stacked below := by
  cases stacked with
  | cons _ _ _ rest => exact rest

/-- Below and at the top nothing absorbs, if nothing absorbs at the top. -/
theorem Stacked.transparent (stacked : Stacked t.scopes) (free : absorbs t.openers = false) :
    ∀ scope ∈ t.scopes, scope.opener.category.isQuoteLike = false := by
  obtain ⟨scopes⟩ := t
  cases stacked with
  | nil =>
    intro scope member
    cases member
  | cons color opens transparent rest =>
    intro scope member
    rcases List.mem_cons.mp member with rfl | member
    · exact free
    · exact transparent scope member

variable {call : Call} {turn : Turn}

theorem Performed.stacked (performed : Performed t call turn) (stacked : Stacked t.scopes) :
    Stacked turn.after.scopes := by
  cases performed with
  | entered opener free => exact .cons _ opener (stacked.transparent free) stacked
  | left _ top =>
    rw [top] at stacked
    exact stacked.tail
  | _ => exact stacked

theorem stacked_after (calls : List Call) (stacked : Stacked t.scopes) :
    Stacked (t.after calls).scopes := by
  induction calls generalizing t with
  | nil => exact stacked
  | cons call rest ih => exact ih ((perform_performed t call).stacked stacked)

/-- What holds of the scope at a place, counted from the outermost. -/
theorem Stacked.at_place {scopes : List Scope} (stacked : Stacked scopes) {i : Nat} {scope : Scope}
    (found : scopes.reverse[i]? = some scope) :
    scope.depth = i + 1 ∧ scope.opener.role = .opener ∧
      (i + 1 < scopes.length → scope.opener.category.isQuoteLike = false) := by
  induction stacked with
  | nil => cases found
  | @cons opener below color opens transparent _ ih =>
    rw [List.reverse_cons] at found
    rcases Nat.lt_or_ge i below.length with inside | last
    · rw [List.getElem?_append_left (by simpa using inside)] at found
      obtain ⟨depth, role, _⟩ := ih found
      refine ⟨depth, role, fun _ => transparent scope ?_⟩
      exact List.mem_reverse.mp (List.mem_of_getElem? found)
    · obtain ⟨bound, _⟩ := List.getElem?_eq_some_iff.mp found
      have same : i = below.length := by
        simp only [List.length_append, List.length_reverse, List.length_singleton] at bound
        omega
      subst same
      have top : scope = ⟨opener, color, below.length + 1⟩ := by simpa using found.symm
      subst top
      refine ⟨rfl, opens, ?_⟩
      intro below
      simp at below

/-- A call that opens a scope goes one deeper, and one that closes a scope comes back. -/
theorem Performed.depth (performed : Performed t call turn) :
    turn.after.depth + closings [markOf turn.reply] = t.depth + openings [markOf turn.reply] := by
  cases performed with
  | left _ top =>
    show _ + 1 = t.scopes.length + 0
    rw [top]
    rfl
  | _ => rfl

theorem depth_after (t : Tracker) (calls : List Call) :
    (t.after calls).depth + closings ((t.replies calls).map markOf) =
      t.depth + openings ((t.replies calls).map markOf) := by
  induction calls generalizing t with
  | nil => rfl
  | cons call rest ih =>
    have first := (perform_performed t call).depth
    have later := ih (t.perform call).after
    rw [openings_cons, closings_cons] at first
    rw [replies, List.map_cons, openings_cons, closings_cons]
    simp only [openings, closings, List.countP_nil] at first later ⊢
    show ((t.perform call).after.after rest).depth + _ = _
    omega

end Invariant

section Openers

/-- The scopes that some of the calls leave open are those that were given back by the calls whose
opening marks are pending. -/
theorem opened_at (calls : List Call) {n : Nat} (bound : n ≤ calls.length) :
    List.Forall₂ (fun scope i => (replies {} calls)[i]? = some (.ok (.entered (some scope))))
      (after {} (calls.take n)).scopes (pendingAt (marksOf calls) n) := by
  induction n with
  | zero => exact .nil
  | succ n ih =>
    have opened := ih (by omega)
    have reply : (replies {} calls)[n]? =
        some ((after {} (calls.take n)).perform calls[n]).reply :=
      replies_getElem? (List.getElem?_eq_getElem bound)
    have mark : (marksOf calls)[n]? =
        some (markOf ((after {} (calls.take n)).perform calls[n]).reply) := by
      rw [marksOf, List.getElem?_map, reply]
      rfl
    have next : after {} (calls.take (n + 1)) = ((after {} (calls.take n)).perform calls[n]).after := by
      rw [List.take_succ_eq_append_getElem bound, after, List.foldl_append]
      rfl
    have performed := perform_performed (after {} (calls.take n)) calls[n]
    rw [next]
    generalize (after {} (calls.take n)).perform calls[n] = turn at reply mark performed
    generalize calls[n] = call at performed
    cases performed with
    | entered opener free =>
      have opens : opensAt (marksOf calls) n = true := by
        rw [opensAt, mark]
        rfl
      rw [pendingAt_of_opensAt opens]
      exact .cons reply opened
    | left closer top =>
      have closes : closesAt (marksOf calls) n = true := by
        rw [closesAt, mark]
        rfl
      rw [pendingAt_of_closesAt closes]
      rw [top] at opened
      generalize pendingAt (marksOf calls) n = stack at opened
      cases opened with
      | cons _ rest => exact rest
    | _ =>
      rw [pendingAt_of_unmarked mark]
      exact opened

variable {scope : Scope} {call : Call} {turn : Turn}

/-- A scope is opened on top of the others. -/
theorem Performed.pushed {color : Rgb} (performed : Performed t (.enter token color) turn)
    (entered : turn.reply = .ok (.entered (some scope))) :
    turn.after.scopes = scope :: t.scopes ∧ scope.opener = token ∧ scope.color = color := by
  cases performed with
  | entered _ _ =>
    cases entered
    exact ⟨rfl, rfl, rfl⟩
  | _ => cases entered

/-- A scope is closed from the top. -/
theorem Performed.top (performed : Performed t call turn)
    (left : turn.reply = .ok (.left (some scope))) : t.scopes = scope :: turn.after.scopes := by
  cases performed with
  | left _ top =>
    cases left
    exact top
  | _ => cases left

/-- The scope on top was given back by the latest call whose opening mark is pending. -/
theorem opened_top (calls : List Call) {below : List Scope}
    (top : (after {} calls).scopes = scope :: below) :
    ∃ i, (replies {} calls)[i]? = some (.ok (.entered (some scope))) ∧
      Pending (marksOf calls) i calls.length ∧
      ∀ other, Pending (marksOf calls) other calls.length → other ≤ i := by
  have opened := opened_at calls (Nat.le_refl _)
  rw [List.take_length, top] at opened
  generalize pending : pendingAt (marksOf calls) calls.length = stack at opened
  cases opened with
  | cons reply _ => exact ⟨_, reply, latest_of_pendingAt pending⟩

end Openers

section Faults

variable {color : Rgb} {turn : Turn} {fault : DelimiterFault}

theorem Performed.enter_fault (performed : Performed t (.enter token color) turn) :
    turn.reply = .error fault ↔ token.role ≠ .opener ∧ fault = .notOpening token.category := by
  cases performed with
  | notOpening other => simp [other, eq_comm]
  | absorbed opener _ => simp [opener]
  | entered opener _ => simp [opener]

theorem Performed.leave_fault (performed : Performed t (.leave token) turn) :
    turn.reply = .error fault ↔
      (token.role ≠ .closer ∧ t.depth ≠ 0) ∧ fault = .notClosing token.category := by
  cases performed with
  | notLeaving other inside => simp [other, inside, eq_comm]
  | mismatched admitted _ => rcases admitted with closer | outside <;> simp [*]
  | left closer _ => simp [closer]

theorem Performed.isClosedBy_fault (performed : Performed t (.isClosedBy token) turn) :
    turn.reply = .error fault ↔
      (token.role ≠ .closer ∧ t.depth ≠ 0) ∧ fault = .notClosing token.category := by
  cases performed with
  | notAsked other inside => simp [other, inside, eq_comm]
  | asked admitted => rcases admitted with closer | outside <;> simp [*]

end Faults

/-- Scopes after any calls, with any tokens. The scope at each place was opened by an opener and
counts the scopes up to it, and all but the innermost are transparent; the depth is the number of
scopes that were opened less that of scopes that were closed. From there, whatever is called next: a
call that gives back no scope changes nothing; opening fails exactly on a token that is no opener;
closing and asking fail exactly on a token that is no closer while a scope is open; a scope that is
opened goes on top of the others, and a scope that is closed was on top, and is the one that the
latest opening call without a partner gave back. -/
theorem calls_keep_scopes (calls : List Call) :
    (∀ i scope, (after {} calls).scopes.reverse[i]? = some scope →
      scope.depth = i + 1 ∧ scope.opener.role = .opener ∧
      (i + 1 < (after {} calls).depth → scope.opener.category.isQuoteLike = false)) ∧
    (after {} calls).depth + closings (marksOf calls) = openings (marksOf calls) ∧
    (∀ call, ((after {} calls).perform call).reply.toOption.bind Reply.scope? = none →
      ((after {} calls).perform call).after = after {} calls) ∧
    (∀ token color fault, ((after {} calls).perform (.enter token color)).reply = .error fault ↔
      token.role ≠ .opener ∧ fault = .notOpening token.category) ∧
    (∀ token fault, ((after {} calls).perform (.leave token)).reply = .error fault ↔
      (token.role ≠ .closer ∧ (after {} calls).depth ≠ 0) ∧ fault = .notClosing token.category) ∧
    (∀ token fault, ((after {} calls).perform (.isClosedBy token)).reply = .error fault ↔
      (token.role ≠ .closer ∧ (after {} calls).depth ≠ 0) ∧ fault = .notClosing token.category) ∧
    (∀ token color scope,
      ((after {} calls).perform (.enter token color)).reply = .ok (.entered (some scope)) →
      ((after {} calls).perform (.enter token color)).after.scopes =
          scope :: (after {} calls).scopes ∧
        scope.opener = token ∧ scope.color = color) ∧
    ∀ token scope, ((after {} calls).perform (.leave token)).reply = .ok (.left (some scope)) →
      (after {} calls).scopes = scope :: ((after {} calls).perform (.leave token)).after.scopes ∧
      ∃ i, (replies {} calls)[i]? = some (.ok (.entered (some scope))) ∧
        Pending (marksOf calls) i calls.length ∧
        ∀ other, Pending (marksOf calls) other calls.length → other ≤ i := by
  refine ⟨?_, ?_, ?_, ?_, ?_, ?_, ?_, ?_⟩
  · intro i scope found
    exact (stacked_after calls .nil).at_place found
  · have depth := depth_after {} calls
    rwa [show ({} : Tracker).depth = 0 from rfl, Nat.zero_add] at depth
  · intro call nothing
    exact (perform_performed _ call).after_eq nothing
  · intro token color fault
    exact (perform_performed _ _).enter_fault
  · intro token fault
    exact (perform_performed _ _).leave_fault
  · intro token fault
    exact (perform_performed _ _).isClosedBy_fault
  · intro token color scope entered
    exact (perform_performed _ _).pushed entered
  · intro token scope left
    have top := (perform_performed _ _).top left
    exact ⟨top, opened_top calls top⟩

end Tracker

end Astra
