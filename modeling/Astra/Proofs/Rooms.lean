import Astra.Config.Reader

/-!
# Room for nested values

A value is shown exactly if there is room for all its levels and no whole number in it is too long.
What a text says does not depend on the room of the machine: where there is too little of it, the
text is reported to be nested too deeply, and elsewhere it is read as if the room were unbounded.
-/

namespace Astra.Config

namespace Value

mutual

/-- The whole numbers in a value, at any depth. -/
def wholes : Value → List Int
  | whole n => [n]
  | array items => wholesOfItems items
  | table entries => wholesOfEntries entries
  | _ => []

def wholesOfItems : List Value → List Int
  | [] => []
  | item :: rest => item.wholes ++ wholesOfItems rest

def wholesOfEntries : List (List Char × Value) → List Int
  | [] => []
  | (_, value) :: rest => value.wholes ++ wholesOfEntries rest

end

mutual

/-- How many levels deep a value reaches when it is shown. -/
def levels : Value → Nat
  | moment m => m.levels
  | array items => levelsOfItems items + 1
  | table entries => levelsOfEntries entries + 1
  | _ => 1

def levelsOfItems : List Value → Nat
  | [] => 0
  | item :: rest => max item.levels (levelsOfItems rest)

def levelsOfEntries : List (List Char × Value) → Nat
  | [] => 0
  | (_, value) :: rest => max value.levels (levelsOfEntries rest)

end

/-- Whether something can be shown that reaches so many levels down from the given one and holds
these whole numbers. -/
def Fits (room : Room) (level levels : Nat) (wholes : List Int) : Prop :=
  (∀ n < levels, room.showing (level + n) = true) ∧ ∀ n ∈ wholes, n.natAbs < Text.numeralBound

section Showing

variable {room : Room} {level : Nat}

theorem fits_nil : Fits room level 0 [] :=
  ⟨fun _ below => absurd below (Nat.not_lt_zero _), fun _ member => absurd member List.not_mem_nil⟩

theorem fits_append_iff {m n : Nat} {first second : List Int} :
    Fits room level (max m n) (first ++ second) ↔
      Fits room level m first ∧ Fits room level n second := by
  constructor
  · rintro ⟨showing, short⟩
    exact ⟨⟨fun k below => showing k (by omega),
        fun n member => short n (List.mem_append_left _ member)⟩,
      ⟨fun k below => showing k (by omega),
        fun n member => short n (List.mem_append_right _ member)⟩⟩
  · rintro ⟨⟨upper, short⟩, ⟨lower, small⟩⟩
    refine ⟨fun k below => ?_, fun n member => ?_⟩
    · by_cases inside : k < m
      · exact upper k inside
      · exact lower k (by omega)
    · rcases List.mem_append.mp member with early | late
      · exact short n early
      · exact small n late

theorem fits_succ_iff {levels : Nat} {wholes : List Int} :
    Fits room level (levels + 1) wholes ↔
      (∀ n < 1, room.showing (level + n) = true) ∧ Fits room (level + 1) levels wholes := by
  constructor
  · rintro ⟨showing, short⟩
    refine ⟨fun n below => showing n (by omega), fun n below => ?_, short⟩
    rw [Nat.add_assoc, Nat.add_comm 1]
    exact showing (n + 1) (by omega)
  · rintro ⟨top, showing, short⟩
    refine ⟨fun n below => ?_, short⟩
    cases n with
    | zero => exact top 0 (by omega)
    | succ n =>
      have deeper := showing n (by omega)
      rwa [Nat.add_assoc, Nat.add_comm 1] at deeper

theorem checkLevels_eq_ok_iff {count : Nat} :
    checkLevels room level count = .ok () ↔ ∀ n < count, room.showing (level + n) = true := by
  rw [checkLevels]
  split
  · rename_i fine
    exact iff_of_true rfl (by simpa only [List.all_eq_true, List.mem_range] using fine)
  · rename_i deep
    refine iff_of_false (by intro found; cases found) ?_
    simpa only [List.all_eq_true, List.mem_range] using deep

/-- A value is shown after its own levels have been checked. -/
theorem checked_ok_iff {count : Nat} {α : Type} {next : Except ShowFault α} :
    (∃ a, (do checkLevels room level count; next) = .ok a) ↔
      (∀ n < count, room.showing (level + n) = true) ∧ ∃ a, next = .ok a := by
  constructor
  · rintro ⟨a, found⟩
    obtain ⟨_, fine, rest⟩ := Text.bind_eq_ok_iff.mp found
    exact ⟨checkLevels_eq_ok_iff.mp fine, a, rest⟩
  · rintro ⟨fine, a, found⟩
    exact ⟨a, Text.bind_eq_ok_iff.mpr ⟨(), checkLevels_eq_ok_iff.mpr fine, found⟩⟩

theorem wrapped_ok_iff {α β : Type} {first : Except ShowFault α} {f : α → β} :
    (∃ b, (do let a ← first; return f a) = .ok b) ↔ ∃ a, first = .ok a := by
  constructor
  · rintro ⟨b, found⟩
    obtain ⟨a, done, _⟩ := Text.bind_eq_ok_iff.mp found
    exact ⟨a, done⟩
  · rintro ⟨a, rfl⟩
    exact ⟨f a, rfl⟩

theorem listed_ok_iff {α β γ : Type} {first : Except ShowFault α} {later : Except ShowFault β}
    {f : α → β → γ} :
    (∃ c, (do let a ← first; return f a (← later)) = .ok c) ↔
      (∃ a, first = .ok a) ∧ ∃ b, later = .ok b := by
  constructor
  · rintro ⟨c, found⟩
    obtain ⟨a, early, rest⟩ := Text.bind_eq_ok_iff.mp found
    obtain ⟨b, late, _⟩ := Text.bind_eq_ok_iff.mp rest
    exact ⟨⟨a, early⟩, b, late⟩
  · rintro ⟨⟨a, rfl⟩, b, rfl⟩
    exact ⟨f a b, rfl⟩

/-- A value without parts and without a whole number is shown if there is room for its own levels. -/
theorem leaf_ok_iff {count : Nat} {shown : List Char} :
    (∃ text, (do checkLevels room level count; return shown) = .ok text) ↔
      Fits room level count [] := by
  rw [checked_ok_iff]
  exact ⟨fun ⟨showing, _⟩ => ⟨showing, fun _ member => absurd member List.not_mem_nil⟩,
    fun fits => ⟨fits.1, shown, rfl⟩⟩

mutual

theorem displayAt_ok_iff (room : Room) (level : Nat) (value : Value) :
    (∃ shown, displayAt room level value = .ok shown) ↔
      Fits room level value.levels value.wholes := by
  cases value with
  | text s =>
    rw [displayAt]
    exact leaf_ok_iff
  | whole n =>
    rw [displayAt, checked_ok_iff]
    change _ ↔ Fits room level 1 [n]
    rw [Fits, List.forall_mem_singleton]
    refine and_congr Iff.rfl ?_
    split
    · rename_i short
      exact iff_of_true ⟨_, rfl⟩ short
    · rename_i long
      refine iff_of_false ?_ long
      rintro ⟨shown, found⟩
      cases found
  | real x =>
    rw [displayAt]
    exact leaf_ok_iff
  | flag b =>
    rw [displayAt]
    exact leaf_ok_iff
  | moment m =>
    rw [displayAt]
    exact leaf_ok_iff
  | array items =>
    rw [displayAt, checked_ok_iff, wrapped_ok_iff, displayItems_ok_iff room (level + 1) items,
      levels, wholes, fits_succ_iff]
    rfl
  | table entries =>
    rw [displayAt, checked_ok_iff, wrapped_ok_iff, displayEntries_ok_iff room (level + 1) entries,
      levels, wholes, fits_succ_iff]
    rfl

theorem displayItems_ok_iff (room : Room) (level : Nat) (items : List Value) :
    (∃ shown, displayItems room level items = .ok shown) ↔
      Fits room level (levelsOfItems items) (wholesOfItems items) := by
  cases items with
  | nil =>
    rw [displayItems]
    exact iff_of_true ⟨_, rfl⟩ fits_nil
  | cons item rest =>
    rw [displayItems, listed_ok_iff, displayAt_ok_iff room level item,
      displayItems_ok_iff room level rest, levelsOfItems, wholesOfItems, fits_append_iff]

theorem displayEntries_ok_iff (room : Room) (level : Nat) (entries : List (List Char × Value)) :
    (∃ shown, displayEntries room level entries = .ok shown) ↔
      Fits room level (levelsOfEntries entries) (wholesOfEntries entries) := by
  cases entries with
  | nil =>
    rw [displayEntries]
    exact iff_of_true ⟨_, rfl⟩ fits_nil
  | cons entry rest =>
    obtain ⟨key, value⟩ := entry
    rw [displayEntries, listed_ok_iff, displayAt_ok_iff room level value,
      displayEntries_ok_iff room level rest, levelsOfEntries, wholesOfEntries, fits_append_iff]

end

/-- A value that reaches down to a level for which there is no room, or with a whole number in it
that has too many digits to be shown. -/
def Unshowable (room : Room) (value : Value) : Prop :=
  (∃ level, 1 ≤ level ∧ level ≤ value.levels ∧ room.showing level = false) ∨
    ∃ n ∈ value.wholes, Text.numeralBound ≤ n.natAbs

theorem display_ok_iff {value : Value} :
    (∃ shown, value.display room = .ok shown) ↔ ¬ value.Unshowable room := by
  rw [display, displayAt_ok_iff, Unshowable, not_or, Fits]
  refine and_congr ?_ ?_
  · constructor
    · rintro showing ⟨level, positive, within, missing⟩
      have there := showing (level - 1) (by omega)
      rw [Nat.add_sub_cancel' positive, missing] at there
      cases there
    · intro reached n below
      cases shown : room.showing (1 + n) with
      | true => rfl
      | false => exact absurd ⟨1 + n, by omega, by omega, shown⟩ reached
  · simp only [not_exists, not_and, Nat.not_le]

-- An array reaches one level further down than what it holds.
example : (array [array [flag true]]).display ⟨fun _ _ => none, fun level => level < 3⟩ =
    .error .tooDeep := rfl

end Showing

end Value

/-- A result that does not complain about depth. -/
def Shallow {α : Type} (result : Except Fault α) : Prop :=
  ∀ complaint, result ≠ .error (.tooDeep complaint)

section Shallow

variable {α β : Type}

theorem shallow_ok (a : α) : Shallow (.ok a) := by
  intro complaint found
  cases found

theorem shallow_fail (cause : Cause) (ahead : List Char) :
    Shallow (fail cause ahead : Except Fault α) := by
  intro complaint found
  cases found

theorem shallow_atPlace (ahead : List Char) (result : Except Cause α) :
    Shallow (atPlace ahead result) := by
  cases result with
  | ok a => exact shallow_ok a
  | error cause => exact shallow_fail cause ahead

theorem Shallow.relay {result : Except Fault α} {fault : Fault} (shallow : Shallow result)
    (failed : result = .error fault) : Shallow (.error fault : Except Fault β) := by
  intro complaint found
  cases found
  exact shallow complaint failed

theorem Shallow.map {result : Except Fault α} (shallow : Shallow result) (f : α → β) :
    Shallow (result.map f) := by
  cases result with
  | ok a => exact shallow_ok (f a)
  | error fault => exact shallow.relay rfl

theorem Shallow.bind {first : Except Fault α} {next : α → Except Fault β}
    (shallow : Shallow first) (later : ∀ a, Shallow (next a)) : Shallow (first >>= next) := by
  cases first with
  | ok a => exact later a
  | error fault => exact shallow.relay rfl

theorem shallow_skipCommentBody (text : List Char) : Shallow (skipCommentBody text) := by
  fun_induction skipCommentBody text with
  | case1 => exact shallow_ok _
  | case2 => exact shallow_ok _
  | case3 => exact shallow_fail _ _
  | case4 _ _ _ _ ih => exact ih

theorem shallow_skipComment (text : List Char) : Shallow (skipComment text) := by
  unfold skipComment
  split
  · exact shallow_skipCommentBody _
  · exact shallow_ok _

theorem shallow_skipVoid (inComment : Bool) (text : List Char) :
    Shallow (skipVoid inComment text) := by
  fun_induction skipVoid inComment text with
  | case1 => exact shallow_ok _
  | case3 => exact shallow_fail _ _
  | case7 => exact shallow_ok _
  | _ => assumption

theorem shallow_literal (closing : List Char) (isIllegal : Char → Bool) (text : List Char) :
    Shallow (literal closing isIllegal text) := by
  unfold literal
  split
  · exact shallow_fail _ _
  · dsimp only
    split
    · exact shallow_ok _
    · exact shallow_fail _ _

theorem shallow_escapedScalar (count : Nat) (text : List Char) :
    Shallow (escapedScalar count text) := by
  unfold escapedScalar
  split
  · exact shallow_fail _ _
  · dsimp only
    split
    · exact shallow_fail _ _
    · split
      · exact shallow_ok _
      · exact shallow_fail _ _

theorem shallow_escaped (multiline : Bool) (text : List Char) :
    Shallow (escaped multiline text) := by
  fun_induction escaped multiline text with
  | case3 =>
    split
    · exact shallow_fail _ _
    · simp_all
  | case4 _ _ _ later _ blank ih =>
    split
    · exact shallow_fail _ _
    · rename_i found _
      cases blank.symm.trans found
      exact ih
  | case5 _ _ _ next later _ blank ended =>
    split
    · exact shallow_fail _ _
    · rename_i found _
      cases blank.symm.trans found
      rw [if_neg ended]
      exact shallow_fail _ _
  | case6 rest fault failed => exact (shallow_escapedScalar 4 rest).relay failed
  | case8 rest fault failed => exact (shallow_escapedScalar 8 rest).relay failed
  | case7 _ _ _ _ ih => exact ih.map _
  | case9 _ _ _ _ _ ih => exact ih.map _
  | case10 _ _ _ _ _ _ _ ih => exact ih.map _
  | case15 _ _ _ _ _ _ _ ih => exact ih.map _
  | case12 => exact shallow_ok _
  | case13 => exact shallow_ok _
  | _ => exact shallow_fail _ _

theorem shallow_quotedText (mark : Char) (rest : List Char) : Shallow (quotedText mark rest) := by
  unfold quotedText
  split
  · apply Shallow.map
    split
    · exact shallow_escaped _ _
    · exact shallow_literal _ _ _
  · split
    · exact shallow_escaped _ _
    · exact shallow_literal _ _ _

theorem shallow_keyPart (text : List Char) : Shallow (keyPart text) := by
  unfold keyPart
  split
  · exact shallow_literal _ _ _
  · exact shallow_escaped _ _
  · split
    · exact shallow_fail _ _
    · exact shallow_ok _

theorem shallow_keyWithin (fuel : Nat) (text : List Char) : Shallow (keyWithin fuel text) := by
  induction fuel generalizing text with
  | zero => exact shallow_fail _ _
  | succ fuel ih =>
    refine (shallow_keyPart text).bind fun _ => ?_
    dsimp only
    split
    · exact (ih _).bind fun _ => shallow_ok _
    · exact shallow_ok _

theorem shallow_decimalNumber? {text : List Char} {found : Read Value}
    (number : decimalNumber? text = some found) : Shallow found := by
  unfold decimalNumber? at number
  dsimp only at number
  split at number
  · cases number
  · split at number
    · split at number
      · cases number
        intro complaint deep
        cases deep
      · cases number
        exact shallow_ok _
    · cases number
      exact shallow_ok _

theorem shallow_number? {text : List Char} {found : Read Value}
    (number : number? text = some found) : Shallow found := by
  unfold number? at number
  split at number
  · cases number
    exact shallow_ok _
  · rcases Option.or_eq_some_iff.mp number with decimal | ⟨_, special⟩
    · exact shallow_decimalNumber? decimal
    · obtain ⟨value, _, rfl⟩ := Option.map_eq_some_iff.mp special
      exact shallow_ok value

theorem shallow_scalar (text : List Char) : Shallow (scalar text) := by
  unfold scalar
  split
  · exact shallow_ok _
  split
  · exact shallow_ok _
  split
  · split
    · exact shallow_ok _
    · exact shallow_fail _ _
  · cases number : number? text with
    | none => exact shallow_fail _ _
    | some found => exact shallow_number? number

theorem shallow_equalsSign (text : List Char) : Shallow (equalsSign text) := by
  unfold equalsSign
  split
  · exact shallow_ok _
  · exact shallow_fail _ _

theorem shallow_itemDeclaration (document : Document) (text : List Char) :
    Shallow (itemDeclaration document text) := by
  refine (shallow_keyWithin _ _).bind fun _ => (shallow_atPlace _ _).bind fun _ => ?_
  split
  · exact shallow_ok _
  · exact shallow_fail _ _

theorem shallow_tableDeclaration (document : Document) (text : List Char) :
    Shallow (tableDeclaration document text) := by
  refine (shallow_keyWithin _ _).bind fun _ => (shallow_atPlace _ _).bind fun _ => ?_
  split
  · exact shallow_ok _
  · exact shallow_fail _ _

end Shallow

/-- What is read in a room, and what is read without a bound: that never complains about depth, and
the other does or is the same. -/
def Agrees {α : Type} (narrow wide : Except Fault α) : Prop :=
  Shallow wide ∧ ((∃ complaint, narrow = .error (.tooDeep complaint)) ∨ narrow = wide)

section Agreement

variable {α β : Type} (room : Room)

theorem Shallow.agrees {result : Except Fault α} (shallow : Shallow result) :
    Agrees result result :=
  ⟨shallow, .inr rfl⟩

theorem Agrees.bind {narrow wide : Except Fault α} {next other : α → Except Fault β}
    (agrees : Agrees narrow wide) (later : ∀ a, Agrees (next a) (other a)) :
    Agrees (narrow >>= next) (wide >>= other) := by
  obtain ⟨shallow, ⟨complaint, rfl⟩ | rfl⟩ := agrees
  · exact ⟨shallow.bind fun a => (later a).1, .inl ⟨complaint, rfl⟩⟩
  · refine ⟨shallow.bind fun a => (later a).1, ?_⟩
    cases narrow with
    | ok a => exact (later a).2
    | error fault => exact .inr rfl

theorem agrees_checkRoom (calls : Nat) (text : List Char) :
    Agrees (checkRoom room calls text) (checkRoom .unbounded calls text) := by
  refine ⟨shallow_ok (), ?_⟩
  unfold checkRoom
  split
  · exact .inr rfl
  · exact .inl ⟨_, rfl⟩

theorem agrees_within (fuel : Nat) :
    (∀ calls text, Agrees (valueWithin room fuel calls text)
      (valueWithin .unbounded fuel calls text)) ∧
    (∀ calls items text, Agrees (itemsWithin room fuel calls items text)
      (itemsWithin .unbounded fuel calls items text)) ∧
    ∀ calls marks table text, Agrees (entriesWithin room fuel calls marks table text)
      (entriesWithin .unbounded fuel calls marks table text) := by
  induction fuel with
  | zero =>
    refine ⟨?_, ?_, ?_⟩
    · intro calls text
      simp only [valueWithin]
      exact (shallow_fail _ _).agrees
    · intro calls items text
      simp only [itemsWithin]
      exact (shallow_fail _ _).agrees
    · intro calls marks table text
      simp only [entriesWithin]
      exact (shallow_fail _ _).agrees
  | succ fuel ih =>
    obtain ⟨value, items, entries⟩ := ih
    refine ⟨?_, ?_, ?_⟩
    · intro calls text
      simp only [valueWithin]
      refine (agrees_checkRoom room calls text).bind fun _ => ?_
      split
      · exact ((shallow_quotedText _ _).map _).agrees
      · exact ((shallow_quotedText _ _).map _).agrees
      · exact items _ _ _
      · split
        · exact (shallow_ok _).agrees
        · exact entries _ _ _ _
      · exact (shallow_scalar _).agrees
    · intro calls read text
      simp only [itemsWithin]
      refine (shallow_skipVoid false text).agrees.bind fun rest => ?_
      split
      · exact (shallow_ok _).agrees
      · refine (value _ _).bind fun _ => (shallow_skipVoid _ _).agrees.bind fun _ => ?_
        split
        · exact (shallow_ok _).agrees
        · exact items _ _ _
        · exact (shallow_fail _ _).agrees
    · intro calls marks table text
      simp only [entriesWithin]
      refine (shallow_keyWithin _ _).agrees.bind fun _ => (shallow_equalsSign _).agrees.bind fun _ =>
        (value _ _).bind fun _ => (shallow_atPlace _ _).agrees.bind fun _ => ?_
      split
      · exact (shallow_ok _).agrees
      · exact entries _ _ _ _
      · exact (shallow_fail _ _).agrees

theorem agrees_statement (document : Document) (text : List Char) :
    Agrees (statement room document text) (statement .unbounded document text) := by
  unfold statement
  split
  · exact (shallow_ok _).agrees
  · exact (shallow_itemDeclaration _ _).agrees
  · exact (shallow_tableDeclaration _ _).agrees
  · split
    · exact (shallow_keyWithin _ _).agrees.bind fun _ => (shallow_equalsSign _).agrees.bind fun _ =>
        ((agrees_within room _).1 _ _).bind fun _ => (shallow_atPlace _ _).agrees.bind fun _ =>
          (shallow_ok _).agrees
    · split
      · exact (shallow_ok _).agrees
      · exact (shallow_fail _ _).agrees

theorem agrees_statementsWithin (fuel : Nat) (document : Document) (text : List Char) :
    Agrees (statementsWithin room fuel document text)
      (statementsWithin .unbounded fuel document text) := by
  induction fuel generalizing document text with
  | zero => exact (shallow_ok _).agrees
  | succ fuel ih =>
    refine (agrees_statement room _ _).bind fun _ => (shallow_skipComment _).agrees.bind fun _ => ?_
    split
    · exact (shallow_ok _).agrees
    · exact ih _ _
    · exact (shallow_fail _ _).agrees

/-- A text whose values are nested too deeply to be read. -/
def TooDeep (room : Room) (text : List Char) : Prop :=
  ∃ complaint, read room text = .error (.tooDeep complaint)

theorem read_eq_tooDeep_iff {room : Room} {text complaint : List Char} :
    read room text = .error (.tooDeep complaint) ↔
      statementsWithin room ((unifyLineEnds text).length + 1) .empty (unifyLineEnds text) =
        .error (.tooDeep complaint) := by
  unfold read
  dsimp only
  -- each outcome of the statements has a fault of its own
  split
  all_goals
    rename_i outcome
    simp [outcome]

/-- Nothing is nested too deeply if the room is unbounded. -/
theorem not_tooDeep_unbounded (text : List Char) : ¬ TooDeep .unbounded text := by
  rintro ⟨complaint, deep⟩
  exact (agrees_statementsWithin .unbounded _ _ _).1 complaint (read_eq_tooDeep_iff.mp deep)

theorem tooDeep_or_read_eq (text : List Char) :
    TooDeep room text ∨ read room text = read .unbounded text := by
  rcases (agrees_statementsWithin room _ .empty (unifyLineEnds text)).2 with ⟨complaint, deep⟩ | same
  · exact .inl ⟨complaint, read_eq_tooDeep_iff.mpr deep⟩
  · right
    unfold read
    dsimp only
    rw [same]

-- Four calls wait for what stands in two arrays.
example : TooDeep ⟨fun calls _ => if calls < 4 then none else some [], fun _ => true⟩
    ['x', '=', '[', '[', '1', ']', ']'] := ⟨[], rfl⟩

end Agreement

end Astra.Config
