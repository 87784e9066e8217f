/-!
# Association lists

Tables in the order in which their keys were first put. A later value for a key takes the place of
the earlier one.
-/

namespace Astra.Assoc

universe u v

variable {κ : Type u} {β : Type v} [DecidableEq κ]

def put (key : κ) (value : β) : List (κ × β) → List (κ × β)
  | [] => [(key, value)]
  | (k, b) :: rest => if k = key then (k, value) :: rest else (k, b) :: put key value rest

def putAll (table entries : List (κ × β)) : List (κ × β) :=
  entries.foldl (fun table entry => put entry.1 entry.2 table) table

variable [BEq κ] [LawfulBEq κ]

theorem lookup_cons_eq_ite (key k : κ) (b : β) (rest : List (κ × β)) :
    ((k, b) :: rest).lookup key = if k = key then some b else rest.lookup key := by
  by_cases same : k = key
  · rw [same, List.lookup_cons_self, if_pos rfl]
  · rw [List.lookup_cons, beq_eq_false_iff_ne.mpr (Ne.symm same), if_neg same]

@[simp]
theorem lookup_put (key other : κ) (value : β) (table : List (κ × β)) :
    (put key value table).lookup other =
      if key = other then some value else table.lookup other := by
  induction table with
  | nil => rw [put, lookup_cons_eq_ite]
  | cons entry rest ih =>
    obtain ⟨k, b⟩ := entry
    by_cases hk : k = key
    · rw [put, if_pos hk, lookup_cons_eq_ite, lookup_cons_eq_ite, hk]
      split <;> rfl
    · rw [put, if_neg hk, lookup_cons_eq_ite, lookup_cons_eq_ite, ih]
      by_cases ho : k = other
      · rw [if_pos ho, if_pos ho, if_neg fun same => hk (ho.trans same.symm)]
      · rw [if_neg ho, if_neg ho]

end Astra.Assoc
