import Mathlib.Data.List.Nodup
import Mathlib.Data.List.Perm.Subperm
import Mathlib.Logic.Equiv.Basic
import Astra.Proofs.Spellings
import Astra.Token.Pairing

/-!
# Checked pairings

The check of a delimiter table accepts exactly the tables that fit the roles of the categories. It
does not look whether two closers share an opener. That none do follows from counting: there are as
many openers as closers, so a table that gives every closer one opener and leaves no opener out has
nothing to spare for a second closer of the same opener.
-/

namespace Astra

theorem Assoc.lookup_eq_some_iff_mem {κ β : Type} [BEq κ] [LawfulBEq κ] {key : κ} {value : β}
    {table : List (κ × β)} (mapping : (table.map Prod.fst).Nodup) :
    table.lookup key = some value ↔ (key, value) ∈ table := by
  constructor
  · exact mem_of_lookup
  · intro member
    obtain ⟨found, got⟩ := exists_lookup_of_mem member
    have same := List.inj_on_of_nodup_map mapping (mem_of_lookup got) member rfl
    rw [got, (Prod.mk.inj same).2]

namespace Delimiters

/-- The categories that play a role. -/
def ofRole (role : Role) : List Category := Category.all.filter (·.role = role)

theorem mem_ofRole {role : Role} {category : Category} :
    category ∈ ofRole role ↔ category.role = role := by
  simp [ofRole, Category.mem_all]

theorem nodup_ofRole (role : Role) : (ofRole role).Nodup := by
  cases role <;> decide

theorem length_ofRole : (ofRole .closer).length = (ofRole .opener).length := by decide

/-- A table that gives no closer two openers. -/
def IsMapping (delimiters : Delimiters) : Prop := (delimiters.pairs.map Prod.fst).Nodup

instance (delimiters : Delimiters) : Decidable delimiters.IsMapping :=
  inferInstanceAs (Decidable (delimiters.pairs.map Prod.fst).Nodup)

/-- A table that leads from the closers, and from nothing else, to all openers, and to nothing else,
and in which only openers are quote-like. -/
structure FitsRoles (delimiters : Delimiters) : Prop where
  keys : ∀ category, category ∈ delimiters.pairs.map Prod.fst ↔ category.role = .closer
  values : ∀ category, category ∈ delimiters.pairs.map Prod.snd ↔ category.role = .opener
  quoteLike : ∀ category ∈ delimiters.quoteLike, category.role = .opener

section Check

variable {delimiters : Delimiters}

theorem misplaced?_eq_none_iff {pairs : List (Category × Category)} :
    misplaced? pairs = none ↔
      ∀ entry ∈ pairs, entry.1.role = .closer ∧ entry.2.role = .opener := by
  induction pairs with
  | nil => simp [misplaced?]
  | cons entry rest ih =>
    obtain ⟨closer, opener⟩ := entry
    rw [misplaced?, List.forall_mem_cons]
    by_cases key : closer.role = .closer
    · by_cases value : opener.role = .opener
      · simp [key, value, ih]
      · simp [key, value]
    · simp [key]

/-- No category of a role is missing in a list. -/
theorem missing_eq_nil_iff (role : Role) (listed : List Category) :
    (Category.all.filter fun c => c.role = role && !listed.contains c) = [] ↔
      ∀ category : Category, category.role = role → category ∈ listed := by
  simp [List.filter_eq_nil_iff, Category.mem_all]

/-- The four parts of the check. -/
theorem check_eq_ok_iff_parts :
    delimiters.check = .ok () ↔
      (∀ category : Category, category.role = .closer →
        category ∈ delimiters.pairs.map Prod.fst) ∧
      (∀ entry ∈ delimiters.pairs, entry.1.role = .closer ∧ entry.2.role = .opener) ∧
      (∀ category : Category, category.role = .opener →
        category ∈ delimiters.pairs.map Prod.snd) ∧
      ∀ category ∈ delimiters.quoteLike, category.role = .opener := by
  rw [← missing_eq_nil_iff, ← misplaced?_eq_none_iff, ← missing_eq_nil_iff, check]
  split
  · rename_i unpaired
    refine ⟨?_, fun parts => absurd parts.1 unpaired⟩
    intro accepted
    cases accepted
  · rename_i paired
    split
    · rename_i fault misplaced
      rw [misplaced]
      refine ⟨?_, fun parts => absurd parts.2.1 (Option.some_ne_none fault)⟩
      intro accepted
      cases accepted
    · rename_i placed
      split
      · rename_i unclosable
        refine ⟨?_, fun parts => absurd parts.2.2.1 unclosable⟩
        intro accepted
        cases accepted
      · rename_i closable
        split
        · rename_i quoteLike
          refine ⟨fun _ => ⟨Decidable.not_not.mp paired, placed, Decidable.not_not.mp closable, ?_⟩,
            fun _ => rfl⟩
          simpa using quoteLike
        · rename_i other
          refine ⟨?_, fun parts => absurd parts.2.2.2 (by simpa using other)⟩
          intro accepted
          cases accepted

theorem check_eq_ok_iff : delimiters.check = .ok () ↔ delimiters.FitsRoles := by
  rw [check_eq_ok_iff_parts]
  constructor
  · rintro ⟨paired, placed, closable, quoteLike⟩
    refine ⟨fun category => ⟨?_, paired category⟩, fun category => ⟨?_, closable category⟩,
      quoteLike⟩
    · intro key
      obtain ⟨entry, member, rfl⟩ := List.mem_map.mp key
      exact (placed entry member).1
    · intro value
      obtain ⟨entry, member, rfl⟩ := List.mem_map.mp value
      exact (placed entry member).2
  · intro fits
    refine ⟨fun category => (fits.keys category).mpr, ?_,
      fun category => (fits.values category).mpr, fits.quoteLike⟩
    intro entry member
    exact ⟨(fits.keys _).mp (List.mem_map_of_mem member),
      (fits.values _).mp (List.mem_map_of_mem member)⟩

end Check

section Fitting

variable {delimiters : Delimiters} (fits : delimiters.FitsRoles) (mapping : delimiters.IsMapping)

include fits mapping

/-- No opener is given twice, since there are no more closers than openers. -/
theorem FitsRoles.nodup_values : (delimiters.pairs.map Prod.snd).Nodup := by
  have keys : (delimiters.pairs.map Prod.fst).Perm (ofRole .closer) :=
    (List.perm_ext_iff_of_nodup mapping (nodup_ofRole _)).mpr fun category =>
      (fits.keys category).trans mem_ofRole.symm
  have openers : ofRole .opener ⊆ delimiters.pairs.map Prod.snd := fun category member =>
    (fits.values category).mpr (mem_ofRole.mp member)
  have count : (delimiters.pairs.map Prod.snd).length ≤ (ofRole .opener).length := by
    have length := keys.length_eq
    rw [List.length_map] at length ⊢
    rw [length, length_ofRole]
  have values := (List.subperm_of_subset (nodup_ofRole _) openers).perm_of_length_le count
  exact values.nodup_iff.mp (nodup_ofRole _)

/-- What a table gives for a closer is told by its entries. -/
theorem FitsRoles.exists_opener {closer : Category} (closes : closer.role = .closer) :
    ∃ opener, opener.role = .opener ∧ delimiters.opener? closer = some opener := by
  obtain ⟨⟨key, opener⟩, member, rfl⟩ := List.mem_map.mp ((fits.keys closer).mpr closes)
  exact ⟨opener, (fits.values opener).mp (List.mem_map_of_mem member),
    (Assoc.lookup_eq_some_iff_mem mapping).mpr member⟩

theorem FitsRoles.exists_closer {opener : Category} (opens : opener.role = .opener) :
    ∃ closer, closer.role = .closer ∧ delimiters.opener? closer = some opener := by
  obtain ⟨⟨closer, value⟩, member, rfl⟩ := List.mem_map.mp ((fits.values opener).mpr opens)
  exact ⟨closer, (fits.keys closer).mp (List.mem_map_of_mem member),
    (Assoc.lookup_eq_some_iff_mem mapping).mpr member⟩

theorem FitsRoles.closer_unique {closer other opener : Category}
    (found : delimiters.opener? closer = some opener)
    (found' : delimiters.opener? other = some opener) : closer = other := by
  have same := List.inj_on_of_nodup_map (fits.nodup_values mapping) (Assoc.mem_of_lookup found)
    (Assoc.mem_of_lookup found') rfl
  exact (Prod.mk.inj same).1

omit mapping in
theorem FitsRoles.opener?_eq_none {category : Category} (other : category.role ≠ .closer) :
    delimiters.opener? category = none := by
  cases found : delimiters.opener? category with
  | none => rfl
  | some opener =>
    have key := List.mem_map_of_mem (f := Prod.fst) (Assoc.mem_of_lookup found)
    exact absurd ((fits.keys category).mp key) other

/-- A table that fits matches the closers with the openers. -/
theorem FitsRoles.exists_equiv :
    ∃ pairing : { c : Category // c.role = .closer } ≃ { c : Category // c.role = .opener },
      ∀ closer, delimiters.opener? closer.1 = some (pairing closer).1 := by
  have each : ∀ closer : { c : Category // c.role = .closer },
      ∃ opener : { c : Category // c.role = .opener },
        delimiters.opener? closer.1 = some opener.1 := by
    rintro ⟨closer, closes⟩
    obtain ⟨opener, opens, found⟩ := fits.exists_opener mapping closes
    exact ⟨⟨opener, opens⟩, found⟩
  choose pairing found using each
  have injective : Function.Injective pairing := by
    intro closer other same
    have found' := found other
    rw [← same] at found'
    exact Subtype.ext (fits.closer_unique mapping (found closer) found')
  have surjective : Function.Surjective pairing := by
    rintro ⟨opener, opens⟩
    obtain ⟨closer, closes, given⟩ := fits.exists_closer mapping opens
    refine ⟨⟨closer, closes⟩, Subtype.ext ?_⟩
    exact Option.some.inj ((found ⟨closer, closes⟩).symm.trans given)
  exact ⟨Equiv.ofBijective pairing ⟨injective, surjective⟩, found⟩

end Fitting

/-- The check accepts a table exactly when its keys are the closers, its values are the openers, and
only openers are quote-like. A mapping that is accepted matches closers and openers one to one:
every opener is closed by one closer and no other, and the opener that a category requires is refused for
those categories that are no closers, and only for them. -/
theorem accepted_pairings (delimiters : Delimiters) :
    (delimiters.check = .ok () ↔
      (∀ category, category ∈ delimiters.pairs.map Prod.fst ↔ category.role = .closer) ∧
      (∀ category, category ∈ delimiters.pairs.map Prod.snd ↔ category.role = .opener) ∧
      ∀ category ∈ delimiters.quoteLike, category.role = .opener) ∧
    (delimiters.IsMapping → delimiters.check = .ok () →
      (∃ pairing : { c : Category // c.role = .closer } ≃ { c : Category // c.role = .opener },
        ∀ closer, delimiters.opener? closer.1 = some (pairing closer).1) ∧
      (∀ opener : Category, opener.role = .opener →
        ∃! closer, delimiters.opener? closer = some opener) ∧
      ∀ category : Category,
        (category.role = .closer →
          ∃ opener, opener.role = .opener ∧ delimiters.requiredOpener category = .ok opener) ∧
        (category.role ≠ .closer →
          delimiters.requiredOpener category = .error (.notClosing category))) := by
  refine ⟨check_eq_ok_iff.trans ⟨?_, ?_⟩, ?_⟩
  · intro fits
    exact ⟨fits.keys, fits.values, fits.quoteLike⟩
  · rintro ⟨keys, values, quoteLike⟩
    exact ⟨keys, values, quoteLike⟩
  · intro mapping accepted
    have fits := check_eq_ok_iff.mp accepted
    refine ⟨fits.exists_equiv mapping, ?_, ?_⟩
    · intro opener opens
      obtain ⟨closer, _, found⟩ := fits.exists_closer mapping opens
      exact ⟨closer, found, fun other found' => fits.closer_unique mapping found' found⟩
    · intro category
      constructor
      · intro closes
        obtain ⟨opener, opens, found⟩ := fits.exists_opener mapping closes
        exact ⟨opener, opens, by rw [requiredOpener, found]⟩
      · intro other
        rw [requiredOpener, fits.opener?_eq_none other]

/-- A table that closes parentheses with a brace and braces with a parenthesis is accepted too. -/
theorem accepted_pairings_crossed :
    let crossed : Delimiters :=
      { pairs :=
          [(.closeBrace, .openParenthesis), (.closeParenthesis, .openBrace),
           (.closeBracket, .openBracket), (.closeAngle, .openAngle),
           (.closeDoubleQuote, .openDoubleQuote), (.closeSingleQuote, .openSingleQuote),
           (.closeBacktick, .openBacktick), (.closeBlockComment, .openBlockComment)]
        quoteLike := [] }
    crossed.IsMapping ∧ crossed.check = .ok () ∧
    (∃! closer, crossed.opener? closer = some .openParenthesis) ∧
    crossed.requiredOpener .closeBrace = .ok .openParenthesis ∧
    crossed.requiredOpener .openBrace = .error (.notClosing .openBrace) := by
  intro crossed
  have mapping : crossed.IsMapping := by decide
  have accepted : crossed.check = .ok () := by decide
  obtain ⟨_, closed, required⟩ := (accepted_pairings crossed).2 mapping accepted
  exact ⟨mapping, accepted, closed .openParenthesis rfl, by decide,
    (required .openBrace).2 (by decide)⟩

end Delimiters

end Astra
