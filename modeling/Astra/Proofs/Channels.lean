import Astra.Paint.Rendering
import Astra.Proofs.Pieces

/-!
# Channels of colors

Colors that were read, and colors that a policy made of them gives to tokens, have channels from 0
to 255. Nothing forces this on a color; it holds for how colors come into a policy.
-/

namespace Astra

/-- A color that a terminal can show. -/
def Rgb.InRange (color : Rgb) : Prop :=
  ∀ channel ∈ [color.red, color.green, color.blue], 0 ≤ channel ∧ channel ≤ 255

instance (color : Rgb) : Decidable color.InRange :=
  inferInstanceAs (Decidable (∀ channel ∈ [color.red, color.green, color.blue], _))

theorem Rgb.inRange_of_channels {red green blue : Int} (hred : 0 ≤ red ∧ red ≤ 255)
    (hgreen : 0 ≤ green ∧ green ≤ 255) (hblue : 0 ≤ blue ∧ blue ≤ 255) :
    (⟨red, green, blue⟩ : Rgb).InRange := by
  intro channel member
  simp only [List.mem_cons, List.not_mem_nil, or_false] at member
  rcases member with rfl | rfl | rfl
  · exact hred
  · exact hgreen
  · exact hblue

namespace Text

theorem Numeral.splitSign_of_not_mem {text : List Char} (unsigned : '-' ∉ text) :
    (splitSign text).1 = false := by
  unfold splitSign
  split
  · exact absurd List.mem_cons_self unsigned
  · rfl
  · rfl

/-- A numeral without a minus sign is not negative. -/
theorem Numeral.read_nonneg {text : List Char} {n : Int} (unsigned : '-' ∉ text)
    (found : Numeral.read text = .ok n) : 0 ≤ n := by
  have sign : (splitSign (text.dropWhile isMargin)).1 = false :=
    splitSign_of_not_mem fun member => unsigned ((List.dropWhile_suffix _).mem member)
  unfold Numeral.read at found
  split at found
  rename_i negative body hsplit
  rw [hsplit] at sign
  dsimp only at sign found
  subst sign
  split at found
  · cases found
  · split at found
    · cases found
    · split at found
      · cases found
        exact Int.natCast_nonneg _
      · cases found

end Text

namespace Color

theorem cubeLevel_inRange {n : Nat} (level : n ≤ 5) : 0 ≤ cubeLevel n ∧ cubeLevel n ≤ 255 := by
  rw [cubeLevel]
  split <;> omega

theorem ofNumber_inRange {n : Nat} (small : n ≤ 255) : (ofNumber n).InRange := by
  rw [ofNumber]
  split
  · have basic : ∀ color ∈ basicColors, color.InRange := by decide
    rename_i low
    have bound : n < basicColors.length := low
    rw [List.getD_eq_getElem?_getD, List.getElem?_eq_getElem bound, Option.getD_some]
    exact basic _ (List.getElem_mem bound)
  · split
    · exact Rgb.inRange_of_channels (cubeLevel_inRange (by omega)) (cubeLevel_inRange (by omega))
        (cubeLevel_inRange (by omega))
    · exact Rgb.inRange_of_channels (by omega) (by omega) (by omega)

theorem numberOfName?_le {name : List Char} {n : Nat} (found : numberOfName? name = some n) :
    n ≤ 255 := by
  have all : ∀ entry ∈ names, entry.2 ≤ 255 := by decide +kernel
  exact all _ (Assoc.mem_of_lookup found)

theorem hexValue?_le {c : Char} {n : Nat} (found : hexValue? c = some n) : n ≤ 15 := by
  unfold hexValue? at found
  split at found
  · rename_i digit
    have high : c.toNat ≤ '9'.toNat := digit.2
    cases found
    show c.toNat - 48 ≤ 15
    have : '9'.toNat = 57 := rfl
    omega
  · split at found
    · rename_i letter
      have high : c.toNat ≤ 'f'.toNat := letter.2
      cases found
      show c.toNat - 97 + 10 ≤ 15
      have : 'f'.toNat = 102 := rfl
      omega
    · cases found

theorem mapM_hexValue?_le {digits : List Char} {values : List Nat}
    (found : digits.mapM hexValue? = some values) : ∀ n ∈ values, n ≤ 15 := by
  induction digits generalizing values with
  | nil =>
    simp only [List.mapM_nil, Option.pure_def, Option.some.injEq] at found
    subst found
    simp
  | cons c rest ih =>
    simp only [List.mapM_cons, Option.pure_def, Option.bind_eq_bind, Option.bind_eq_some_iff,
      Option.some.injEq] at found
    obtain ⟨first, hfirst, later, hlater, rfl⟩ := found
    intro n member
    rcases List.mem_cons.mp member with rfl | hn
    · exact hexValue?_le hfirst
    · exact ih hlater n hn

theorem ofHex?_inRange {digits : List Char} {color : Rgb} (found : ofHex? digits = some color) :
    color.InRange := by
  unfold ofHex? at found
  obtain ⟨values, hvalues, hcolor⟩ := Option.bind_eq_some_iff.mp found
  have small := mapM_hexValue?_le hvalues
  split at hcolor
  · rename_i r1 r2 g1 g2 b1 b2
    cases hcolor
    have hr1 := small r1 (by simp)
    have hr2 := small r2 (by simp)
    have hg1 := small g1 (by simp)
    have hg2 := small g2 (by simp)
    have hb1 := small b1 (by simp)
    have hb2 := small b2 (by simp)
    exact Rgb.inRange_of_channels (by omega) (by omega) (by omega)
  · cases hcolor

theorem readChannel_nonneg {part : List Char} {n : Int} (unsigned : '-' ∉ part)
    (found : readChannel part = .ok n) : 0 ≤ n := by
  unfold readChannel at found
  cases hread : Text.Numeral.read part with
  | error fault =>
    rw [hread] at found
    cases found
  | ok value =>
    rw [hread] at found
    cases found
    exact Text.Numeral.read_nonneg unsigned hread

/-- No list of channels has a sign in it. -/
theorem unsigned_of_isChannelList {body : List Char} (channels : isChannelList body = true) :
    '-' ∉ body := by
  intro member
  unfold isChannelList at channels
  have sign := List.all_eq_true.mp (Bool.and_eq_true_iff.mp channels).2 '-' member
  exact absurd sign (by decide)

theorem ofChannels_inRange {value body : List Char} {color : Rgb}
    (channels : isChannelList body = true) (found : ofChannels value body = .ok color) :
    color.InRange := by
  have unsigned : ∀ part ∈ body.splitOn ',', '-' ∉ part := fun part member sign =>
    unsigned_of_isChannelList channels (Text.mem_of_mem_splitOn member sign)
  unfold ofChannels at found
  split at found
  · rename_i r g b hsplit
    rw [hsplit] at unsigned
    obtain ⟨red, hr, found⟩ := Text.bind_eq_ok_iff.mp found
    obtain ⟨green, hg, found⟩ := Text.bind_eq_ok_iff.mp found
    obtain ⟨blue, hb, found⟩ := Text.bind_eq_ok_iff.mp found
    dsimp only at found
    split at found
    · rename_i bounds
      cases found
      exact Rgb.inRange_of_channels
        ⟨readChannel_nonneg (unsigned r (by simp)) hr, bounds.1⟩
        ⟨readChannel_nonneg (unsigned g (by simp)) hg, bounds.2.1⟩
        ⟨readChannel_nonneg (unsigned b (by simp)) hb, bounds.2.2⟩
    · cases found
  · cases found

theorem read_inRange {value : List Char} {color : Rgb} (found : read value = .ok color) :
    color.InRange := by
  simp only [read] at found
  split at found
  · cases found
    decide
  · split at found
    · rename_i n hname
      cases found
      exact ofNumber_inRange (numberOfName?_le hname)
    · split at found
      · split at found
        · rename_i hhex
          cases found
          exact ofHex?_inRange hhex
        · cases found
      · split at found
        · split at found
          · rename_i small
            cases found
            exact ofNumber_inRange small
          · cases found
        · split at found
          · split at found
            · rename_i channels
              exact ofChannels_inRange channels found
            · cases found
          · cases found

end Color

section Policies

/-- A policy all of whose colors a terminal can show. -/
structure Policy.InRange (policy : Policy) : Prop where
  base : ∀ category color, policy.base category = some color → color.InRange
  fallback : policy.fallback.InRange
  mismatch : policy.mismatch.InRange
  contentTint : ∀ category color, policy.contentTint category = some color → color.InRange
  mismatchTint : ∀ category color, policy.mismatchTint category = some color → color.InRange

theorem Policy.standard_inRange : Policy.standard.InRange where
  base category color found := by cases category <;> cases found <;> decide
  fallback := by decide
  mismatch := by decide
  contentTint category color found := by cases category <;> cases found <;> decide
  mismatchTint category color found := by cases category <;> cases found <;> decide

theorem Policy.override_inRange {policy : Policy} {overrides : Overrides}
    (proper : policy.InRange)
    (given : ∀ category color, overrides.lookup category = some color → color.InRange) :
    (policy.override overrides).InRange where
  base category color found := by
    rcases Option.or_eq_some_iff.mp found with hgiven | ⟨_, hbase⟩
    · exact given category color hgiven
    · exact proper.base category color hbase
  fallback := proper.fallback
  mismatch := proper.mismatch
  contentTint := proper.contentTint
  mismatchTint := proper.mismatchTint

theorem Overrides.readEntry_inRange {name : List Char} {candidate : Candidate}
    {category : Category} {color : Rgb} (found : readEntry name candidate = .ok (category, color)) :
    color.InRange := by
  unfold readEntry at found
  split at found
  · cases found
  · cases found
  · split at found
    · rename_i hread
      cases found
      exact Color.read_inRange hread
    · cases found

/-- Reading a table of colors adds colors in range to those there are. -/
theorem Overrides.readOnto_inRange {table : List (List Char × Candidate)}
    {before after : Overrides} (found : readOnto before table = .ok after)
    (proper : ∀ category color, before.lookup category = some color → color.InRange) :
    ∀ category color, after.lookup category = some color → color.InRange := by
  induction table generalizing before with
  | nil =>
    cases found
    exact proper
  | cons entry rest ih =>
    obtain ⟨name, candidate⟩ := entry
    rw [readOnto] at found
    split at found
    · rename_i category color hentry
      refine ih found ?_
      intro other shade hget
      rw [Assoc.lookup_put] at hget
      split at hget
      · cases hget
        exact readEntry_inRange hentry
      · exact proper other shade hget
    · cases found

/-- A policy that is made from a table of colors can be shown. -/
theorem Policy.inRange_of_read {table : List (List Char × Candidate)} {overrides : Overrides}
    (parsed : Overrides.read table = .ok overrides) :
    (Policy.standard.override overrides).InRange :=
  Policy.override_inRange Policy.standard_inRange
    (Overrides.readOnto_inRange parsed fun _ _ none => by cases none)

namespace Policy

variable {policy : Policy} (proper : policy.InRange)

include proper

theorem colorOf_inRange (category : Category) : (policy.colorOf category).InRange := by
  rw [Policy.colorOf]
  cases hbase : policy.base category with
  | none => exact proper.fallback
  | some color => exact proper.base category color hbase

theorem contentColor_inRange (scope : Option Category) {default : Rgb} (given : default.InRange) :
    (policy.contentColor scope default).InRange := by
  rw [Policy.contentColor]
  cases htint : scope.bind policy.contentTint with
  | none => exact given
  | some color =>
    obtain ⟨category, _, hcolor⟩ := Option.bind_eq_some_iff.mp htint
    exact proper.contentTint category color hcolor

theorem mismatchColor_inRange (scope : Option Category) :
    (policy.mismatchColor scope).InRange := by
  rw [Policy.mismatchColor]
  cases htint : scope.bind policy.mismatchTint with
  | none => exact proper.mismatch
  | some color =>
    obtain ⟨category, _, hcolor⟩ := Option.bind_eq_some_iff.mp htint
    exact proper.mismatchTint category color hcolor

/-- A token is painted in a color that a terminal can show. -/
theorem resolve_inRange (tracker : Tracker) (token : Token) :
    (Rendering.resolve policy tracker token).1.InRange := by
  have base := colorOf_inRange proper token.category
  rw [Rendering.resolve]
  cases token.role with
  | opener =>
    dsimp only
    split
    · exact base
    · exact contentColor_inRange proper _ base
  | closer =>
    dsimp only
    split
    · exact base
    · exact mismatchColor_inRange proper _
  | plain => exact contentColor_inRange proper _ base

end Policy

end Policies

end Astra
