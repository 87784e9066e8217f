import Astra.Proofs.Channels
import Astra.Proofs.Characters
import Astra.Proofs.Configurations
import Astra.Proofs.Quotations

/-!
# Texts of colors

What the texts of colors are read as. A text is a color that a terminal can show or it is refused,
with one exception: a list of three channels of which one is no numeral breaks the reader. Tables of
colors by category inherit this from their first bad entry.
-/

namespace Astra

namespace Text

namespace Numeral

/-- Decimal digits, not too many of them, with blanks around. -/
def Readable (text : List Char) : Prop :=
  ∃ left digits right, text = left ++ (digits ++ right) ∧ left.all isMargin = true ∧
    digits.all isDecimal = true ∧ right.all isMargin = true ∧ digits ≠ [] ∧
    digits.length ≤ maxDigits

theorem not_isDecimal_of_isMargin {c : Char} (margin : isMargin c = true) :
    isDecimal c = false := by
  have other := not_isAlphanumeric_of_isBlank (Bool.and_eq_true_iff.mp margin).1
  simp only [isAlphanumeric, isDigit, Bool.or_eq_false_iff] at other
  exact other.1.2.1

/-- A text without signs and underscores, such as a channel. -/
def Bare (text : List Char) : Prop := ∀ c ∈ ['-', '+', '_'], c ∉ text

theorem splitSign_of_bare {text : List Char} (bare : Bare text) :
    splitSign text = (false, text) := by
  unfold splitSign
  split
  · exact absurd List.mem_cons_self (bare '-' (by decide))
  · exact absurd List.mem_cons_self (bare '+' (by decide))
  · rfl

theorem digitValues_of_decimals {digits : List Char} (decimal : digits.all isDecimal = true)
    (present : digits ≠ []) :
    ∃ values, digitValues digits = some values ∧ values.length = digits.length := by
  induction digits with
  | nil => exact absurd rfl present
  | cons c rest ih =>
    obtain ⟨first, later⟩ := Bool.and_eq_true_iff.mp (List.all_cons ▸ decimal)
    obtain ⟨value, hvalue⟩ := Option.isSome_iff_exists.mp first
    cases rest with
    | nil => exact ⟨[value], by rw [digitValues, hvalue]; rfl, rfl⟩
    | cons d more =>
      obtain ⟨values, hvalues, length⟩ := ih later (List.cons_ne_nil d more)
      have digit : d ≠ '_' := by
        rintro rfl
        cases (Bool.and_eq_true_iff.mp (List.all_cons ▸ later)).1
      refine ⟨value :: values, ?_, congrArg (· + 1) length⟩
      rw [digitValues, hvalue, hvalues]
      · rfl
      · exact List.cons_ne_nil d more
      · intro other same
        exact digit (List.cons.inj same).1

theorem takeWhile_of_bare {text : List Char} (bare : Bare text) :
    text.takeWhile (fun c => isDecimal c || c = '_') = text.takeWhile isDecimal ∧
      text.dropWhile (fun c => isDecimal c || c = '_') = text.dropWhile isDecimal := by
  induction text with
  | nil => exact ⟨rfl, rfl⟩
  | cons c rest ih =>
    have first : c ≠ '_' := fun same => bare '_' (by decide) (same ▸ List.mem_cons_self)
    obtain ⟨taken, dropped⟩ :=
      ih fun other listed member => bare other listed (List.mem_cons_of_mem c member)
    simp only [List.takeWhile_cons, List.dropWhile_cons, taken, dropped, first, decide_false,
      Bool.or_false, and_self]

/-- A text without signs and underscores is read if digits come after its blanks and then blanks
only. -/
theorem exists_read_iff {text : List Char} (bare : Bare text) :
    (∃ n, Numeral.read text = .ok n) ↔
      (text.dropWhile isMargin).takeWhile isDecimal ≠ [] ∧
      ((text.dropWhile isMargin).takeWhile isDecimal).length ≤ maxDigits ∧
      ((text.dropWhile isMargin).dropWhile isDecimal).all isMargin = true := by
  have rest : Bare (text.dropWhile isMargin) := fun c listed member =>
    bare c listed ((List.dropWhile_suffix _).mem member)
  obtain ⟨taken, dropped⟩ := takeWhile_of_bare rest
  unfold Numeral.read
  simp only [splitSign_of_bare rest, taken, dropped]
  by_cases present : (text.dropWhile isMargin).takeWhile isDecimal = []
  · simp [present, digitValues]
  · obtain ⟨values, hvalues, length⟩ := digitValues_of_decimals (List.all_takeWhile) present
    simp only [hvalues, length]
    split
    · rename_i long
      constructor
      · rintro ⟨n, found⟩
        cases found
      · rintro ⟨_, short, _⟩
        omega
    · rename_i short
      split
      · rename_i blanks
        exact ⟨fun _ => ⟨present, Nat.le_of_not_lt short, blanks⟩, fun _ => ⟨_, rfl⟩⟩
      · rename_i other
        constructor
        · rintro ⟨n, found⟩
          cases found
        · rintro ⟨_, _, blanks⟩
          exact absurd blanks other

/-- A text without signs and underscores is read if it is a numeral in plain form. -/
theorem exists_read_iff_readable {text : List Char} (bare : Bare text) :
    (∃ n, Numeral.read text = .ok n) ↔ Readable text := by
  rw [exists_read_iff bare]
  constructor
  · rintro ⟨present, short, blanks⟩
    refine ⟨text.takeWhile isMargin, _, _, ?_, List.all_takeWhile, List.all_takeWhile, blanks,
      present, short⟩
    rw [List.takeWhile_append_dropWhile, List.takeWhile_append_dropWhile]
  · rintro ⟨left, digits, right, rfl, before, decimal, blanks, present, short⟩
    obtain ⟨c, more, rfl⟩ := List.exists_cons_of_ne_nil present
    have first : isMargin c ≠ true := by
      intro margin
      have digit := (Bool.and_eq_true_iff.mp (List.all_cons ▸ decimal)).1
      rw [not_isDecimal_of_isMargin margin] at digit
      cases digit
    have rest : (left ++ (c :: more ++ right)).dropWhile isMargin = c :: more ++ right := by
      rw [List.dropWhile_append_of_pos (List.all_eq_true.mp before), List.cons_append,
        List.dropWhile_cons_of_neg first]
    have stop : right.takeWhile isDecimal = [] ∧ right.dropWhile isDecimal = right := by
      cases right with
      | nil => exact ⟨rfl, rfl⟩
      | cons d others =>
        have margin := (Bool.and_eq_true_iff.mp (List.all_cons ▸ blanks)).1
        have other : ¬ isDecimal d = true := by
          rw [not_isDecimal_of_isMargin margin]
          exact Bool.false_ne_true
        exact ⟨List.takeWhile_cons_of_neg other, List.dropWhile_cons_of_neg other⟩
    have digits := List.all_eq_true.mp decimal
    rw [rest, List.takeWhile_append_of_pos digits, List.dropWhile_append_of_pos digits, stop.1,
      stop.2, List.append_nil]
    exact ⟨present, short, blanks⟩

end Numeral

theorem trimWhile_of_solid {p : Char → Bool} {text : List Char} (solid : ∀ c ∈ text, ¬ p c = true) :
    trimWhile p text = text := by
  have kept : ∀ other : List Char, (∀ c ∈ other, ¬ p c = true) → other.dropWhile p = other := by
    intro other free
    cases other with
    | nil => rfl
    | cons c rest => exact List.dropWhile_cons_of_neg (free c List.mem_cons_self)
  rw [trimWhile, kept text solid,
    kept text.reverse fun c member => solid c (List.mem_reverse.mp member), List.reverse_reverse]

end Text

namespace Color

theorem argument?_eq_some_iff {start text body : List Char} :
    argument? start text = some body ↔ text = start ++ (body ++ [')']) := by
  rw [argument?]
  constructor
  · intro found
    split at found
    · rename_i begins
      obtain ⟨rest, rfl⟩ := List.isPrefixOf_iff_prefix.mp begins
      rw [List.drop_left] at found
      split at found
      · rename_i inner reversed
        cases found
        rw [← List.reverse_reverse rest, reversed, List.reverse_cons]
      · cases found
    · cases found
  · rintro rfl
    rw [if_pos (List.isPrefixOf_iff_prefix.mpr (List.prefix_append _ _)), List.drop_left,
      List.reverse_append]
    show some body.reverse.reverse = some body
    rw [List.reverse_reverse]

/-- Names of colors have no number sign and no parenthesis. -/
theorem numberOfName?_of_mem {name : List Char} (marked : '#' ∈ name ∨ '(' ∈ name) :
    numberOfName? name = none := by
  -- the table is searched byte by byte, which spares the kernel the decoding of all names
  have all : ∀ entry ∈ names, entry.1.toByteArray.data.toList.all (fun b => b ≠ 35 ∧ b ≠ 40) := by
    decide +kernel
  cases found : numberOfName? name with
  | none => rfl
  | some n =>
    have plain := List.all_eq_true.mp (all _ (Assoc.mem_of_lookup found))
    rcases marked with sign | parenthesis
    · have byte := plain 35 (Text.mem_bytes sign (by decide))
      exact absurd rfl (of_decide_eq_true byte).1
    · have byte := plain 40 (Text.mem_bytes parenthesis (by decide))
      exact absurd rfl (of_decide_eq_true byte).2

/-- A text that breaks the reader: a list of three channels, not all of them numerals. -/
def Breaks (value : List Char) : Prop :=
  ∃ body, normalize value = "rgb(".toList ++ (body ++ [')']) ∧ isChannelList body = true ∧
    (body.splitOn ',').length = 3 ∧
    ∃ part ∈ body.splitOn ',', ¬ Text.Numeral.Readable part

/-- Whether a fault is a complaint about the text of a color, and not a breakdown in reading one of
its channels. -/
def Fault.isRefusal : Fault → Bool
  | channel _ _ => false
  | _ => true

theorem bare_of_isChannelList {body part : List Char} (channels : isChannelList body = true)
    (member : part ∈ body.splitOn ',') : Text.Numeral.Bare part := by
  intro c listed inside
  have proper := List.all_eq_true.mp (Bool.and_eq_true_iff.mp channels).2 c
    (Text.mem_of_mem_splitOn member inside)
  simp only [List.mem_cons, List.not_mem_nil, or_false] at listed
  rcases listed with rfl | rfl | rfl <;> exact absurd proper (by decide)

theorem readChannel_cases {part : List Char} (bare : Text.Numeral.Bare part) :
    (Text.Numeral.Readable part ∧ ∃ n, readChannel part = .ok n) ∨
    (¬ Text.Numeral.Readable part ∧ ∃ cause, readChannel part = .error (.channel part cause)) := by
  rw [← Text.Numeral.exists_read_iff_readable bare, readChannel]
  cases Text.Numeral.read part with
  | ok n => exact .inl ⟨⟨n, rfl⟩, n, rfl⟩
  | error cause =>
    refine .inr ⟨?_, cause, rfl⟩
    rintro ⟨n, found⟩
    cases found

/-- Three channels break the reader if one of them is no numeral. -/
theorem ofChannels_breaks_iff {value body : List Char} (channels : isChannelList body = true) :
    (∃ fault, ofChannels value body = .error fault ∧ fault.isRefusal = false) ↔
      (body.splitOn ',').length = 3 ∧
        ∃ part ∈ body.splitOn ',', ¬ Text.Numeral.Readable part := by
  have bare : ∀ part ∈ body.splitOn ',', Text.Numeral.Bare part := fun part member =>
    bare_of_isChannelList channels member
  unfold ofChannels
  split
  · rename_i r g b split
    rw [split] at bare
    rw [split]
    -- channels are read from the left, and the first one that is no numeral breaks the reader
    rcases readChannel_cases (bare r (by simp)) with ⟨goodR, red, hr⟩ | ⟨badR, cause, hr⟩
    · rcases readChannel_cases (bare g (by simp)) with ⟨goodG, green, hg⟩ | ⟨badG, cause, hg⟩
      · rcases readChannel_cases (bare b (by simp)) with ⟨goodB, blue, hb⟩ | ⟨badB, cause, hb⟩
        · rw [hr, hg, hb]
          constructor
          · rintro ⟨fault, found, breaks⟩
            simp only [bind, Except.bind] at found
            split at found
            · cases found
            · cases found
              cases breaks
          · rintro ⟨_, part, member, bad⟩
            simp only [List.mem_cons, List.not_mem_nil, or_false] at member
            rcases member with rfl | rfl | rfl
            · exact absurd goodR bad
            · exact absurd goodG bad
            · exact absurd goodB bad
        · rw [hr, hg, hb]
          exact iff_of_true ⟨_, rfl, rfl⟩ ⟨rfl, b, by simp, badB⟩
      · rw [hr, hg]
        exact iff_of_true ⟨_, rfl, rfl⟩ ⟨rfl, g, by simp, badG⟩
    · rw [hr]
      exact iff_of_true ⟨_, rfl, rfl⟩ ⟨rfl, r, by simp, badR⟩
  · rename_i other
    constructor
    · rintro ⟨fault, found, breaks⟩
      cases found
      cases breaks
    · rintro ⟨three, _⟩
      obtain ⟨r, g, b, split⟩ := List.length_eq_three.mp three
      exact absurd split (other r g b)

/-- A text in the form of a list of channels is read as nothing else. -/
theorem read_of_rgb {value body : List Char}
    (form : normalize value = "rgb(".toList ++ (body ++ [')'])) :
    read value = if isChannelList body then ofChannels value body else .error (.unknown value) := by
  have name : numberOfName? (normalize value) = none := by
    rw [form]
    exact numberOfName?_of_mem (.inr (List.mem_append_left _ (by decide)))
  have number : argument? "color(".toList (normalize value) = none := by
    rw [form]
    rfl
  have channels : argument? "rgb(".toList (normalize value) = some body :=
    argument?_eq_some_iff.mpr form
  have unnamed : normalize value ≠ "default".toList := by
    rw [form]
    intro same
    cases same
  simp only [read, if_neg unnamed, name, number, channels]
  rw [form]
  rfl

/-- The reader breaks on lists of channels only. -/
theorem rgb_of_breaks {value : List Char} {fault : Fault} (found : read value = .error fault)
    (breaks : fault.isRefusal = false) :
    ∃ body, normalize value = "rgb(".toList ++ (body ++ [')']) ∧ isChannelList body = true := by
  -- every other form ends with a color or with a complaint
  simp only [read] at found
  split at found
  · cases found
  · split at found
    · cases found
    · split at found
      · split at found
        · cases found
        · cases found
          cases breaks
      · split at found
        · split at found
          · cases found
          · cases found
            cases breaks
        · split at found
          · rename_i body form
            split at found
            · rename_i channels
              exact ⟨body, argument?_eq_some_iff.mp form, channels⟩
            · cases found
              cases breaks
          · cases found
            cases breaks

theorem read_breaks_iff {value : List Char} :
    (∃ fault, read value = .error fault ∧ fault.isRefusal = false) ↔ Breaks value := by
  constructor
  · rintro ⟨fault, found, breaks⟩
    obtain ⟨body, form, channels⟩ := rgb_of_breaks found breaks
    rw [read_of_rgb form, if_pos channels] at found
    exact ⟨body, form, channels, (ofChannels_breaks_iff channels).mp ⟨fault, found, breaks⟩⟩
  · rintro ⟨body, form, channels, unread⟩
    rw [read_of_rgb form, if_pos channels]
    exact (ofChannels_breaks_iff channels).mpr unread

/-- A text is read as a color in range or refused unless it breaks the reader. -/
theorem answered_iff {value : List Char} :
    (∃ color, read value = .ok color ∧ color.InRange) ∨
        (∃ fault, read value = .error fault ∧ fault.isRefusal = true) ↔ ¬ Breaks value := by
  rw [← read_breaks_iff]
  cases found : read value with
  | ok color => simp [read_inRange found]
  | error fault => cases fault.isRefusal <;> simp

theorem lowerCase_digitChar : ∀ d < 16, Text.lowerCase (Nat.digitChar d) = Nat.digitChar d := by
  decide

theorem isBlank_digitChar : ∀ d < 16, Text.isBlank (Nat.digitChar d) = false := by decide

/-- A channel in range is written in two digits. -/
theorem channelHex_eq {x : Int} (shown : 0 ≤ x ∧ x ≤ 255) :
    ∃ high low : Nat, high < 16 ∧ low < 16 ∧ x = 16 * high + low ∧
      Rgb.channelHex x = [Nat.digitChar high, Nat.digitChar low] := by
  obtain ⟨n, rfl⟩ := Int.eq_ofNat_of_zero_le shown.1
  have small : n / 16 < 16 := by omega
  refine ⟨n / 16, n % 16, small, by omega, by omega, ?_⟩
  show Text.hexadecimal 2 n = _
  rw [Text.hexadecimal_succ, Text.hexadecimal, Nat.toDigits_of_lt_base small]
  rfl

/-- Digits of base sixteen after a number sign are in lower case and have no blanks. -/
theorem normalize_hash {digits : List Nat} (small : ∀ d ∈ digits, d < 16) :
    normalize ('#' :: digits.map Nat.digitChar) = '#' :: digits.map Nat.digitChar := by
  have lower : (digits.map Nat.digitChar).map Text.lowerCase = digits.map Nat.digitChar := by
    rw [List.map_map]
    exact List.map_congr_left fun d member => lowerCase_digitChar d (small d member)
  have solid : ∀ c ∈ '#' :: digits.map Nat.digitChar, ¬ Text.isBlank c = true := by
    intro c member
    rcases List.mem_cons.mp member with rfl | later
    · decide
    · obtain ⟨d, listed, rfl⟩ := List.mem_map.mp later
      rw [isBlank_digitChar d (small d listed)]
      exact Bool.false_ne_true
  rw [normalize, List.map_cons, lower]
  exact Text.trimWhile_of_solid solid

/-- A color in range is read back from its digits. -/
theorem read_hex {color : Rgb} (shown : color.InRange) : read color.hex = .ok color := by
  obtain ⟨red, green, blue⟩ := color
  obtain ⟨a, b, ha, hb, rfl, hr⟩ := channelHex_eq (shown red (by simp))
  obtain ⟨c, d, hc, hd, rfl, hg⟩ := channelHex_eq (shown green (by simp))
  obtain ⟨e, f, he, hf, rfl, hbl⟩ := channelHex_eq (shown blue (by simp))
  have small : ∀ n ∈ [a, b, c, d, e, f], n < 16 := by simp [ha, hb, hc, hd, he, hf]
  have text : Rgb.hex ⟨16 * a + b, 16 * c + d, 16 * e + f⟩ =
      '#' :: [a, b, c, d, e, f].map Nat.digitChar := by
    simp only [Rgb.hex, hr, hg, hbl]
    rfl
  have name := numberOfName?_of_mem
    (.inl (List.mem_cons_self (a := '#') (l := [a, b, c, d, e, f].map Nat.digitChar)))
  have digits : ofHex? ([a, b, c, d, e, f].map Nat.digitChar) =
      some ⟨16 * a + b, 16 * c + d, 16 * e + f⟩ := by
    rw [ofHex?, Text.mapM_hexValue?_digitChar small]
    rfl
  have unnamed : '#' :: [a, b, c, d, e, f].map Nat.digitChar ≠ "default".toList := by
    intro same
    cases same
  simp only [read, text, normalize_hash small, if_neg unnamed, name, digits]

end Color

/-- Whether a fault in a table is a complaint, and not a breakdown in reading a channel. -/
def OverrideFault.isRefusal : OverrideFault → Bool
  | color fault => fault.isRefusal
  | _ => true

namespace Overrides

/-- A category is named by its own name in any letter case. -/
theorem category?_eq_some_iff {name : List Char} {category : Category} :
    category? name = some category ↔ name.flatMap Text.upperCase = category.name.toList := by
  rw [category?, Category.ofName?]
  constructor
  · intro found
    exact (eq_of_beq (List.find?_eq_some_iff_append.mp found).1).symm
  · intro same
    have present : (Category.all.find? fun other =>
        other.name.toList == name.flatMap Text.upperCase).isSome = true := by
      rw [List.find?_isSome]
      exact ⟨category, category.mem_all, beq_iff_eq.mpr same.symm⟩
    obtain ⟨other, found⟩ := Option.isSome_iff_exists.mp present
    have named := eq_of_beq (List.find?_eq_some_iff_append.mp found).1
    have equal : other = category :=
      Category.name_injective (String.toList_injective (named.trans same))
    rw [found, equal]

/-- What is wrong with an entry of a table of colors. -/
inductive EntryFault : List Char × Candidate → OverrideFault → Prop where
  | unknown {name : List Char} {candidate : Candidate} (unnamed : category? name = none) :
      EntryFault (name, candidate) (.unknownCategory name)
  | notText {name : List Char} {category : Category} {kind : String}
      (named : category? name = some category) :
      EntryFault (name, .other kind) (.notText name kind)
  | color {name value : List Char} {category : Category} {fault : Color.Fault}
      (named : category? name = some category) (bad : Color.read value = .error fault) :
      EntryFault (name, .text value) (.color fault)

/-- An entry that gives a category a color. -/
def Gives (entry : List Char × Candidate) (category : Category) (color : Rgb) : Prop :=
  category? entry.1 = some category ∧
    ∃ value, entry.2 = .text value ∧ Color.read value = .ok color

theorem readEntry_eq_error_iff {entry : List Char × Candidate} {fault : OverrideFault} :
    readEntry entry.1 entry.2 = .error fault ↔ EntryFault entry fault := by
  obtain ⟨name, candidate⟩ := entry
  dsimp only
  constructor
  · intro found
    unfold readEntry at found
    split at found
    · rename_i unnamed
      cases found
      exact .unknown unnamed
    · rename_i named
      cases found
      exact .notText named
    · rename_i named
      split at found
      · cases found
      · rename_i bad
        cases found
        exact .color named bad
  · intro fault
    cases fault with
    | unknown unnamed => simp only [readEntry, unnamed]
    | notText named => simp only [readEntry, named]
    | color named bad => simp only [readEntry, named, bad]

theorem readEntry_eq_ok_iff {entry : List Char × Candidate} {category : Category} {color : Rgb} :
    readEntry entry.1 entry.2 = .ok (category, color) ↔ Gives entry category color := by
  obtain ⟨name, candidate⟩ := entry
  dsimp only
  constructor
  · intro found
    unfold readEntry at found
    split at found
    · cases found
    · cases found
    · rename_i category value named
      split at found
      · rename_i good
        cases found
        exact ⟨named, value, rfl, good⟩
      · cases found
  · rintro ⟨named, value, rfl, good⟩
    simp only [readEntry, named, good]

/-- What a table adds to the colors there are: each category has the color of the last entry that
names it. -/
theorem lookup_readOnto {table : List (List Char × Candidate)} {before after : Overrides}
    (found : readOnto before table = .ok after) (category : Category) (color : Rgb) :
    after.lookup category = some color ↔
      (∃ front entry back, table = front ++ entry :: back ∧ Gives entry category color ∧
        ∀ later ∈ back, category? later.1 ≠ some category) ∨
      (before.lookup category = some color ∧
        ∀ entry ∈ table, category? entry.1 ≠ some category) := by
  induction table generalizing before with
  | nil =>
    cases found
    simp
  | cons entry rest ih =>
    obtain ⟨name, candidate⟩ := entry
    rw [readOnto] at found
    split at found
    · rename_i named shade good
      -- the first entry counts only if no later one names its category
      rw [ih found, Assoc.lookup_put]
      have gives : Gives (name, candidate) named shade := readEntry_eq_ok_iff.mp good
      constructor
      · rintro (⟨front, entry, back, rfl, given, last⟩ | ⟨hget, unnamed⟩)
        · exact .inl ⟨(name, candidate) :: front, entry, back, rfl, given, last⟩
        · by_cases same : named = category
          · rw [if_pos same] at hget
            cases hget
            exact .inl ⟨[], (name, candidate), rest, rfl, same ▸ gives, unnamed⟩
          · rw [if_neg same] at hget
            refine .inr ⟨hget, List.forall_mem_cons.mpr ⟨?_, unnamed⟩⟩
            intro again
            exact same (Option.some.inj (gives.1.symm.trans again))
      · rintro (⟨front, entry, back, split, given, last⟩ | ⟨hget, unnamed⟩)
        · cases front with
          | nil =>
            cases split
            cases good.symm.trans (readEntry_eq_ok_iff.mpr given)
            exact .inr ⟨if_pos rfl, last⟩
          | cons first front =>
            cases split
            exact .inl ⟨front, entry, back, rfl, given, last⟩
        · obtain ⟨other, unnamed⟩ := List.forall_mem_cons.mp unnamed
          have differ : named ≠ category := by
            rintro rfl
            exact other gives.1
          rw [if_neg differ]
          exact .inr ⟨hget, unnamed⟩
    · cases found

/-- A table breaks the reader with the text of a color only, in an entry for a known category. -/
theorem EntryFault.isRefusal_eq_false_iff {entry : List Char × Candidate} {fault : OverrideFault}
    (bad : EntryFault entry fault) :
    fault.isRefusal = false ↔
      ∃ value, (category? entry.1).isSome ∧ entry.2 = .text value ∧ Color.Breaks value := by
  cases bad with
  | unknown unnamed => simp [OverrideFault.isRefusal, unnamed]
  | notText named => simp [OverrideFault.isRefusal]
  | @color name value category fault named unread =>
    rw [OverrideFault.isRefusal]
    constructor
    · intro breaks
      exact ⟨value, Option.isSome_of_eq_some named, rfl,
        Color.read_breaks_iff.mp ⟨fault, unread, breaks⟩⟩
    · rintro ⟨text, _, same, breaks⟩
      cases same
      obtain ⟨other, found, broken⟩ := Color.read_breaks_iff.mpr breaks
      cases unread.symm.trans found
      exact broken

theorem exists_gives_iff {entry : List Char × Candidate} :
    (∃ category color, Gives entry category color) ↔
      ∃ color, readEntry entry.1 entry.2 = .ok color := by
  constructor
  · rintro ⟨category, color, given⟩
    exact ⟨_, readEntry_eq_ok_iff.mpr given⟩
  · rintro ⟨⟨category, color⟩, good⟩
    exact ⟨category, color, readEntry_eq_ok_iff.mp good⟩

/-- The fault of a table is that of its first bad entry. -/
theorem read_eq_error_iff {table : List (List Char × Candidate)} {fault : OverrideFault} :
    read table = .error fault ↔
      ∃ front entry back, table = front ++ entry :: back ∧
        (∀ earlier ∈ front, ∃ category color, Gives earlier category color) ∧
        EntryFault entry fault := by
  simp only [read, readOnto_eq_error_iff, exists_gives_iff, ← readEntry_eq_error_iff, Prod.exists]

/-- A table is read if all its entries give colors. -/
theorem exists_readOnto_iff {table : List (List Char × Candidate)} {overrides : Overrides} :
    (∃ after, readOnto overrides table = .ok after) ↔
      ∀ entry ∈ table, ∃ category color, Gives entry category color := by
  induction table generalizing overrides with
  | nil => exact iff_of_true ⟨overrides, rfl⟩ fun entry member => by cases member
  | cons entry rest ih =>
    obtain ⟨name, candidate⟩ := entry
    rw [List.forall_mem_cons, exists_gives_iff]
    cases read : readEntry name candidate with
    | error fault => simp [readOnto, read]
    | ok color =>
      simp only [readOnto, read, ih]
      exact ⟨fun later => ⟨⟨color, rfl⟩, later⟩, And.right⟩

end Overrides

/-- Colors are read from texts and tables, or refused, unless a text breaks the reader. -/
theorem color_texts_answered (value : List Char) (table : List (List Char × Candidate)) :
    ((∃ color, Color.read value = .ok color ∧ color.InRange) ∨
        (∃ fault, Color.read value = .error fault ∧ fault.isRefusal = true) ↔
      ¬ Color.Breaks value) ∧
    (Color.Breaks value → ∃ fault, Color.read value = .error fault ∧ fault.isRefusal = false) ∧
    (∀ color : Rgb, color.InRange → Color.read color.hex = .ok color) ∧
    (∀ name category, Overrides.category? name = some category ↔
      name.flatMap Text.upperCase = category.name.toList) ∧
    (∀ fault, Overrides.read table = .error fault ↔
      ∃ front entry back, table = front ++ entry :: back ∧
        (∀ earlier ∈ front, ∃ category color, Overrides.Gives earlier category color) ∧
        Overrides.EntryFault entry fault) ∧
    (∀ entry fault, Overrides.EntryFault entry fault → (fault.isRefusal = false ↔
      ∃ text, (Overrides.category? entry.1).isSome ∧ entry.2 = .text text ∧ Color.Breaks text)) ∧
    ((∃ overrides, Overrides.read table = .ok overrides) ↔
      ∀ entry ∈ table, ∃ category color, Overrides.Gives entry category color) ∧
    ∀ overrides, Overrides.read table = .ok overrides → ∀ category color,
      overrides.lookup category = some color ↔
        ∃ front entry back, table = front ++ entry :: back ∧
          Overrides.Gives entry category color ∧
          ∀ later ∈ back, Overrides.category? later.1 ≠ some category := by
  refine ⟨Color.answered_iff, Color.read_breaks_iff.mpr, fun color => Color.read_hex,
    fun name category => Overrides.category?_eq_some_iff,
    fun fault => Overrides.read_eq_error_iff, fun entry fault bad => bad.isRefusal_eq_false_iff,
    Overrides.exists_readOnto_iff, ?_⟩
  intro overrides found category color
  have first : ([] : Overrides).lookup category = none := rfl
  rw [Overrides.lookup_readOnto found, first]
  exact or_iff_left fun ⟨impossible, _⟩ => by cases impossible

/-- The last entry for a category counts, in whatever letter case it names the category. -/
theorem color_texts_answered_twice :
    let table := [("word".toList, Candidate.text "red".toList),
      ("Word".toList, .text " RGB(1, \u0662,255)".toList)]
    ∃ overrides, Overrides.read table = .ok overrides ∧
      overrides.lookup .word = some ⟨1, 2, 255⟩ := by
  intro table
  have first : Overrides.Gives ("word".toList, .text "red".toList) .word ⟨128, 0, 0⟩ :=
    ⟨by decide +kernel, _, rfl, by decide +kernel⟩
  have second : Overrides.Gives ("Word".toList, .text " RGB(1, \u0662,255)".toList) .word
      ⟨1, 2, 255⟩ := ⟨by decide +kernel, _, rfl, by decide +kernel⟩
  obtain ⟨_, _, _, _, _, _, read, colors⟩ := color_texts_answered [] table
  have all : ∀ entry ∈ table, ∃ category color, Overrides.Gives entry category color :=
    List.forall_mem_cons.mpr ⟨⟨_, _, first⟩, List.forall_mem_singleton.mpr ⟨_, _, second⟩⟩
  obtain ⟨overrides, found⟩ := read.mpr all
  exact ⟨overrides, found, (colors overrides found .word _).mpr
    ⟨[("word".toList, .text "red".toList)], _, [], rfl, second, fun _ member => by cases member⟩⟩

/-- A list of channels with an empty one breaks the reader. -/
theorem read_empty_channel :
    Color.read "rgb(1,,2)".toList = .error (.channel [] .malformed) ∧
      Overrides.read [("word".toList, .text "rgb(1,,2)".toList)] =
        .error (.color (.channel [] .malformed)) := by
  decide +kernel

end Astra
