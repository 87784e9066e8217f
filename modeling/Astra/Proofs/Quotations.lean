import Mathlib.Data.List.Nodup
import Mathlib.Tactic.SplitIfs
import Astra.Color.Reader
import Astra.Token

/-!
# Numerals, names and quoted text

What is shown of a number, a category or a text consists of printable characters, whatever the text
is made of, and it says which number, category or text it was. A quoted text is read back from left
to right: each character stands for itself or is told by what follows a backslash, and the quotation
mark that ends the text is not taken for a character of it.
-/

namespace Astra

namespace Text

section Printing

/-- A text of printable characters. -/
def Printable (text : List Char) : Prop := ∀ c ∈ text, isPrintable c = true

instance (text : List Char) : Decidable (Printable text) :=
  decidable_of_iff (text.all isPrintable = true) List.all_eq_true

variable {text more : List Char} {c : Char}

theorem Printable.append (first : Printable text) (second : Printable more) :
    Printable (text ++ more) :=
  List.forall_mem_append.mpr ⟨first, second⟩

theorem Printable.cons (first : isPrintable c = true) (rest : Printable text) :
    Printable (c :: text) :=
  List.forall_mem_cons.mpr ⟨first, rest⟩

theorem Printable.single (only : isPrintable c = true) : Printable [c] :=
  List.forall_mem_singleton.mpr only

theorem not_mem_of_isPrintable {unprintable : List Char}
    (all : unprintable.all (fun d => !isPrintable d) = true) (shown : isPrintable c = true) :
    c ∉ unprintable := by
  intro member
  have hidden := List.all_eq_true.mp all c member
  rw [shown] at hidden
  cases hidden

/-- The digits of a number are those of its base. -/
theorem mem_toDigits {base n : Nat} (large : 1 < base) (member : c ∈ Nat.toDigits base n) :
    ∃ d < base, c = Nat.digitChar d := by
  induction n using Nat.strongRecOn with
  | ind n ih =>
    rw [Nat.toDigits_eq_if large] at member
    by_cases last : n < base
    · rw [if_pos last, List.mem_singleton] at member
      exact ⟨n, last, member⟩
    · rw [if_neg last, List.mem_append, List.mem_singleton] at member
      rcases member with earlier | final
      · exact ih (n / base) (Nat.div_lt_self (by omega) large) earlier
      · exact ⟨n % base, Nat.mod_lt n (by omega), final⟩

theorem printable_toDigits {base : Nat} (large : 1 < base) (small : base ≤ 16) (n : Nat) :
    Printable (Nat.toDigits base n) := by
  have digits : ∀ d < 16, isPrintable (Nat.digitChar d) = true := by decide
  intro c member
  obtain ⟨d, below, rfl⟩ := mem_toDigits large member
  exact digits d (by omega)

theorem Numeral.printable (n : Int) : Printable (ofInt n) := by
  cases n with
  | ofNat n => exact printable_toDigits (by decide) (by decide) n
  | negSucc n => exact .cons (by decide) (printable_toDigits (by decide) (by decide) (n + 1))

theorem printable_hexadecimal (width n : Nat) : Printable (hexadecimal width n) := by
  have zeros : ∀ k, Printable (List.replicate k '0') := by
    intro k c member
    rw [List.eq_of_mem_replicate member]
    decide
  exact (zeros _).append (printable_toDigits (by decide) (by decide) n)

/-- The ways in which a character is written between quotation marks. -/
inductive Escaped (mark c : Char) : List Char → Prop where
  | special (either : c = mark ∨ c = '\\') : Escaped mark c ['\\', c]
  | named {letter : Char} (listed : (c, letter) ∈ [('\n', 'n'), ('\r', 'r'), ('\t', 't')]) :
      Escaped mark c ['\\', letter]
  | plain (ordinary : c ≠ '\\') (shown : isPrintable c = true) : Escaped mark c [c]
  | code {letter : Char} {width : Nat} (listed : (letter, width) ∈ [('x', 2), ('u', 4), ('U', 8)])
      (fits : c.toNat < Nat.pow 16 width) :
      Escaped mark c ('\\' :: letter :: hexadecimal width c.toNat)

theorem escapeChar_escaped (mark c : Char) : Escaped mark c (escapeChar mark c) := by
  unfold escapeChar
  split_ifs with special feed carriage tab shown short medium
  · exact .special (by simpa using special)
  · exact .named (by simp [feed])
  · exact .named (by simp [carriage])
  · exact .named (by simp [tab])
  · rw [Bool.not_eq_true, Bool.or_eq_false_iff, decide_eq_false_iff_not] at special
    exact .plain (of_decide_eq_false special.2) shown
  · exact .code (by decide) short
  · exact .code (by decide) medium
  · exact .code (by decide) c.val.toNat_lt

theorem Escaped.printable {mark : Char} {written : List Char} (escaped : Escaped mark c written)
    (shown : isPrintable mark = true) : Printable written := by
  have backslash : isPrintable '\\' = true := by decide
  cases escaped with
  | special either =>
    rcases either with rfl | rfl
    · exact .cons backslash (.single shown)
    · exact .cons backslash (.single backslash)
  | @named letter listed =>
    have letters : [('\n', 'n'), ('\r', 'r'), ('\t', 't')].all (fun entry =>
        isPrintable entry.2) = true := by decide
    exact .cons backslash (.single (List.all_eq_true.mp letters _ listed))
  | plain ordinary shown => exact .single shown
  | @code letter width listed fits =>
    have letters : [('x', 2), ('u', 4), ('U', 8)].all (fun entry =>
        isPrintable entry.1) = true := by decide
    exact .cons backslash (.cons (List.all_eq_true.mp letters _ listed) (printable_hexadecimal _ _))

theorem quotationMark_cases (text : List Char) :
    quotationMark text = '\x22' ∨ quotationMark text = '\x27' := by
  rw [quotationMark]
  split
  · exact .inl rfl
  · exact .inr rfl

/-- Quoted text is printable, whatever the text is. -/
theorem printable_quoted (text : List Char) : Printable (quoted text) := by
  have mark : isPrintable (quotationMark text) = true := by
    rcases quotationMark_cases text with same | same <;> rw [same] <;> decide
  have inside : Printable (text.flatMap (escapeChar (quotationMark text))) := by
    intro c member
    obtain ⟨d, _, shown⟩ := List.mem_flatMap.mp member
    exact (escapeChar_escaped _ d).printable mark c shown
  exact (inside.cons mark).append (.single mark)

end Printing

section Numerals

theorem Numeral.mem_ofInt {n : Int} {c : Char} (member : c ∈ ofInt n) :
    c = '-' ∨ ∃ d < 10, c = Nat.digitChar d := by
  cases n with
  | ofNat n => exact .inr (mem_toDigits (by decide) member)
  | negSucc n =>
    rcases List.mem_cons.mp member with sign | digit
    · exact .inl sign
    · exact .inr (mem_toDigits (by decide) digit)

theorem Numeral.not_mem_ofInt {c : Char} (unsigned : c ≠ '-')
    (distinct : ∀ d < 10, c ≠ Nat.digitChar d) (n : Int) : c ∉ ofInt n := by
  intro member
  rcases mem_ofInt member with sign | ⟨d, below, digit⟩
  · exact unsigned sign
  · exact distinct d below digit

theorem Numeral.sign_not_mem (n : Nat) : '-' ∉ Nat.toDigits 10 n := by
  have digits : ∀ d < 10, '-' ≠ Nat.digitChar d := by decide
  intro member
  obtain ⟨d, below, same⟩ := mem_toDigits (by decide) member
  exact digits d below same

theorem Numeral.toDigits_injective {m n : Nat} (same : Nat.toDigits 10 m = Nat.toDigits 10 n) :
    m = n := by
  have read := congrArg (Nat.ofDigitChars 10 · 0) same
  simpa only [Nat.ofDigitChars_ten_toDigits] using read

/-- The number can be told from its numeral. -/
theorem Numeral.ofInt_injective {m n : Int} (same : ofInt m = ofInt n) : m = n := by
  cases m with
  | ofNat m =>
    cases n with
    | ofNat n => rw [toDigits_injective same]
    | negSucc n =>
      have sign : '-' ∈ Nat.toDigits 10 m := by
        rw [show Nat.toDigits 10 m = _ from same]
        exact List.mem_cons_self
      exact absurd sign (sign_not_mem m)
  | negSucc m =>
    cases n with
    | ofNat n =>
      have sign : '-' ∈ Nat.toDigits 10 n := by
        rw [show Nat.toDigits 10 n = _ from same.symm]
        exact List.mem_cons_self
      exact absurd sign (sign_not_mem n)
    | negSucc n =>
      have digits := toDigits_injective (List.cons.inj same).2
      rw [Nat.succ.inj digits]

end Numerals

section Digits

theorem hexValue?_digitChar : ∀ d < 16, Color.hexValue? (Nat.digitChar d) = some d := by decide

theorem mapM_hexValue?_digitChar {digits : List Nat} (small : ∀ d ∈ digits, d < 16) :
    (digits.map Nat.digitChar).mapM Color.hexValue? = some digits := by
  induction digits with
  | nil => rfl
  | cons d rest ih =>
    rw [List.map_cons, List.mapM_cons, hexValue?_digitChar d (small d List.mem_cons_self),
      ih fun other member => small other (List.mem_cons_of_mem d member)]
    rfl

/-- The last digit, and those before it. -/
theorem hexadecimal_succ (width n : Nat) :
    hexadecimal (width + 2) n = hexadecimal (width + 1) (n / 16) ++ [Nat.digitChar (n % 16)] := by
  rw [hexadecimal, hexadecimal, Nat.toDigits_eq_if (by decide)]
  by_cases single : n < 16
  · have high : n / 16 = 0 := by omega
    have low : n % 16 = n := by omega
    rw [if_pos single, high, low]
    simp [Nat.toDigits_zero, ← List.replicate_succ']
  · have zeros : width + 2 - ((Nat.toDigits 16 (n / 16)).length + 1) =
        width + 1 - (Nat.toDigits 16 (n / 16)).length := by omega
    rw [if_neg single, List.length_append, List.append_assoc, List.length_singleton, zeros]

/-- A number that has enough room is written in digits of base sixteen. -/
theorem hexadecimal_eq (width : Nat) {n : Nat} (fits : n < Nat.pow 16 (width + 1)) :
    ∃ digits : List Nat, digits.length = width + 1 ∧ (∀ d ∈ digits, d < 16) ∧
      Numeral.value 16 digits = n ∧ hexadecimal (width + 1) n = digits.map Nat.digitChar := by
  induction width generalizing n with
  | zero =>
    have single : n < 16 := fits
    refine ⟨[n], rfl, by simpa using single, ?_, ?_⟩
    · simp [Numeral.value]
    · rw [hexadecimal, Nat.toDigits_of_lt_base single]
      rfl
  | succ width ih =>
    have smaller : n / 16 < Nat.pow 16 (width + 1) := by
      apply Nat.div_lt_of_lt_mul
      rw [Nat.mul_comm]
      exact fits
    obtain ⟨digits, length, small, value, written⟩ := ih smaller
    refine ⟨digits ++ [n % 16], by simp [length], ?_, ?_, ?_⟩
    · rw [List.forall_mem_append, List.forall_mem_singleton]
      exact ⟨small, Nat.mod_lt n (by decide)⟩
    · rw [Numeral.value, List.foldl_append]
      show 16 * Numeral.value 16 digits + n % 16 = n
      rw [value]
      exact Nat.div_add_mod n 16
    · rw [hexadecimal_succ, written, List.map_append]
      rfl

end Digits

section Reading

/-- Reads a character off its code in digits of base sixteen. -/
def readCode? (width : Nat) (text : List Char) : Option (Char × List Char) :=
  ((text.take width).mapM Color.hexValue?).map fun digits =>
    (Char.ofNat (Numeral.value 16 digits), text.drop width)

/-- Reads the character that what follows a backslash stands for. -/
def readEscape? : List Char → Option (Char × List Char)
  | [] => none
  | 'n' :: rest => some ('\n', rest)
  | 'r' :: rest => some ('\r', rest)
  | 't' :: rest => some ('\t', rest)
  | 'x' :: rest => readCode? 2 rest
  | 'u' :: rest => readCode? 4 rest
  | 'U' :: rest => readCode? 8 rest
  | c :: rest => some (c, rest)

/-- Reads the first character of an escaped text, and gives what comes after it. -/
def readChar? : List Char → Option (Char × List Char)
  | [] => none
  | c :: rest => if c = '\\' then readEscape? rest else some (c, rest)

theorem readCode?_hexadecimal (width : Nat) {c : Char} (fits : c.toNat < Nat.pow 16 (width + 1))
    (rest : List Char) :
    readCode? (width + 1) (hexadecimal (width + 1) c.toNat ++ rest) = some (c, rest) := by
  obtain ⟨digits, length, small, value, written⟩ := hexadecimal_eq width fits
  have cut : (digits.map Nat.digitChar).length = width + 1 := by rw [List.length_map, length]
  rw [readCode?, written, List.take_left' cut, List.drop_left' cut, mapM_hexValue?_digitChar small,
    Option.map_some, value, Char.ofNat_toNat]

variable {mark c : Char} {written : List Char}

/-- Every way of writing a character is read as that character. -/
theorem Escaped.readChar? (escaped : Escaped mark c written) (marks : mark = '\x22' ∨ mark = '\x27')
    (rest : List Char) : readChar? (written ++ rest) = some (c, rest) := by
  cases escaped with
  | special either =>
    rcases either with rfl | rfl
    · rcases marks with rfl | rfl <;> rfl
    · rfl
  | named listed =>
    simp only [List.mem_cons, Prod.mk.injEq, List.not_mem_nil, or_false] at listed
    rcases listed with ⟨rfl, rfl⟩ | ⟨rfl, rfl⟩ | ⟨rfl, rfl⟩ <;> rfl
  | plain ordinary shown => exact if_neg ordinary
  | code listed fits =>
    simp only [List.mem_cons, Prod.mk.injEq, List.not_mem_nil, or_false] at listed
    rcases listed with ⟨rfl, rfl⟩ | ⟨rfl, rfl⟩ | ⟨rfl, rfl⟩
    · exact readCode?_hexadecimal 1 fits rest
    · exact readCode?_hexadecimal 3 fits rest
    · exact readCode?_hexadecimal 7 fits rest

section Marks

variable (marks : mark = '\x22' ∨ mark = '\x27')

include marks

theorem readChar?_escapeChar (c : Char) (rest : List Char) :
    readChar? (escapeChar mark c ++ rest) = some (c, rest) :=
  (escapeChar_escaped mark c).readChar? marks rest

/-- The quotation mark at the end is not read as an escaped character. -/
theorem escapeChar_append_ne_mark (c : Char) {rest : List Char} (more : rest ≠ []) :
    escapeChar mark c ++ rest ≠ [mark] := by
  intro same
  have ends : readChar? [mark] = some (mark, []) := by
    rcases marks with rfl | rfl <;> rfl
  have read := readChar?_escapeChar marks c rest
  rw [same, ends] at read
  exact more (Prod.mk.inj (Option.some.inj read)).2.symm

theorem flatMap_escapeChar_inj {text other : List Char}
    (same : text.flatMap (escapeChar mark) ++ [mark] = other.flatMap (escapeChar mark) ++ [mark]) :
    text = other := by
  induction text generalizing other with
  | nil =>
    cases other with
    | nil => rfl
    | cons d other =>
      rw [List.flatMap_cons, List.append_assoc] at same
      exact absurd same.symm (escapeChar_append_ne_mark marks d (by simp))
  | cons c text ih =>
    rw [List.flatMap_cons, List.append_assoc] at same
    cases other with
    | nil => exact absurd same (escapeChar_append_ne_mark marks c (by simp))
    | cons d other =>
      rw [List.flatMap_cons, List.append_assoc] at same
      have read := readChar?_escapeChar marks c (text.flatMap (escapeChar mark) ++ [mark])
      rw [same, readChar?_escapeChar marks] at read
      obtain ⟨rfl, rest⟩ := Prod.mk.inj (Option.some.inj read)
      rw [ih rest.symm]

end Marks

/-- The text can be told from what it is when quoted. -/
theorem quoted_injective {text other : List Char} (same : quoted text = quoted other) :
    text = other := by
  obtain ⟨mark, rest⟩ := List.cons.inj same
  rw [mark] at rest
  exact flatMap_escapeChar_inj (quotationMark_cases other) rest

end Reading

section Bytes

theorem mem_bytes {text : List Char} {c : Char} {b : UInt8} (member : c ∈ text)
    (inside : b ∈ String.utf8EncodeChar c) : b ∈ (String.ofList text).toByteArray.data.toList := by
  rw [String.toByteArray_ofList, List.utf8Encode, List.toList_data_toByteArray]
  exact List.mem_flatMap.mpr ⟨c, member, inside⟩

/-- A character is its own byte, or it has a byte that is higher than those of such characters. -/
theorem exists_byte (c : Char) :
    ∃ b ∈ String.utf8EncodeChar c, b.toNat = c.toNat ∨ 192 ≤ b.toNat := by
  have code : c.val.toNat = c.toNat := rfl
  simp only [String.utf8EncodeChar, code]
  split_ifs with one two three
  · refine ⟨_, List.mem_cons_self, .inl ?_⟩
    exact UInt8.toNat_ofNat_of_lt' (Nat.lt_of_le_of_lt one (by decide))
  all_goals
    refine ⟨_, List.mem_cons_self, .inr ?_⟩
    rw [UInt8.toNat_ofNat']
    omega

/-- Whether a byte stands for a visible character. -/
def isVisible (b : UInt8) : Bool := 33 ≤ b.toNat && b.toNat ≤ 126

theorem visible_of_bytes {name : String}
    (bytes : name.toByteArray.data.toList.all isVisible = true) {c : Char}
    (member : c ∈ name.toList) : 33 ≤ c.toNat ∧ c.toNat ≤ 126 := by
  obtain ⟨b, inside, value⟩ := exists_byte c
  have encoded := mem_bytes member inside
  rw [String.ofList_toList] at encoded
  have visible := List.all_eq_true.mp bytes b encoded
  rw [isVisible, Bool.and_eq_true, decide_eq_true_eq, decide_eq_true_eq] at visible
  omega

theorem isPrintable_of_visible {c : Char} (least : 33 ≤ c.toNat) (most : c.toNat ≤ 126) :
    isPrintable c = true := by
  have visible : ∀ n < 127, 33 ≤ n → isPrintable (Char.ofNat n) = true := by decide
  rw [← Char.ofNat_toNat c]
  exact visible _ (by omega) least

end Bytes

end Text

namespace Category

-- the tables of names are checked byte by byte, which spares the kernel the decoding of the names

theorem name_injective {category other : Category} (same : category.name = other.name) :
    category = other := by
  have distinct : (all.map (·.name.toByteArray.data.toList)).Nodup := by decide +kernel
  have bytes := congrArg (·.toByteArray.data.toList) same
  exact List.inj_on_of_nodup_map distinct category.mem_all other.mem_all bytes

theorem visible_name {category : Category} {c : Char} (member : c ∈ category.name.toList) :
    33 ≤ c.toNat ∧ c.toNat ≤ 126 := by
  have visible : ∀ category ∈ all,
      category.name.toByteArray.data.toList.all Text.isVisible = true := by decide +kernel
  exact Text.visible_of_bytes (visible category category.mem_all) member

theorem printable_name (category : Category) : Text.Printable category.name.toList := by
  intro c member
  obtain ⟨least, most⟩ := visible_name member
  exact Text.isPrintable_of_visible least most

theorem blank_not_mem_name (category : Category) : ' ' ∉ category.name.toList := by
  intro member
  exact absurd (visible_name member).1 (by decide)

end Category

theorem Token.printable_details (token : Token) (source : List Char) :
    Text.Printable (token.details source) := by
  have bracket : Text.Printable " [".toList := by decide
  have bracket' : Text.Printable "] ".toList := by decide
  have stop : Text.Printable (':' :: Text.Numeral.ofInt token.stop) :=
    .cons (by decide) (Text.Numeral.printable _)
  exact (((bracket.append (Text.Numeral.printable _)).append stop).append bracket').append
    (Text.printable_quoted _)

end Astra
