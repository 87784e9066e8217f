import Mathlib.Data.Nat.Init
import Mathlib.Tactic.ByContra
import Mathlib.Tactic.SplitIfs
import Astra.Text.Utf8

/-!
# Strict UTF-8

Reading bytes succeeds exactly on the encodings of texts and gives the text back.
-/

namespace Astra.Text.Utf8

/-- The bytes of a text. -/
def encode (text : List Char) : List UInt8 := text.flatMap String.utf8EncodeChar

section Leads

variable {b : UInt8}

theorem lead?_two (low : 0xc2 ≤ b.toNat) (high : b.toNat ≤ 0xdf) :
    lead? b = some ⟨b, 1, 1, 0x80, 0xbf, b.toNat - 0xc0⟩ := by
  simp [lead?, UInt8.le_iff_toNat_le, low, high]

theorem lead?_three (low : 0xe0 ≤ b.toNat) (high : b.toNat ≤ 0xef) :
    lead? b = some ⟨b, 1, 2, if b = 0xe0 then 0xa0 else 0x80, if b = 0xed then 0x9f else 0xbf,
      b.toNat - 0xe0⟩ := by
  simp only [lead?, UInt8.le_iff_toNat_le, Bool.and_eq_true, decide_eq_true_eq, beq_iff_eq,
    ← UInt8.toNat_inj, UInt8.reduceToNat]
  split_ifs <;> grind

theorem lead?_four (low : 0xf0 ≤ b.toNat) (high : b.toNat ≤ 0xf4) :
    lead? b = some ⟨b, 1, 3, if b = 0xf0 then 0x90 else 0x80, if b = 0xf4 then 0x8f else 0xbf,
      b.toNat - 0xf0⟩ := by
  simp only [lead?, UInt8.le_iff_toNat_le, Bool.and_eq_true, decide_eq_true_eq, beq_iff_eq,
    ← UInt8.toNat_inj, UInt8.reduceToNat]
  split_ifs <;> grind

/-- The first bytes of longer characters. -/
theorem lead?_range {p : Pending} (found : lead? b = some p) :
    (0xc2 ≤ b.toNat ∧ b.toNat ≤ 0xdf) ∨ (0xe0 ≤ b.toNat ∧ b.toNat ≤ 0xef) ∨
      (0xf0 ≤ b.toNat ∧ b.toNat ≤ 0xf4) := by
  simp only [lead?, UInt8.le_iff_toNat_le, Bool.and_eq_true, decide_eq_true_eq, beq_iff_eq,
    ← UInt8.toNat_inj, UInt8.reduceToNat] at found
  split_ifs at found <;> omega

end Leads

/-- A second byte `b` after a first byte `a`: after `x` it is at least `low`, and after `y` at most
`high`. -/
structure Follows (x low y high a b : UInt8) : Prop where
  atLeast : 0x80 ≤ b.toNat
  atMost : b.toNat ≤ 0xbf
  afterLowest : a.toNat = x.toNat → low.toNat ≤ b.toNat
  afterHighest : a.toNat = y.toNat → b.toNat ≤ high.toNat

/-- The bytes that stand for a code point. The ranges of second bytes keep out overlong forms,
surrogates and what is above the last code point. -/
inductive Sequence : List UInt8 → Nat → Prop where
  | one {a : UInt8} (first : a.toNat < 0x80) : Sequence [a] a.toNat
  | two {a b : UInt8} (first : 0xc2 ≤ a.toNat ∧ a.toNat ≤ 0xdf)
      (second : 0x80 ≤ b.toNat ∧ b.toNat ≤ 0xbf) :
      Sequence [a, b] ((a.toNat - 0xc0) * 64 + (b.toNat - 0x80))
  | three {a b c : UInt8} (first : 0xe0 ≤ a.toNat ∧ a.toNat ≤ 0xef)
      (second : Follows 0xe0 0xa0 0xed 0x9f a b) (third : 0x80 ≤ c.toNat ∧ c.toNat ≤ 0xbf) :
      Sequence [a, b, c]
        (((a.toNat - 0xe0) * 64 + (b.toNat - 0x80)) * 64 + (c.toNat - 0x80))
  | four {a b c d : UInt8} (first : 0xf0 ≤ a.toNat ∧ a.toNat ≤ 0xf4)
      (second : Follows 0xf0 0x90 0xf4 0x8f a b)
      (third : 0x80 ≤ c.toNat ∧ c.toNat ≤ 0xbf) (fourth : 0x80 ≤ d.toNat ∧ d.toNat ≤ 0xbf) :
      Sequence [a, b, c, d]
        ((((a.toNat - 0xf0) * 64 + (b.toNat - 0x80)) * 64 + (c.toNat - 0x80)) * 64 +
          (d.toNat - 0x80))

section Steps

variable {position : Nat} {b : UInt8} {rest : List UInt8} {p : Pending} {text : List Char}

theorem decodeFrom_single (small : b.toNat < 0x80) :
    decodeFrom position none (b :: rest) =
      (Char.ofNat b.toNat :: ·) <$> decodeFrom (position + 1) none rest := by
  rw [decodeFrom, if_pos (UInt8.lt_iff_toNat_lt.mpr small)]

theorem decodeFrom_lead (large : 0x80 ≤ b.toNat) (found : lead? b = some p) :
    decodeFrom position none (b :: rest) = decodeFrom (position + 1) (some p) rest := by
  have notSingle : ¬ b < 0x80 := fun less =>
    Nat.not_lt.mpr large (UInt8.lt_iff_toNat_lt.mp less)
  rw [decodeFrom, if_neg notSingle, found]

/-- Whether a byte may come next in a character. -/
def Pending.takes (p : Pending) (b : UInt8) : Prop := p.low.toNat ≤ b.toNat ∧ b.toNat ≤ p.high.toNat

theorem Pending.takes_iff : (decide (p.low ≤ b) && decide (b ≤ p.high)) = true ↔ p.takes b := by
  simp [takes, UInt8.le_iff_toNat_le]

theorem takes_continuation {first : UInt8} {seen owed code : Nat}
    (range : 0x80 ≤ b.toNat ∧ b.toNat ≤ 0xbf) :
    Pending.takes ⟨first, seen, owed, 0x80, 0xbf, code⟩ b := range

theorem takes_iff_follows {x low y high a : UInt8} {seen owed code : Nat} (least : 0x80 ≤ low.toNat)
    (most : high.toNat ≤ 0xbf) :
    Pending.takes ⟨a, seen, owed, if a = x then low else 0x80, if a = y then high else 0xbf, code⟩
      b ↔ Follows x low y high a b := by
  simp only [Pending.takes, ← UInt8.toNat_inj, apply_ite UInt8.toNat, UInt8.reduceToNat]
  constructor
  · rintro ⟨lower, upper⟩
    constructor
    · split at lower <;> omega
    · split at upper <;> omega
    · intro same
      rwa [if_pos same] at lower
    · intro same
      rwa [if_pos same] at upper
  · intro follows
    constructor
    · split
      · exact follows.afterLowest ‹_›
      · exact follows.atLeast
    · split
      · exact follows.afterHighest ‹_›
      · exact follows.atMost

theorem decodeFrom_last (owed : p.owed = 1) (takes : p.takes b) :
    decodeFrom position (some p) (b :: rest) =
      (Char.ofNat (p.code * 64 + (b.toNat - 0x80)) :: ·) <$>
        decodeFrom (position + 1) none rest := by
  rw [decodeFrom, if_pos (Pending.takes_iff.mpr takes)]
  exact if_pos owed

theorem decodeFrom_more {n : Nat} (owed : p.owed = n + 2) (takes : p.takes b) :
    decodeFrom position (some p) (b :: rest) =
      decodeFrom (position + 1) (some ⟨p.first, p.seen + 1, p.owed - 1, 0x80, 0xbf,
        p.code * 64 + (b.toNat - 0x80)⟩) rest := by
  rw [decodeFrom, if_pos (Pending.takes_iff.mpr takes)]
  exact if_neg (by omega)

/-- A character that is begun is only read if a byte comes that may come next. -/
theorem takes_of_decodeFrom {bytes : List UInt8} (found : decodeFrom position (some p) bytes = .ok text) :
    ∃ b rest, bytes = b :: rest ∧ p.takes b := by
  cases bytes with
  | nil => cases found
  | cons b rest =>
    refine ⟨b, rest, rfl, ?_⟩
    by_contra refused
    rw [decodeFrom, if_neg (mt Pending.takes_iff.mp refused)] at found
    cases found

theorem eq_cons_of_map {c : Char} {result : Except Fault (List Char)}
    (found : (c :: ·) <$> result = .ok text) : ∃ later, text = c :: later ∧ result = .ok later := by
  cases result with
  | error fault => cases found
  | ok later =>
    cases found
    exact ⟨later, rfl, rfl⟩

end Steps

section Sequences

variable {position : Nat} {bytes rest : List UInt8} {code : Nat} {text : List Char}

/-- The bytes of a code point are read as its character. -/
theorem Sequence.decodeFrom_append (sequence : Sequence bytes code) :
    decodeFrom position none (bytes ++ rest) =
      (Char.ofNat code :: ·) <$> decodeFrom (position + bytes.length) none rest := by
  cases sequence with
  | one first => exact decodeFrom_single first
  | two first second =>
    exact (decodeFrom_lead (by omega) (lead?_two first.1 first.2)).trans (decodeFrom_last rfl second)
  | three first second third =>
    exact (decodeFrom_lead (by omega) (lead?_three first.1 first.2)).trans
      ((decodeFrom_more rfl ((takes_iff_follows (by decide) (by decide)).mpr second)).trans
        (decodeFrom_last rfl third))
  | four first second third fourth =>
    exact (decodeFrom_lead (by omega) (lead?_four first.1 first.2)).trans
      ((decodeFrom_more rfl ((takes_iff_follows (by decide) (by decide)).mpr second)).trans
        ((decodeFrom_more rfl (takes_continuation third)).trans (decodeFrom_last rfl fourth)))

/-- What is read at the front of bytes is the character of some code point. -/
theorem exists_sequence {b : UInt8} (found : decodeFrom position none (b :: rest) = .ok text) :
    ∃ front code tail later, Sequence front code ∧ b :: rest = front ++ tail ∧
      text = Char.ofNat code :: later ∧
      decodeFrom (position + front.length) none tail = .ok later := by
  by_cases small : b.toNat < 0x80
  · rw [decodeFrom_single small] at found
    obtain ⟨later, same, found⟩ := eq_cons_of_map found
    exact ⟨[b], _, rest, later, .one small, rfl, same, found⟩
  have large : 0x80 ≤ b.toNat := by omega
  cases begun : lead? b with
  | none =>
    have notSingle : ¬ b < 0x80 := fun less => small (UInt8.lt_iff_toNat_lt.mp less)
    rw [decodeFrom, if_neg notSingle, begun] at found
    cases found
  | some p =>
    rw [decodeFrom_lead large begun] at found
    obtain ⟨second, rest, rfl, takes⟩ := takes_of_decodeFrom found
    rcases lead?_range begun with ⟨low, high⟩ | ⟨low, high⟩ | ⟨low, high⟩
    · rw [lead?_two low high] at begun
      cases begun
      rw [decodeFrom_last rfl takes] at found
      obtain ⟨later, same, found⟩ := eq_cons_of_map found
      exact ⟨[b, second], _, rest, later, .two ⟨low, high⟩ takes, rfl, same, found⟩
    · rw [lead?_three low high] at begun
      cases begun
      rw [decodeFrom_more rfl takes] at found
      obtain ⟨third, rest, rfl, more⟩ := takes_of_decodeFrom found
      rw [decodeFrom_last rfl more] at found
      obtain ⟨later, same, found⟩ := eq_cons_of_map found
      have follows := (takes_iff_follows (by decide) (by decide)).mp takes
      exact ⟨[b, second, third], _, rest, later, .three ⟨low, high⟩ follows more, rfl, same, found⟩
    · rw [lead?_four low high] at begun
      cases begun
      rw [decodeFrom_more rfl takes] at found
      obtain ⟨third, rest, rfl, more⟩ := takes_of_decodeFrom found
      rw [decodeFrom_more rfl more] at found
      obtain ⟨fourth, rest, rfl, last⟩ := takes_of_decodeFrom found
      rw [decodeFrom_last rfl last] at found
      obtain ⟨later, same, found⟩ := eq_cons_of_map found
      have follows := (takes_iff_follows (by decide) (by decide)).mp takes
      exact ⟨[b, second, third, fourth], _, rest, later, .four ⟨low, high⟩ follows more last, rfl,
        same, found⟩

end Sequences

section Encoding

theorem Sequence.of_eq {bytes : List UInt8} {code other : Nat} (sequence : Sequence bytes code)
    (same : code = other) : Sequence bytes other := same ▸ sequence

theorem toNat_range (c : Char) : c.toNat < 0xd800 ∨ 0xdfff < c.toNat ∧ c.toNat < 0x110000 := c.valid

theorem toNat_byte {n : Nat} (small : n < 256) : (UInt8.ofNat n).toNat = n := by
  rw [UInt8.toNat_ofNat']
  exact Nat.mod_eq_of_lt small

theorem ofNat_byte (a : UInt8) {n : Nat} (same : n = a.toNat) : UInt8.ofNat n = a := by
  rw [same, UInt8.ofNat_toNat]

/-- The encoding of a character stands for its code point. -/
theorem sequence_encodeChar (c : Char) : Sequence (String.utf8EncodeChar c) c.toNat := by
  have range := toNat_range c
  have code : c.val.toNat = c.toNat := rfl
  unfold String.utf8EncodeChar
  dsimp only
  rw [code]
  generalize c.toNat = v at range
  split
  · have small := toNat_byte (n := v) (by omega)
    exact (Sequence.one (by omega)).of_eq small
  · split
    · have first := toNat_byte (n := v / 64 % 32 + 192) (by omega)
      have second := toNat_byte (n := v % 64 + 128) (by omega)
      exact (Sequence.two (by omega) (by omega)).of_eq (by omega)
    · split
      · have first := toNat_byte (n := v / 4096 % 16 + 224) (by omega)
        have second := toNat_byte (n := v / 64 % 64 + 128) (by omega)
        have third := toNat_byte (n := v % 64 + 128) (by omega)
        refine (Sequence.three (by omega) ?_ (by omega)).of_eq (by omega)
        refine ⟨by omega, by omega, ?_, ?_⟩
        · intro lowest
          simp only [UInt8.reduceToNat] at lowest ⊢
          omega
        · intro highest
          simp only [UInt8.reduceToNat] at highest ⊢
          omega
      · have first := toNat_byte (n := v / 262144 % 8 + 240) (by omega)
        have second := toNat_byte (n := v / 4096 % 64 + 128) (by omega)
        have third := toNat_byte (n := v / 64 % 64 + 128) (by omega)
        have fourth := toNat_byte (n := v % 64 + 128) (by omega)
        refine (Sequence.four (by omega) ?_ (by omega) (by omega)).of_eq (by omega)
        refine ⟨by omega, by omega, ?_, ?_⟩
        · intro lowest
          simp only [UInt8.reduceToNat] at lowest ⊢
          omega
        · intro highest
          simp only [UInt8.reduceToNat] at highest ⊢
          omega

/-- The bytes of a code point are those of its character, so each code point has one sequence. -/
theorem Sequence.encodeChar_eq {bytes : List UInt8} {code : Nat} (sequence : Sequence bytes code) :
    String.utf8EncodeChar (Char.ofNat code) = bytes := by
  have number (valid : code.isValidChar) : (Char.ofNat code).val.toNat = code := by
    rw [Char.ofNat, dif_pos valid]
    rfl
  cases sequence with
  | one first =>
    have valid := number (.inl (by omega))
    simp only [String.utf8EncodeChar, valid]
    rw [if_pos (by omega), UInt8.ofNat_toNat]
  | @two a b first second =>
    have valid := number (.inl (by omega))
    simp only [String.utf8EncodeChar, valid]
    rw [if_neg (by omega), if_pos (by omega), ofNat_byte a (by omega), ofNat_byte b (by omega)]
  | @three a b c first second third =>
    obtain ⟨least, most, overlong, surrogate⟩ := second
    simp only [UInt8.reduceToNat] at overlong surrogate
    have valid := number (show _ < 0xd800 ∨ 0xdfff < _ ∧ _ < 0x110000 by omega)
    simp only [String.utf8EncodeChar, valid]
    rw [if_neg (by omega), if_neg (by omega), if_pos (by omega), ofNat_byte a (by omega),
      ofNat_byte b (by omega), ofNat_byte c (by omega)]
  | @four a b c d first second third fourth =>
    obtain ⟨least, most, overlong, excess⟩ := second
    simp only [UInt8.reduceToNat] at overlong excess
    have valid := number (.inr (by omega))
    simp only [String.utf8EncodeChar, valid]
    rw [if_neg (by omega), if_neg (by omega), if_neg (by omega), ofNat_byte a (by omega),
      ofNat_byte b (by omega), ofNat_byte c (by omega), ofNat_byte d (by omega)]

theorem decodeFrom_encode (position : Nat) (text : List Char) :
    decodeFrom position none (encode text) = .ok text := by
  induction text generalizing position with
  | nil => rfl
  | cons c rest ih =>
    have bytes : encode (c :: rest) = String.utf8EncodeChar c ++ encode rest := rfl
    rw [bytes, (sequence_encodeChar c).decodeFrom_append, ih, Char.ofNat_toNat]
    rfl

theorem eq_encode_of_decodeFrom {bytes : List UInt8} {position : Nat} {text : List Char}
    (found : decodeFrom position none bytes = .ok text) : bytes = encode text := by
  induction length : bytes.length using Nat.strong_induction_on generalizing bytes position text with
  | _ n ih =>
    cases bytes with
    | nil =>
      cases found
      rfl
    | cons b rest =>
      obtain ⟨front, code, tail, later, sequence, whole, rfl, after⟩ := exists_sequence found
      have shorter : tail.length < n := by
        have lengths := congrArg List.length whole
        have positive : 0 < front.length := by cases sequence <;> simp
        rw [List.length_append] at lengths
        omega
      calc b :: rest = front ++ tail := whole
        _ = String.utf8EncodeChar (Char.ofNat code) ++ encode later := by
          rw [sequence.encodeChar_eq, ih tail.length shorter after rfl]

/-- Bytes are read exactly if they encode a text, and as that text. -/
theorem decode_eq_ok_iff {bytes : List UInt8} {text : List Char} :
    decode bytes = .ok text ↔ bytes = encode text := by
  constructor
  · exact eq_encode_of_decodeFrom
  · rintro rfl
    exact decodeFrom_encode 0 text

theorem encode_injective {text other : List Char} (same : encode text = encode other) :
    text = other :=
  Except.ok.inj ((decodeFrom_encode 0 text).symm.trans (decode_eq_ok_iff.mpr same))

end Encoding

end Astra.Text.Utf8
