import Astra.Text.Writing

/-!
# Reading UTF-8

Bytes are read strictly: no overlong forms, no surrogates and nothing above the last code point.
A fault names the longest run of bytes that begins a character and cannot be completed.
-/

namespace Astra.Text.Utf8

inductive Reason where
  | startByte
  | continuation
  | truncated
  deriving DecidableEq, Repr

/-- Bytes that encode no character: their place, how many they are, and the first of them. -/
structure Fault where
  position : Nat
  count : Nat
  first : UInt8
  reason : Reason
  deriving DecidableEq, Repr

/-- A character of which some bytes are still owed. -/
structure Pending where
  first : UInt8
  seen : Nat
  owed : Nat
  low : UInt8
  high : UInt8
  code : Nat

/-- What the first byte of a longer character says: how many bytes follow and which values the
next one may take. -/
def lead? (b : UInt8) : Option Pending :=
  -- the bounds shut out overlong forms, surrogates and codes beyond the last character
  if 0xc2 ≤ b && b ≤ 0xdf then some ⟨b, 1, 1, 0x80, 0xbf, b.toNat - 0xc0⟩
  else if b == 0xe0 then some ⟨b, 1, 2, 0xa0, 0xbf, 0⟩
  else if b == 0xed then some ⟨b, 1, 2, 0x80, 0x9f, 0xd⟩
  else if 0xe1 ≤ b && b ≤ 0xef then some ⟨b, 1, 2, 0x80, 0xbf, b.toNat - 0xe0⟩
  else if b == 0xf0 then some ⟨b, 1, 3, 0x90, 0xbf, 0⟩
  else if b == 0xf4 then some ⟨b, 1, 3, 0x80, 0x8f, 4⟩
  else if 0xf1 ≤ b && b ≤ 0xf3 then some ⟨b, 1, 3, 0x80, 0xbf, b.toNat - 0xf0⟩
  else none

def decodeFrom (position : Nat) : Option Pending → List UInt8 → Except Fault (List Char)
  | none, [] => .ok []
  | some p, [] => .error ⟨position - p.seen, p.seen, p.first, .truncated⟩
  | none, b :: rest =>
    if b < 0x80 then (Char.ofNat b.toNat :: ·) <$> decodeFrom (position + 1) none rest
    else
      match lead? b with
      | none => .error ⟨position, 1, b, .startByte⟩
      | some p => decodeFrom (position + 1) (some p) rest
  | some p, b :: rest =>
    if p.low ≤ b && b ≤ p.high then
      let code := p.code * 64 + (b.toNat - 0x80)
      if p.owed = 1 then (Char.ofNat code :: ·) <$> decodeFrom (position + 1) none rest
      else
        decodeFrom (position + 1) (some ⟨p.first, p.seen + 1, p.owed - 1, 0x80, 0xbf, code⟩) rest
    else .error ⟨position - p.seen, p.seen, p.first, .continuation⟩

def decode (bytes : List UInt8) : Except Fault (List Char) := decodeFrom 0 none bytes

def Reason.message : Reason → String
  | .startByte => "invalid start byte"
  | .continuation => "invalid continuation byte"
  | .truncated => "unexpected end of data"

def Fault.message (fault : Fault) : List Char :=
  let place := Numeral.ofInt fault.position
  let bytes :=
    if fault.count = 1 then
      "byte 0x".toList ++ hexadecimal 2 fault.first.toNat ++ " in position ".toList ++ place
    else
      "bytes in position ".toList ++ place ++ '-' ::
        Numeral.ofInt (fault.position + fault.count - 1)
  "'utf-8' codec can't decode ".toList ++ bytes ++ ": ".toList ++ fault.reason.message.toList

end Astra.Text.Utf8
