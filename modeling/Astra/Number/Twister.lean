/-!
# Pseudo-random numbers

The Mersenne twister with a state of 624 words of 32 bits, seeded from a whole number of any size.
Each number between zero and one takes two words and has 53 random bits.
-/

namespace Astra.Number

/-- The words of the current round, and how many of them have been used. -/
structure Twister where
  words : Array UInt32
  used : Nat

namespace Twister

def size : Nat := 624

/-- The number without its sign in base `2 ^ 32`, least significant word first; there is at least
one word. -/
def seedWords (seed : Int) : List UInt32 :=
  let digits := Nat.toDigits 2 seed.natAbs
  let count := (digits.length + 31) / 32
  (List.range count).map fun i => (seed.natAbs >>> (32 * i)).toUInt32

def fold (word : UInt32) : UInt32 := word ^^^ (word >>> 30)

def ofWord (word : UInt32) : Array UInt32 :=
  (List.range (size - 1)).foldl
    (fun words i => words.push (1812433253 * fold (words.getD i 0) + (i + 1).toUInt32)) #[word]

/-- The place after `i` in the circle of all places but the first. -/
def nextPlace (i : Nat) : Nat := if i + 1 < size then i + 1 else 1

/-- Writes a word; the last word is copied to the first place, where the next round of writes looks
for its predecessor. -/
def write (words : Array UInt32) (i : Nat) (word : UInt32) : Array UInt32 :=
  let words := words.setIfInBounds i word
  if i + 1 < size then words else words.setIfInBounds 0 word

def absorb (key : Array UInt32) (words : Array UInt32) : Array UInt32 × Nat :=
  (List.range (max size key.size)).foldl
    (fun (words, i) k =>
      let j := k % key.size
      let word := (words.getD i 0 ^^^ (fold (words.getD (i - 1) 0) * 1664525)) +
        key.getD j 0 + j.toUInt32
      (write words i word, nextPlace i))
    (words, 1)

/-- Spreads what was mixed in over the whole state. -/
def diffuse (words : Array UInt32) (start : Nat) : Array UInt32 :=
  ((List.range (size - 1)).foldl
    (fun (words, i) _ =>
      let word := (words.getD i 0 ^^^ (fold (words.getD (i - 1) 0) * 1566083941)) - i.toUInt32
      (write words i word, nextPlace i))
    (words, start)).1

def ofSeed (seed : Int) : Twister :=
  let (words, place) := absorb (seedWords seed).toArray (ofWord 19650218)
  -- the first word keeps the state from being all zeros
  ⟨(diffuse words place).setIfInBounds 0 0x80000000, size⟩

def twist (words : Array UInt32) : Array UInt32 :=
  (List.range size).foldl
    (fun words i =>
      let joined := (words.getD i 0 &&& 0x80000000) ||| (words.getD ((i + 1) % size) 0 &&& 0x7fffffff)
      let matrix : UInt32 := if joined &&& 1 = 1 then 0x9908b0df else 0
      words.setIfInBounds i (words.getD ((i + 397) % size) 0 ^^^ (joined >>> 1) ^^^ matrix))
    words

/-- Spreads the bits of a word of the state before it is given out. -/
def temper (word : UInt32) : UInt32 :=
  let word := word ^^^ (word >>> 11)
  let word := word ^^^ ((word <<< 7) &&& 0x9d2c5680)
  let word := word ^^^ ((word <<< 15) &&& 0xefc60000)
  word ^^^ (word >>> 18)

def nextWord (t : Twister) : UInt32 × Twister :=
  let t := if t.used < size then t else ⟨twist t.words, 0⟩
  (temper (t.words.getD t.used 0), ⟨t.words, t.used + 1⟩)

/-- A number of at least zero and less than one. -/
def nextUnit (t : Twister) : Float × Twister :=
  -- 27 and 26 bits make up the 53 bits of a fraction
  let (high, t) := t.nextWord
  let (low, t) := t.nextWord
  (((high >>> 5).toFloat * 67108864.0 + (low >>> 6).toFloat) * (1.0 / 9007199254740992.0), t)

def nextBetween (low high : Float) (t : Twister) : Float × Twister :=
  let (unit, t) := t.nextUnit
  (low + (high - low) * unit, t)

end Twister

end Astra.Number
