import Zizium.Runtime

/-!
# UTF-8 and path components

`kernel/unicode/unicode.c` as far as names use it, and `kernel/fs/vfs/path.c`.
-/

namespace Zizium

open BlockIO

structure ZiUtf8DecodeResult where
  scalar : ℕ
  consumed : ℕ
  deriving DecidableEq, Repr

def ziUnicodeIsScalar (value : ℕ) : Bool :=
  value ≤ 0x10ffff && !(0xd800 ≤ value && value ≤ 0xdfff)

def isContinuation (byte : UInt8) : Bool := byte &&& 0xc0 == 0x80

def continuationBits (byte : UInt8) : ℕ := (byte &&& 0x3f).toNat

def ziUtf8Decode (text : List UInt8) : Result ZiUtf8DecodeResult := do
  failIf (text.length = 0) .invalidArgument
  let first := text.getD 0 0
  let b1 := text.getD 1 0
  let b2 := text.getD 2 0
  let b3 := text.getD 3 0
  let result ←
    if first ≤ 0x7f then
      pure (ZiUtf8DecodeResult.mk first.toNat 1)
    else if 0xc2 ≤ first ∧ first ≤ 0xdf then do
      failIf (text.length < 2 ∨ ¬isContinuation b1) .invalidEncoding
      pure ⟨(first &&& 0x1f).toNat*64+continuationBits b1,2⟩
    else if 0xe0 ≤ first ∧ first ≤ 0xef then do
      failIf (text.length < 3 ∨ ¬isContinuation b1 ∨ ¬isContinuation b2) .invalidEncoding
      failIf ((first = 0xe0 ∧ b1 < 0xa0) ∨ (first = 0xed ∧ 0xa0 ≤ b1)) .invalidEncoding
      pure ⟨(first &&& 0x0f).toNat*4096+continuationBits b1*64+continuationBits b2,3⟩
    else if 0xf0 ≤ first ∧ first ≤ 0xf4 then do
      failIf (text.length < 4 ∨ ¬isContinuation b1 ∨ ¬isContinuation b2 ∨ ¬isContinuation b3)
        .invalidEncoding
      failIf ((first = 0xf0 ∧ b1 < 0x90) ∨ (first = 0xf4 ∧ 0x90 ≤ b1)) .invalidEncoding
      pure ⟨(first &&& 0x07).toNat*262144+continuationBits b1*4096 +
        continuationBits b2*64+continuationBits b3,4⟩
    else throw .invalidEncoding
  failIf (¬ziUnicodeIsScalar result.scalar) .invalidEncoding
  pure result

def utf8ValidateLoop : ℕ → List UInt8 → Result Unit
  | 0, _ => pure ()
  | rounds+1, text =>
    if text.length = 0 then pure ()
    else do
      let result ← ziUtf8Decode text
      utf8ValidateLoop rounds (text.drop result.consumed)

def ziUtf8Validate (text : List UInt8) : Result Unit := utf8ValidateLoop text.length text

/-- The characters the path code names. -/
def slashByte : UInt8 := 0x2f
def backslashByte : UInt8 := 0x5c
def colonByte : UInt8 := 0x3a
def dotByte : UInt8 := 0x2e

structure ZiParsedPath where
  driveLetter : UInt8
  components : List (List UInt8)
  deriving DecidableEq, Repr

def isAsciiLetter (character : UInt8) : Bool :=
  (0x41 ≤ character && character ≤ 0x5a) || (0x61 ≤ character && character ≤ 0x7a)

def isDotComponent (data : List UInt8) : Bool :=
  data == [dotByte] || data == [dotByte,dotByte]

/-- The component scan: `start` is the text of the component being collected and `count`
the number of components already stored. -/
def pathComponentLoop (capacity : ℕ) : (rest start : List UInt8) → (first : Bool) → (count : ℕ) →
    Result (List (List UInt8))
  | [], start, first, count =>
    if start.length = 0 then
      if first then pure [] else throw .invalidPath
    else do
      failIf (isDotComponent start) .invalidPath
      failIf (capacity ≤ count) .bufferTooSmall
      pure [start]
  | byte :: rest, start, first, count =>
    if byte ≠ backslashByte then pathComponentLoop capacity rest (start ++ [byte]) first count
    else do
      failIf (start.length = 0) .invalidPath
      failIf (isDotComponent start) .invalidPath
      failIf (capacity ≤ count) .bufferTooSmall
      let components ← pathComponentLoop capacity rest [] false (count+1)
      pure (start :: components)

def ziPathParseAbsolute (path : List UInt8) (componentCapacity : ℕ) : Result ZiParsedPath := do
  failIf (path.length < 3) .invalidArgument
  failIf (¬isAsciiLetter (path.getD 0 0) ∨ path.getD 1 0 ≠ colonByte ∨
    path.getD 2 0 ≠ backslashByte) .invalidPath
  ziUtf8Validate path
  failIf (∃ byte ∈ path, byte = 0 ∨ byte = slashByte) .invalidPath
  let components ← pathComponentLoop componentCapacity (path.drop 3) [] true 0
  pure ⟨path.getD 0 0,components⟩

/-- Lexicographic comparison of bytes, then of sizes. -/
def compareBytes : List UInt8 → List UInt8 → ℤ
  | [], [] => 0
  | [], _ :: _ => -1
  | _ :: _, [] => 1
  | a :: left, b :: right => if a < b then -1 else if b < a then 1 else compareBytes left right

def ziPathCompareComponent (left right : List UInt8) : Result ℤ := do
  ziUtf8Validate left
  ziUtf8Validate right
  pure (compareBytes left right)

theorem compareBytes_eq_zero_iff {left right : List UInt8} :
    compareBytes left right = 0 ↔ left = right := by
  induction left generalizing right with
  | nil => cases right <;> simp [compareBytes]
  | cons a left ih =>
    cases right with
    | nil => simp [compareBytes]
    | cons b right =>
      rw [compareBytes]
      split
      · next h => simpa using fun h' => absurd h' (UInt8.ne_of_lt h)
      · split
        · next h => simpa using fun h' => absurd h'.symm (UInt8.ne_of_lt h)
        · next h1 h2 =>
          have hab : a = b := UInt8.le_antisymm (UInt8.not_lt.mp h2) (UInt8.not_lt.mp h1)
          simp [ih,hab]

end Zizium
