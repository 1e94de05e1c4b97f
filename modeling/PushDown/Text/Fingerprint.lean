/-! # Text fingerprints

    A 64-bit fingerprint of a text: SipHash with one compression round and
    three finalisation rounds under the zero key, over the UTF-8 bytes of the
    text and one closing byte `0xFF`. The closing byte keeps a text apart from
    its extensions when several are fed one after the other.

    The state is four words. Bytes are taken eight at a time as little-endian
    words; the last word carries the bytes that are left over and, in its top
    byte, the length of the input.
-/

namespace PushDown.Text

/-! ## §1. State and rounds -/

/-- The four words of the hash state. -/
structure SipState where
  v0 : UInt64
  v1 : UInt64
  v2 : UInt64
  v3 : UInt64

namespace SipState

/-- The state before any input, under the zero key. -/
def start : SipState :=
  ⟨0x736f6d6570736575, 0x646f72616e646f6d, 0x6c7967656e657261, 0x7465646279746573⟩

/-- A word turned left by `n` bits, for `0 < n < 64`. -/
def rotate (x n : UInt64) : UInt64 :=
  (x <<< n) ||| (x >>> (64 - n))

/-- One round: additions, rotations and exclusive ors over the four words. -/
def round (s : SipState) : SipState :=
  let v0 := s.v0 + s.v1
  let v1 := rotate s.v1 13 ^^^ v0
  let v0 := rotate v0 32
  let v2 := s.v2 + s.v3
  let v3 := rotate s.v3 16 ^^^ v2
  let v0 := v0 + v3
  let v3 := rotate v3 21 ^^^ v0
  let v2 := v2 + v1
  let v1 := rotate v1 17 ^^^ v2
  let v2 := rotate v2 32
  ⟨v0, v1, v2, v3⟩

/-- Takes in one word of input. -/
def absorb (s : SipState) (word : UInt64) : SipState :=
  let s := round { s with v3 := s.v3 ^^^ word }
  { s with v0 := s.v0 ^^^ word }

/-- The fingerprint once every word is taken in. -/
def finish (s : SipState) : UInt64 :=
  let s := round (round (round { s with v2 := s.v2 ^^^ 0xff }))
  s.v0 ^^^ s.v1 ^^^ s.v2 ^^^ s.v3

end SipState

/-! ## §2. Bytes and texts -/

/-- The word whose bytes, lowest first, are the given ones. -/
def littleEndian (bytes : List UInt8) : UInt64 :=
  bytes.foldr (fun b acc => (acc <<< 8) ||| b.toUInt64) 0

/-- Takes in `bytes`, the tail of an input of `length` bytes. -/
def absorbBytes (length : Nat) (s : SipState) : List UInt8 → SipState
  | b0 :: b1 :: b2 :: b3 :: b4 :: b5 :: b6 :: b7 :: rest =>
    absorbBytes length (s.absorb (littleEndian [b0, b1, b2, b3, b4, b5, b6, b7])) rest
  | rest => s.absorb (littleEndian rest ||| (UInt64.ofNat length <<< 56))

/-- The fingerprint of a byte string. -/
def fingerprintBytes (bytes : List UInt8) : UInt64 :=
  (absorbBytes bytes.length .start bytes).finish

/-- The fingerprint of a text. -/
def fingerprint (text : String) : UInt64 :=
  fingerprintBytes (text.toUTF8.data.toList ++ [0xff])

end PushDown.Text
