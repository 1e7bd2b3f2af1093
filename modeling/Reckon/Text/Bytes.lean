/-!
# Bytes

A text is kept as bytes, one to four of them for a character. Bytes that are no text still have a
readable part. They are read in blocks, and a block in which a byte cannot stand where it does is
lost as a whole, save that the end is found only behind the last block. Whole characters before that
are readable.
-/

set_option autoImplicit false

namespace Reckon.Text

/-- How many bytes have to follow a first byte, and the range of the next one of them. -/
structure Expected where
  count : Nat
  least : Nat
  most : Nat

/-- What has to follow a byte that starts a character; nothing for a byte that starts none. -/
def expectedAfter? (first : Nat) : Option Expected :=
  if first < 0x80 then some ⟨0, 0, 0⟩
  else if first < 0xc2 then none
  else if first < 0xe0 then some ⟨1, 0x80, 0xbf⟩
  else if first = 0xe0 then some ⟨2, 0xa0, 0xbf⟩
  else if first < 0xf0 then some ⟨2, 0x80, 0xbf⟩
  else if first = 0xf0 then some ⟨3, 0x90, 0xbf⟩
  else if first < 0xf4 then some ⟨3, 0x80, 0xbf⟩
  else if first = 0xf4 then some ⟨3, 0x80, 0x8f⟩
  else none

/-- What has to follow behind the second byte of a character. Two bytes that would start a half of a
character are found out by whatever follows them. -/
def expectedBehind (first second count : Nat) : Expected :=
  if first = 0xed ∧ 0xa0 ≤ second then ⟨count, 1, 0⟩ else ⟨count, 0x80, 0xbf⟩

/-- Where bytes stop being a text. -/
structure Offence where
  /-- Where the character starts that is not complete. -/
  start : Nat
  /-- Where the byte stands that cannot stand there, or the end. -/
  position : Nat

/-- Where bytes stop being a text, given the position of the first of them, the position and the
value of the byte that started the present character, and what has to follow. -/
def offenceFrom? (position start first : Nat) (expected : Expected) : List Nat → Option Offence
  | [] => if expected.count = 0 then none else some ⟨start, position⟩
  | byte :: rest =>
    match expected.count with
    | 0 =>
      match expectedAfter? byte with
      | none => some ⟨position, position⟩
      | some next => offenceFrom? (position + 1) position byte next rest
    | count + 1 =>
      if expected.least ≤ byte ∧ byte ≤ expected.most then
        offenceFrom? (position + 1) start first (expectedBehind first byte count) rest
      else some ⟨start, position⟩

def offence? (bytes : List Nat) : Option Offence :=
  offenceFrom? 0 0 0 ⟨0, 0, 0⟩ bytes

def blockSize : Nat := 8192

/-- The bytes without those at their end that belong to a character which goes on behind them,
given the first byte behind them and the bytes in reverse. -/
def wholeBefore (next : Nat) : List Nat → List Nat
  | [] => []
  | byte :: rest =>
    if 0x80 ≤ next ∧ next < 0xc0 then wholeBefore byte rest else byte :: rest

/-- The bytes of the readable part of bytes that are no text. -/
def readableBytes (bytes : List Nat) (offence : Offence) : List Nat :=
  let found := if offence.position = bytes.length then bytes.length
    else offence.position / blockSize * blockSize
  if offence.start ≤ found then bytes.take offence.start
  else
    match bytes.drop found with
    | [] => []
    | next :: _ => (wholeBefore next (bytes.take found).reverse).reverse

def ofBytes? (bytes : List Nat) : Option String :=
  String.fromUTF8? (ByteArray.mk (bytes.map UInt8.ofNat).toArray)

/-- The readable part of bytes that are no text. -/
def readablePart (bytes : List Nat) : String :=
  match offence? bytes with
  | none => ""
  | some offence => (ofBytes? (readableBytes bytes offence)).getD ""

end Reckon.Text
