/-
# TreeGrammar.Text.Utf8 -- texts as octets

Encoding writes each character in one to four octets.  Decoding reads octet by
octet: `opening` says what a first octet begins, `Pending.feed` what a further
octet makes of a character begun.  The range of the next octet is kept with the
character begun, so overlong forms, surrogates and numbers beyond the last code
point are refused at their second octet.

`decode` refuses the first octets that are no character and says where they
begin; `decodeLossy` writes one replacement character for each such stretch and
goes on.
-/
import TreeGrammar.Text.Basic

set_option autoImplicit false

namespace TreeGrammar.Text

abbrev Octets := List UInt8

/-- The octets of a text. -/
def encode (text : Text) : Octets :=
  text.flatMap String.utf8EncodeChar

namespace Utf8

/-- A character begun: the value of the octets read so far, how many are due, and
the range of the next one. -/
structure Pending where
  value : Nat
  due : Nat
  low : Nat
  high : Nat

/-- What one more octet leads to. -/
inductive Reading where
  | complete (c : Char)
  | pending (begun : Pending)
  | invalid

/-- What a first octet begins. -/
def opening (octet : UInt8) : Reading :=
  let n := octet.toNat
  if n < 0x80 then .complete (Char.ofNat n)
  else if n < 0xC2 then .invalid
  else if n < 0xE0 then .pending ⟨n - 0xC0, 1, 0x80, 0xBF⟩
  else if n < 0xF0 then
    .pending ⟨n - 0xE0, 2, if n = 0xE0 then 0xA0 else 0x80, if n = 0xED then 0x9F else 0xBF⟩
  else if n < 0xF5 then
    .pending ⟨n - 0xF0, 3, if n = 0xF0 then 0x90 else 0x80, if n = 0xF4 then 0x8F else 0xBF⟩
  else .invalid

/-- What a further octet makes of a character begun. -/
def Pending.feed (begun : Pending) (octet : UInt8) : Reading :=
  let n := octet.toNat
  if begun.low ≤ n ∧ n ≤ begun.high then
    let value := begun.value * 64 + (n - 0x80)
    if begun.due = 1 then .complete (Char.ofNat value)
    else .pending ⟨value, begun.due - 1, 0x80, 0xBF⟩
  else .invalid

/-- Why octets are no character. -/
inductive Fault where
  | start
  | continuation
  | endOfData
  deriving DecidableEq

def Fault.message : Fault → Text
  | .start => "invalid start byte"
  | .continuation => "invalid continuation byte"
  | .endOfData => "unexpected end of data"

/-- The first octets that are no character: how many octets stand before them, and
what is wrong. -/
structure Failure where
  position : Nat
  fault : Fault

/-- Decode from an octet position on; a character begun comes with the position of
its first octet. -/
def decodeFrom (position : Nat) : Option (Nat × Pending) → Octets → Except Failure Text
  | none, [] => .ok []
  | some (first, _), [] => .error ⟨first, .endOfData⟩
  | none, octet :: rest =>
      match opening octet with
      | .complete c => (c :: ·) <$> decodeFrom (position + 1) none rest
      | .pending begun => decodeFrom (position + 1) (some (position, begun)) rest
      | .invalid => .error ⟨position, .start⟩
  | some (first, begun), octet :: rest =>
      match begun.feed octet with
      | .complete c => (c :: ·) <$> decodeFrom (position + 1) none rest
      | .pending more => decodeFrom (position + 1) (some (first, more)) rest
      | .invalid => .error ⟨first, .continuation⟩

/-- What is written and what is left begun after a first octet. -/
def openLossy (octet : UInt8) : Text × Option Pending :=
  match opening octet with
  | .complete c => ([c], none)
  | .pending begun => ([], some begun)
  | .invalid => (['\uFFFD'], none)

/-- What is written and what is left begun after any octet: one that does not go on
with the character begun ends it and is read as a first octet. -/
def advanceLossy : Option Pending → UInt8 → Text × Option Pending
  | none, octet => openLossy octet
  | some begun, octet =>
      match begun.feed octet with
      | .complete c => ([c], none)
      | .pending more => ([], some more)
      | .invalid => ('\uFFFD' :: (openLossy octet).1, (openLossy octet).2)

def decodeLossyFrom : Option Pending → Octets → Text
  | none, [] => []
  | some _, [] => ['\uFFFD']
  | begun, octet :: rest =>
      (advanceLossy begun octet).1 ++ decodeLossyFrom (advanceLossy begun octet).2 rest

end Utf8

/-- The text that the octets encode. -/
def decode (octets : Octets) : Except Utf8.Failure Text :=
  Utf8.decodeFrom 0 none octets

/-- The text that the octets encode, with a replacement character for each longest
stretch that begins a character and does not end it, and for each other octet that
is part of none. -/
def decodeLossy (octets : Octets) : Text :=
  Utf8.decodeLossyFrom none octets

end TreeGrammar.Text
