/-!
# UTF-8 over byte lists

A byte list is read from the front into characters. Where no character can be completed, one
faulty stretch is recorded: the longest run of bytes that some character starts with, or a single
byte that starts none. The strict reading refuses faulty stretches; the lossy reading puts a
replacement character in the place of each.
-/
namespace SyncAudit.Text.Utf8

/-- The bytes of a text. -/
def encode (cs : List Char) : List UInt8 :=
  cs.flatMap String.utf8EncodeChar

/-- How far a character has been read: not at all, or `count` more bytes are due, the first of
them between `low` and `high`, and the bits seen so far make up `code`. -/
inductive Progress where
  | ground
  | inside (count code low high : Nat)
  deriving DecidableEq, Repr

/-- The reading of a byte that stands where a character may start: the pieces it completes and
the progress after it. The bounds on the second byte exclude overlong forms, surrogates and
numbers past the last code point. -/
def enter (b : UInt8) : List (Option Char) × Progress :=
  let n := b.toNat
  if n < 0x80 then ([some (Char.ofNat n)], .ground)
  else if n < 0xC2 then ([none], .ground)
  else if n < 0xE0 then ([], .inside 1 (n - 0xC0) 0x80 0xBF)
  else if n = 0xE0 then ([], .inside 2 0 0xA0 0xBF)
  else if n = 0xED then ([], .inside 2 0xD 0x80 0x9F)
  else if n < 0xF0 then ([], .inside 2 (n - 0xE0) 0x80 0xBF)
  else if n = 0xF0 then ([], .inside 3 0 0x90 0xBF)
  else if n < 0xF4 then ([], .inside 3 (n - 0xF0) 0x80 0xBF)
  else if n = 0xF4 then ([], .inside 3 4 0x80 0x8F)
  else ([none], .ground)

/-- The reading of one byte. A byte that does not continue the character under way closes a
faulty stretch and is then read afresh. -/
def advance (b : UInt8) : Progress → List (Option Char) × Progress
  | .ground => enter b
  | .inside count code low high =>
    if low ≤ b.toNat ∧ b.toNat ≤ high then
      let code := code * 0x40 + (b.toNat - 0x80)
      if count ≤ 1 then ([some (Char.ofNat code)], .ground)
      else ([], .inside (count - 1) code 0x80 0xBF)
    else
      let (pieces, progress) := enter b
      (none :: pieces, progress)

/-- The characters and faulty stretches (`none`) of a byte list, read on from `progress`. -/
def piecesFrom (progress : Progress) : List UInt8 → List (Option Char)
  | [] => if progress = .ground then [] else [none]
  | b :: rest =>
    let (pieces, next) := advance b progress
    pieces ++ piecesFrom next rest

/-- The characters and faulty stretches (`none`) of a byte list. -/
def pieces (bytes : List UInt8) : List (Option Char) :=
  piecesFrom .ground bytes

/-- The text of a byte list without faulty stretches. -/
def decode? (bytes : List UInt8) : Option (List Char) :=
  (pieces bytes).mapM id

/-- The text of a byte list, with U+FFFD in the place of each faulty stretch. -/
def decodeLossy (bytes : List UInt8) : List Char :=
  (pieces bytes).map (·.getD '\uFFFD')

end SyncAudit.Text.Utf8

namespace SyncAudit.Text

/-- The bytes of a string. -/
def toBytes (s : String) : List UInt8 :=
  Utf8.encode s.toList

/-- The string that a byte list spells, if it is valid UTF-8. -/
def ofBytes? (bytes : List UInt8) : Option String :=
  (Utf8.decode? bytes).map String.ofList

/-- The string that a byte list spells, faulty stretches replaced. -/
def ofBytesLossy (bytes : List UInt8) : String :=
  String.ofList (Utf8.decodeLossy bytes)

end SyncAudit.Text
