import SyncAudit.Text.Blank
import SyncAudit.Text.Unprintable
import SyncAudit.Text.Extender
import SyncAudit.Text.Utf8

/-!
# Quoted text

The form in which messages show a text whose blanks and controls matter: in double quotes, with
every character that has no visible form of its own written as an escape.
-/
namespace SyncAudit.Text

/-- Whether a character is shown as it stands: it has a visible form, and one that does not
attach to the character before it. -/
def isVisible (c : Char) : Bool :=
  !inRanges unprintableRanges c.toNat && !inRanges extenderRanges c.toNat

/-- The lower-case hexadecimal digits of a number, without leading zeros. -/
def hexDigits (n : Nat) : List Char :=
  Nat.toDigits 16 n

/-- A character by its code point, `u` and the hexadecimal digits in braces after a backslash. -/
def codeEscape (c : Char) : List Char :=
  ['\\', 'u', '\x7b'] ++ hexDigits c.toNat ++ ['\x7d']

def quoteChar (c : Char) : List Char :=
  if c = '\x00' then ['\\', '0']
  else if c = '\t' then ['\\', 't']
  else if c = '\r' then ['\\', 'r']
  else if c = '\n' then ['\\', 'n']
  else if c = '"' then ['\\', '"']
  else if c = '\\' then ['\\', '\\']
  else if isVisible c then [c]
  else codeEscape c

/-- A text in double quotes, with escapes for quotes, backslashes and all that is not visible. -/
def quote (s : String) : String :=
  String.ofList ('"' :: s.toList.flatMap quoteChar ++ ['"'])

/-! ## Quoted bytes -/

/-- The character at the front of a byte list and the number of its bytes, if there is one. -/
def frontChar? (bytes : List UInt8) : Option (Char × Nat) :=
  [1, 2, 3, 4].findSome? fun count =>
    match Utf8.decode? (bytes.take count) with
    | some [c] => some (c, count)
    | _ => none

/-- A byte by its two hexadecimal digits in upper case. -/
def byteEscape (b : UInt8) : List Char :=
  let digits := (hexDigits b.toNat).map Char.toUpper
  ['\\', 'x'] ++ List.replicate (2 - digits.length) '0' ++ digits

/-- The characters that show a byte list, of which the next `done` bytes are shown already. -/
def quotedBytesFrom (done : Nat) : List UInt8 → List Char
  | [] => []
  | b :: rest =>
    match done with
    | done + 1 => quotedBytesFrom done rest
    | 0 =>
      match frontChar? (b :: rest) with
      | some (c, count) => quoteChar c ++ quotedBytesFrom (count - 1) rest
      | none => byteEscape b ++ quotedBytesFrom 0 rest

/-- Bytes in double quotes: characters as in quoted text, any other byte by its number. -/
def quoteBytes (bytes : List UInt8) : String :=
  String.ofList ('"' :: quotedBytesFrom 0 bytes ++ ['"'])

end SyncAudit.Text
