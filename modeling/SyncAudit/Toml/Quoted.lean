import SyncAudit.Number.Digits

/-!
# TOML strings

Basic strings stand in double quotes and have escapes, literal strings stand in single quotes and
have none. Three quotes enclose a string of several lines: one or two quotes may stand within it,
also right before the closing ones, a line break right behind the opening ones does not count, and
every line break counts as a line feed.
-/
namespace SyncAudit.Toml

/-- Whether a character may stand in text as it is: all but control characters, the tab aside. -/
def isTextChar (c : Char) : Bool :=
  c = '\t' || (0x20 ≤ c.toNat && c.toNat ≠ 0x7F)

/-- The character of a code point in hexadecimal digits. -/
def codePoint? (digits : List Char) : Option Char :=
  let n := ofDigits 16 digits
  if digits.all (isDigitOf 16) ∧ n.isValidChar then some (Char.ofNat n) else none

/-- The character of a one-letter escape. -/
def escaped? (c : Char) : Option Char :=
  if c = '"' ∨ c = '\\' then some c
  else if c = 'b' then some '\x08'
  else if c = 't' then some '\t'
  else if c = 'n' then some '\n'
  else if c = 'f' then some '\x0c'
  else if c = 'r' then some '\r'
  else if c = 'e' then some '\x1b'
  else none

/-- A character in front of a text. -/
def keep (c : Option Char) (text : Option (List Char)) : Option (List Char) := do
  some ((← c) :: (← text))

/-! ## Strings of one line -/

/-- The text and the rest of an input behind one more part of the text. -/
def extend (part : List Char) : Option (List Char × List Char) → Option (List Char × List Char) :=
  Option.map fun (text, rest) => (part ++ text, rest)

/-- The raw text up to the closing quote, and what follows the quote. In double quotes a backslash
keeps the character behind it from closing the string. -/
def splitLine (quote : Char) : List Char → Option (List Char × List Char)
  | [] => none
  | [c] => if c = quote then some ([], []) else none
  | c :: d :: rest =>
    if c = quote then some ([], d :: rest)
    else if c = '\\' ∧ quote = '"' then extend [c, d] (splitLine quote rest)
    else extend [c] (splitLine quote (d :: rest))

/-- The text of a raw text with escapes. -/
def unescape : List Char → Option (List Char)
  | [] => some []
  | '\\' :: 'x' :: a :: b :: rest => keep (codePoint? [a, b]) (unescape rest)
  | '\\' :: 'u' :: a :: b :: c :: d :: rest => keep (codePoint? [a, b, c, d]) (unescape rest)
  | '\\' :: 'U' :: a :: b :: c :: d :: e :: f :: g :: h :: rest =>
    keep (codePoint? [a, b, c, d, e, f, g, h]) (unescape rest)
  | '\\' :: c :: rest => keep (escaped? c) (unescape rest)
  | c :: rest => if isTextChar c ∧ c ≠ '\\' then keep (some c) (unescape rest) else none

def verbatim (cs : List Char) : Option (List Char) :=
  if cs.all isTextChar then some cs else none

/-- The string behind an opening quote, and what follows it. -/
def readLineString (quote : Char) (cs : List Char) : Option (String × List Char) := do
  let (raw, rest) ← splitLine quote cs
  let text ← if quote = '"' then unescape raw else verbatim raw
  some (String.ofList text, rest)

/-! ## Strings of several lines -/

/-- The raw text up to three closing quotes, and what follows them. Up to two more quotes belong
to the text. -/
def splitLines (quote : Char) : List Char → Option (List Char × List Char)
  | a :: b :: c :: rest =>
    if a = quote ∧ b = quote ∧ c = quote then
      let extra := (rest.take 2).takeWhile (· = quote)
      some (extra, rest.drop extra.length)
    else if a = '\\' ∧ quote = '"' then extend [a, b] (splitLines quote (c :: rest))
    else extend [a] (splitLines quote (b :: c :: rest))
  | _ => none

/-- How white space is read: as text, or, behind a backslash at the end of a line, not at all. -/
inductive Spacing where
  | kept
  /-- Only blanks may come before the end of the line. -/
  | lineEnd
  /-- White space is dropped up to the next other character. -/
  | dropped
  deriving DecidableEq, Repr

/-- A character that is no white space, in front of a text. -/
def keepAfter (spacing : Spacing) (c : Option Char) (text : Option (List Char)) :
    Option (List Char) :=
  if spacing = .lineEnd then none else keep c text

/-- The text of a raw text of several lines with escapes. -/
def unescapeLines (spacing : Spacing) : List Char → Option (List Char)
  | [] => if spacing = .lineEnd then none else some []
  | '\r' :: '\n' :: rest | '\n' :: rest =>
    if spacing = .kept then keep (some '\n') (unescapeLines .kept rest)
    else unescapeLines .dropped rest
  | '\\' :: 'x' :: a :: b :: rest =>
    keepAfter spacing (codePoint? [a, b]) (unescapeLines .kept rest)
  | '\\' :: 'u' :: a :: b :: c :: d :: rest =>
    keepAfter spacing (codePoint? [a, b, c, d]) (unescapeLines .kept rest)
  | '\\' :: 'U' :: a :: b :: c :: d :: e :: f :: g :: h :: rest =>
    keepAfter spacing (codePoint? [a, b, c, d, e, f, g, h]) (unescapeLines .kept rest)
  | '\\' :: '\r' :: '\n' :: rest | '\\' :: '\n' :: rest =>
    if spacing = .lineEnd then none else unescapeLines .dropped rest
  | '\\' :: c :: rest =>
    if c = ' ' ∨ c = '\t' then
      if spacing = .lineEnd then none else unescapeLines .lineEnd rest
    else keepAfter spacing (escaped? c) (unescapeLines .kept rest)
  | c :: rest =>
    if (c = ' ' ∨ c = '\t') ∧ spacing ≠ .kept then unescapeLines spacing rest
    else if isTextChar c ∧ c ≠ '\\' then keepAfter spacing (some c) (unescapeLines .kept rest)
    else none

/-- The text of a raw text of several lines without escapes. -/
def verbatimLines : List Char → Option (List Char)
  | [] => some []
  | '\r' :: '\n' :: rest | '\n' :: rest => keep (some '\n') (verbatimLines rest)
  | c :: rest => if isTextChar c then keep (some c) (verbatimLines rest) else none

/-- A text without a line break at its front. -/
def dropBreak : List Char → List Char
  | '\r' :: '\n' :: rest | '\n' :: rest => rest
  | cs => cs

/-- The string behind three opening quotes, and what follows it. -/
def readLinesString (quote : Char) (cs : List Char) : Option (String × List Char) := do
  let (raw, rest) ← splitLines quote (dropBreak cs)
  let text ← if quote = '"' then unescapeLines .kept raw else verbatimLines raw
  some (String.ofList text, rest)

end SyncAudit.Toml
