/-!
# Text for terminals

Messages open with a symbol for their kind. In colour the symbol is bold, and the text of a
success or a warning has the colour of its symbol; a reset inside such a text is followed by the
colour again, so that the rest of the text keeps it.
-/
namespace SyncAudit.Terminal

/-- The sequence that selects a style. -/
def select (style : List Char) : List Char :=
  ['\x1b', '['] ++ style ++ ['m']

def reset : List Char :=
  select ['0']

/-- A text in which every reset is followed by the style's own sequence. -/
def renew (style : List Char) : List Char → List Char
  | '\x1b' :: '[' :: '0' :: 'm' :: rest => reset ++ select style ++ renew style rest
  | c :: rest => c :: renew style rest
  | [] => []

/-- A text in a style, with a reset behind it. -/
def paint (style text : List Char) : List Char :=
  select style ++ renew style text ++ reset

inductive Notice where
  | success
  | warning
  | info
  deriving DecidableEq, Repr

namespace Notice

def symbol : Notice → List Char
  | .success => ['✓']
  | .warning => ['⚠']
  | .info => ['ℹ']

def hue : Notice → List Char
  | .success => ['3', '2']
  | .warning => ['3', '3']
  | .info => ['3', '4']

/-- Whether the text has the colour of the symbol. -/
def paintsText : Notice → Bool
  | .info => false
  | _ => true

/-- A message under its symbol. -/
def line (notice : Notice) (colored : Bool) (message : String) : String :=
  let text := message.toList
  if colored then
    String.ofList (paint (['1', ';'] ++ notice.hue) notice.symbol
      ++ ' ' :: (if notice.paintsText then paint notice.hue text else text))
  else String.ofList (notice.symbol ++ ' ' :: text)

end Notice
end SyncAudit.Terminal
