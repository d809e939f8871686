/-!
# Lines of a byte stream

A line ends at a line feed, and one carriage return before the line feed belongs to the ending.
Bytes after the last line feed form a line of their own, which keeps its carriage returns.
-/
namespace SyncAudit.Text

def lineFeed : UInt8 := 0x0A

def carriageReturn : UInt8 := 0x0D

/-- The line whose bytes before the line feed are given last byte first. -/
def endLine : List UInt8 → List UInt8
  | [] => []
  | b :: rest => if b = carriageReturn then rest.reverse else (b :: rest).reverse

/-- The lines of a byte stream when the bytes `seen`, last byte first, already stand in the
first line. -/
def linesFrom (seen : List UInt8) : List UInt8 → List (List UInt8)
  | [] => if seen.isEmpty then [] else [seen.reverse]
  | b :: rest =>
    if b = lineFeed then endLine seen :: linesFrom [] rest else linesFrom (b :: seen) rest

/-- The lines of a byte stream, without their endings. -/
def lines (bytes : List UInt8) : List (List UInt8) :=
  linesFrom [] bytes

end SyncAudit.Text
