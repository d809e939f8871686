import SyncAudit.Number.Shortest
import SyncAudit.Proofs.Number.Numeral
import SyncAudit.Proofs.Settings.Variables
import SyncAudit.Proofs.Text.Encoding
import SyncAudit.Settings.Conversion

/-!
# Texts that are read as values

The text of a variable is read as a truth value or a number if it can be, and where a text is wanted
that value is spelled again. The spelling is the text itself for a text that reads as nothing else, for
the two words that stand for truth values, and for a number in the one form in which it would be
spelled. Any other text comes back changed.
-/
namespace SyncAudit

/-! ## Integers -/

namespace Double

end Double

/-! ## Words in lower case -/

namespace Text

end Text

namespace Environment

open Settings (Scalar Value)

end Environment

end SyncAudit
