import SyncAudit.Report.Basic

/-!
# Progress

Counts kept beside a report while its entries come in, for a display that may be hidden. How they
are shown does not influence them.
-/
namespace SyncAudit

inductive ProgressStyle where
  | hidden
  | plain
  | colored
  deriving DecidableEq, Repr

structure Progress where
  style : ProgressStyle
  /-- How many repositories are expected. -/
  expected : Nat
  summary : Summary
  deriving DecidableEq, Repr

namespace Progress

def start (style : ProgressStyle) (expected : Nat) : Progress :=
  ⟨style, expected, .zero⟩

def record (p : Progress) (status : RepoStatus) : Progress :=
  { p with summary := p.summary.record status }

/-- Takes the display away. The counts stay. -/
def finish (p : Progress) : Progress :=
  { p with style := .hidden }

end Progress
end SyncAudit
