import SyncAudit.Path
import SyncAudit.RepoId
import SyncAudit.Timestamp.Basic

/-!
# Reports

The entries of an audit in the order in which they were classified, with running counts. A
repository that is configured counts as valid as well.
-/
namespace SyncAudit

inductive RepoStatus where
  | valid
  | validWithConfig
  | invalid
  deriving DecidableEq, Repr

structure RepoEntry where
  id : RepoId
  path : Path
  status : RepoStatus
  deriving DecidableEq, Repr

/-- Counts of classified repositories. -/
structure Summary where
  valid : Nat
  validWithConfig : Nat
  invalid : Nat
  deriving DecidableEq, Repr

namespace Summary

def zero : Summary :=
  ⟨0, 0, 0⟩

def record (s : Summary) : RepoStatus → Summary
  | .valid => { s with valid := s.valid + 1 }
  | .validWithConfig =>
    { s with valid := s.valid + 1, validWithConfig := s.validWithConfig + 1 }
  | .invalid => { s with invalid := s.invalid + 1 }

def total (s : Summary) : Nat :=
  s.valid + s.invalid

/-- The three lines that close an audit. -/
def lines (s : Summary) : List String :=
  [s!"Total Valid: {s.valid}", s!"Total Valid With Config: {s.validWithConfig}",
    s!"Total Invalid: {s.invalid}"]

end Summary

structure Report where
  summary : Summary
  validIdsLoaded : Nat
  entries : List RepoEntry
  generatedAt : Timestamp
  deriving DecidableEq

namespace Report

def start (validIdsLoaded : Nat) (now : Timestamp) : Report :=
  ⟨.zero, validIdsLoaded, [], now⟩

def push (r : Report) (entry : RepoEntry) : Report :=
  { r with summary := r.summary.record entry.status, entries := r.entries ++ [entry] }

/-- The entries that are not valid. -/
def stale (r : Report) : List RepoEntry :=
  r.entries.filter fun entry => entry.status = .invalid

def total (r : Report) : Nat :=
  r.entries.length

end Report
end SyncAudit
