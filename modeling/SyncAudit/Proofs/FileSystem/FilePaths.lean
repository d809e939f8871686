import SyncAudit.Proofs.FileSystem.Rooted

/-!
# Paths of files

A path that leads to a file ends in a name, with no slash behind it and no step in its place, whatever
links it goes through: only a directory can be reached by a slash, by a dot or by two of them.
-/
namespace SyncAudit.FileSystem

variable {fs : FileSystem} {p : Path} {loc : Location} {access : Access} {content : List UInt8}

/-- A file is the end of its path: its name stands last, and no slash behind it. -/
def EndsOnName (names : List Name) (slashEnded : Bool) : Prop :=
  slashEnded = false ∧ ∃ init n, names = init ++ [n] ∧ LookedUp n

theorem EndsOnName.cons {names : List Name} {slashEnded : Bool} (h : EndsOnName names slashEnded)
    (n : Name) : EndsOnName (n :: names) slashEnded := by
  obtain ⟨hslash, init, last, rfl, hlast⟩ := h
  exact ⟨hslash, n :: init, last, rfl, hlast⟩

end SyncAudit.FileSystem
