import SyncAudit.Proofs.Path.Entry

/-!
# Paths that end in a name

A path that ends in the name of an entry has no idle parts behind it, so it is its own trimmed form,
and its last name stays when it is joined to another path. The path of a location from the top has the
names of that location.
-/
namespace SyncAudit

namespace Path

/-- The text of a path ends in the name of an entry. -/
structure EndsIn (p : Path) (n : Name) : Prop where
  name : EntryName n
  split : ∃ base, (base = [] ∨ ∃ front, base = front ++ [slash]) ∧ p.bytes = base ++ n

variable {p q : Path} {n : Name}

/-- Bytes that end in a slash, or none, are the stem of a path. -/
theorem stem_of_base {base : List UInt8} (hbase : base = [] ∨ ∃ front, base = front ++ [slash]) :
    stem ⟨base⟩ = base := by
  rcases hbase with rfl | ⟨front, rfl⟩
  · rfl
  · simp [stem, endsInSlash]

theorem EndsIn.fileName (h : p.EndsIn n) : p.fileName? = some n := by
  obtain ⟨base, hbase, hbytes⟩ := h.split
  obtain rfl : p = child ⟨base⟩ n := by
    rw [child_eq _ h.name, stem_of_base hbase, ← hbytes]
  exact fileName_child ⟨base⟩ h.name

theorem EndsIn.trimmed (h : p.EndsIn n) : p.trimmed? = some p := by
  obtain ⟨base, hbase, hbytes⟩ := h.split
  obtain rfl : p = ⟨base ++ n⟩ := by rw [← hbytes]
  have hanchor : anchorLength ⟨base ++ n⟩ ≤ base.length := by
    simpa using anchorLength_le base [] h.name
  rw [trimmed?, h.fileName, Option.map_some, reversedBody_of_base hbase h.name,
    List.take_append_of_le_length hanchor, List.reverse_append, List.reverse_reverse,
    List.reverse_reverse, ← List.append_assoc, List.take_append_drop]

theorem EndsIn.join (h : q.EndsIn n) (hq : q.isAbsolute = false) (p : Path) :
    (p.join q).EndsIn n := by
  obtain ⟨base, hbase, hbytes⟩ := h.split
  refine ⟨h.name, p.stem ++ base, ?_, ?_⟩
  · rcases hbase with rfl | ⟨front, rfl⟩
    · rw [List.append_nil]
      exact p.stem_eq_nil_or
    · exact .inr ⟨p.stem ++ front, (List.append_assoc ..).symm⟩
  · rw [join_bytes p hq, hbytes, List.append_assoc]

end Path
end SyncAudit
