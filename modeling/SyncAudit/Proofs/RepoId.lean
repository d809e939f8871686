import SyncAudit.Proofs.Path.Entry
import SyncAudit.Proofs.Text.Layout
import SyncAudit.RepoId

/-!
# Ids that are read back from their keys

A key is parted at its first slash. If neither part is empty and none holds a slash of its own, the
parts are read back from it, white space next to the slash included. The texts of directory names
are such parts, also those of names that are not text.
-/
namespace SyncAudit

/-- Neither part of an id is empty, and neither holds a slash. -/
structure RepoId.Proper (id : RepoId) : Prop where
  nsNonempty : id.ns.toList ≠ []
  nameNonempty : id.name.toList ≠ []
  nsNoSlash : '/' ∉ id.ns.toList
  nameNoSlash : '/' ∉ id.name.toList

namespace RepoId

variable {id : RepoId}

theorem splitAtSlash_append {ns : List Char} (hns : '/' ∉ ns) (name : List Char) :
    splitAtSlash (ns ++ '/' :: name) = some (ns, name) := by
  have hkeep : ∀ c ∈ ns, decide (c ≠ '/') = true := by
    intro c hc
    exact decide_eq_true fun h => hns (h ▸ hc)
  rw [splitAtSlash, List.dropWhile_append_of_pos hkeep, List.takeWhile_append_of_pos hkeep]
  simp

theorem Proper.ofTrimmed_key (h : id.Proper) : ofTrimmed? id.key.toList = some id := by
  have hkey : id.key.toList = id.ns.toList ++ '/' :: id.name.toList := by simp [key]
  rw [ofTrimmed?, hkey, splitAtSlash_append h.nsNoSlash]
  simp [h.nsNonempty, h.nameNonempty, h.nameNoSlash]

/-- Trimming a text first makes no difference to the id that it spells. -/
theorem parse_trim (s : String) : parse? (Text.trim s) = parse? s := by
  rw [parse?, parse?, Text.trim, String.toList_ofList, Text.trimChars_trimChars]

/-- A line that reads like the key of an id spells that id. -/
theorem Proper.parse_of_key (h : id.Proper) {line : String} (hline : Text.trim line = id.key) :
    parse? line = some id := by
  have htrimmed : Text.trimChars line.toList = id.key.toList := by
    rw [← hline, Text.trim, String.toList_ofList]
  rw [parse?, htrimmed, h.ofTrimmed_key]

end RepoId

variable {n r : Name}

theorem EntryName.lossy_nonempty (hn : EntryName n) : (Text.ofBytesLossy n).toList ≠ [] := by
  rw [Text.ofBytesLossy, String.toList_ofList, Text.Utf8.decodeLossy]
  intro h
  exact hn.nonempty (Text.Utf8.piecesFrom_eq_nil_iff.mp (List.map_eq_nil_iff.mp h)).2

/-- A replacement character is no slash, and a slash that is read stands among the bytes. -/
theorem EntryName.lossy_noSlash (hn : EntryName n) : '/' ∉ (Text.ofBytesLossy n).toList := by
  rw [Text.ofBytesLossy, String.toList_ofList, Text.Utf8.decodeLossy]
  intro h
  obtain ⟨piece, hpiece, hslash⟩ := List.mem_map.mp h
  cases piece with
  | none => exact absurd hslash (by decide)
  | some c =>
    obtain rfl : c = '/' := hslash
    have hground : Text.Utf8.Progress.ground.Sound := trivial
    obtain ⟨b, hb, hval⟩ := Text.Utf8.piecesFrom_char hground (by decide) hpiece
    exact hn.ne_slash hb (UInt8.toNat_inj.mp hval.symm)

/-- The id that a directory is reported under. -/
theorem EntryName.proper_lossy (hn : EntryName n) (hr : EntryName r) :
    RepoId.Proper ⟨Text.ofBytesLossy n, Text.ofBytesLossy r⟩ :=
  ⟨hn.lossy_nonempty, hr.lossy_nonempty, hn.lossy_noSlash, hr.lossy_noSlash⟩

end SyncAudit
