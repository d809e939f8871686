import SyncAudit.Settings.KeyPath

/-!
# Keys that are names

A key made only of letters, digits, underscores and dashes leads to the member of that name, and
two such names with a dot between them to a member of a member.
-/
namespace SyncAudit.Settings.KeyStep

/-- A text that is one name in a path. -/
def IsName (s : String) : Prop :=
  s ≠ "" ∧ s.toList.all isNameChar = true

instance decidableIsName (s : String) : Decidable (IsName s) := by
  unfold IsName; infer_instance

theorem readName_append {s : String} (h : IsName s) (rest : List Char)
    (hrest : ∀ c ∈ rest.head?, isNameChar c = false) :
    readName (s.toList ++ rest) = some (.name s, rest) := by
  have htake : rest.takeWhile isNameChar = [] := by
    cases rest with
    | nil => rfl
    | cons c _ => simp [hrest c rfl]
  have hdrop : rest.dropWhile isNameChar = rest := by
    cases rest with
    | nil => rfl
    | cons c _ => simp [hrest c rfl]
  have hne : s.toList ≠ [] := fun hnil => h.1 (String.toList_eq_nil_iff.mp hnil)
  have hchars := List.all_eq_true.mp h.2
  rw [readName, List.takeWhile_append_of_pos hchars, List.dropWhile_append_of_pos hchars, htake,
    hdrop]
  simp [hne]

theorem ofKey_name {s : String} (h : IsName s) : ofKey s = [.name s] := by
  have hread := readName_append h [] (by simp)
  rw [List.append_nil] at hread
  simp [ofKey, parse?, hread, readSteps]

theorem ofKey_dotted {s t : String} (hs : IsName s) (ht : IsName t) :
    ofKey (s ++ "." ++ t) = [.name s, .name t] := by
  have hchars : (s ++ "." ++ t).toList = s.toList ++ '.' :: t.toList := by simp
  have hfirst := readName_append hs ('.' :: t.toList) (by rintro c ⟨⟩; decide)
  have hsecond := readName_append ht [] (by simp)
  rw [List.append_nil] at hsecond
  rw [ofKey, parse?, hchars, hfirst]
  simp [readSteps, hsecond]

end SyncAudit.Settings.KeyStep
