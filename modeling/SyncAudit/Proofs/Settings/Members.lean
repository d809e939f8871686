import SyncAudit.Proofs.Sorting
import SyncAudit.Proofs.Table
import SyncAudit.Settings.Value

/-!
# Members that change

What a name stands for once one member has changed, or once a layer has been laid over a table.
A layer in which no name stands twice gives each of its names the value that it has there, laid
over what was there before, and leaves all other names alone.
-/
namespace SyncAudit.Settings.Value

theorem lookup_changeMember (change : Value → Value) (name other : String) (members : Members) :
    (changeMember change name members).lookup other =
      if other = name then some (change ((members.lookup name).getD absent))
      else members.lookup other := by
  induction members with
  | nil => exact Table.lookup_cons ..
  | cons row rest ih =>
    obtain ⟨first, v⟩ := row
    by_cases hfirst : first = name
    · subst hfirst
      rw [changeMember, if_pos rfl, List.lookup_cons_self]
      by_cases h : other = first <;> simp [Table.lookup_cons, h]
    · rw [changeMember, if_neg hfirst, Table.lookup_cons, ih, Table.lookup_cons,
        Table.lookup_cons, if_neg (Ne.symm hfirst)]
      by_cases h : other = first
      · have hother : other ≠ name := fun hname => hfirst (h.symm.trans hname)
        rw [if_pos h, if_neg hother, if_pos h]
      · rw [if_neg h, if_neg h]

theorem put_eq {α : Type} (name : String) (v : α) (rows : List (String × α)) :
    put name v rows = Table.put name v rows := by
  induction rows with
  | nil => rfl
  | cons row rest ih => rw [put, Table.put, ih]

/-! ## A layer of members -/

theorem lookup_overlayMembers {layer : Members} (h : (layer.map Prod.fst).Nodup)
    (target : Members) (name : String) :
    (overlayMembers layer target).lookup name =
      match layer.lookup name with
      | some v => some (overlay v ((target.lookup name).getD absent))
      | none => target.lookup name := by
  induction layer generalizing target with
  | nil => rw [overlayMembers, List.lookup_nil]
  | cons row rest ih =>
    obtain ⟨first, v⟩ := row
    rw [List.map_cons, List.nodup_cons] at h
    rw [overlayMembers, ih h.2, lookup_changeMember, Table.lookup_cons]
    by_cases hname : name = first
    · subst hname
      rw [Table.lookup_eq_none_of_not_mem h.1, if_pos rfl, if_pos rfl]
    · rw [if_neg hname, if_neg hname]

theorem sortMembers_perm {α : Type} (members : List (String × α)) :
    (sortMembers members).Perm members := by
  rw [sortMembers, sortBy_eq_insertionSort]
  exact List.perm_insertionSort ..

theorem nodup_sortMembers {α : Type} {members : List (String × α)}
    (h : (members.map Prod.fst).Nodup) : ((sortMembers members).map Prod.fst).Nodup :=
  ((sortMembers_perm members).map Prod.fst).nodup_iff.mpr h

/-- Layers do not depend on the order of their members. -/
theorem lookup_sortMembers {α : Type} {members : List (String × α)}
    (h : (members.map Prod.fst).Nodup) (name : String) :
    (sortMembers members).lookup name = members.lookup name :=
  Table.lookup_of_perm (sortMembers_perm members) (nodup_sortMembers h)

end SyncAudit.Settings.Value
