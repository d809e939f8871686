import Mathlib.Data.List.Sort
import SyncAudit.Sorting

/-!
# Sorted lists

Sorting is the insertion sort of the library, whose lemmas say that it gives a permutation, that
the result is in order, and when it goes together with a change of the items.
-/
namespace SyncAudit

variable {α : Type} (r : α → α → Prop) [DecidableRel r]

theorem insertBy_eq_orderedInsert (a : α) (items : List α) :
    insertBy r a items = items.orderedInsert r a := by
  induction items with
  | nil => rfl
  | cons b rest ih => rw [insertBy, List.orderedInsert_cons, ih]

theorem sortBy_eq_insertionSort (items : List α) : sortBy r items = items.insertionSort r := by
  have hinsert : insertBy r = List.orderedInsert r :=
    funext fun a => funext fun items => insertBy_eq_orderedInsert r a items
  rw [sortBy, hinsert]
  rfl

end SyncAudit
