/-!
# Sorting

A list is put in order item by item. The recursion is on the list alone, so that what a given
directory lists can be computed within a proof.
-/
namespace SyncAudit

variable {α : Type} (r : α → α → Prop) [DecidableRel r]

/-- A list with an item in front of the first one that it may precede. -/
def insertBy (a : α) : List α → List α
  | [] => [a]
  | b :: rest => if r a b then a :: b :: rest else b :: insertBy a rest

/-- The items of a list in order. Of two that may precede each other, the first stays in front. -/
def sortBy (items : List α) : List α :=
  items.foldr (insertBy r) []

end SyncAudit
