import SyncAudit.Proofs.Settings.Members

/-!
# Trees that differ in one place

Two trees that are the same but for what stands at the end of one path stay so under every change at
another path, one that leaves the first before its end. Both come about by two changes at the path of
one and the same tree.
-/
namespace SyncAudit.Settings.Value

/-- A path leaves the one of the given names before its end. -/
def Apart : List String → List KeyStep → Prop
  | first :: names, .name other :: path => other ≠ first ∨ Apart names path
  | _, _ => False

instance decidableApart : (names : List String) → (path : List KeyStep) →
    Decidable (Apart names path)
  | [], _ => isFalse (by simp [Apart])
  | _ :: _, [] => isFalse (by simp [Apart])
  | _ :: _, .position _ :: _ => isFalse (by simp [Apart])
  | first :: names, .name other :: path =>
    have := decidableApart names path
    decidable_of_iff (other ≠ first ∨ Apart names path) Iff.rfl

/-- Two trees are tables down to the end of a path of names, and the same but for what stands there,
which the relation `P` holds of. -/
def DifferAt (P : Value → Value → Prop) : List String → Value → Value → Prop
  | [], v, v' => P v v'
  | first :: names, v, v' => ∃ origin members origin' members',
      v = .table origin members ∧ v' = .table origin' members' ∧
      (∀ name ≠ first, members.lookup name = members'.lookup name) ∧
      ∃ w w', members.lookup first = some w ∧ members'.lookup first = some w' ∧
        DifferAt P names w w'

variable {P : Value → Value → Prop} {names : List String} {v v' : Value}

/-- The change of a member that is the same in both trees leaves them the same there. -/
theorem lookup_changeMember_congr {members members' : Members} {first : String}
    (h : ∀ name ≠ first, members.lookup name = members'.lookup name) (change change' : Value → Value)
    {other : String} (hchange : other = first ∨ change = change') {name : String}
    (hname : name ≠ first) :
    (changeMember change other members).lookup name =
      (changeMember change' other members').lookup name := by
  rw [lookup_changeMember, lookup_changeMember, h name hname]
  split
  case isTrue hsame =>
    subst hsame
    obtain rfl := hchange.resolve_left hname
    rw [h name hname]
  case isFalse => rfl

/-- A change somewhere else leaves the difference alone. -/
theorem DifferAt.changeAt (h : DifferAt P names v v') {path : List KeyStep}
    (hpath : Apart names path) (change : Value → Value) :
    DifferAt P names (Value.changeAt change path v) (Value.changeAt change path v') := by
  induction names generalizing path v v' with
  | nil => cases hpath
  | cons first names ih =>
    obtain ⟨origin, members, origin', members', rfl, rfl, hsame, w, w', hw, hw', hdiffer⟩ := h
    cases path with
    | nil => cases hpath
    | cons step path =>
      cases step with
      | position n => cases hpath
      | name other =>
        refine ⟨_, _, _, _, rfl, rfl, fun name hname =>
          lookup_changeMember_congr hsame _ _ (.inr rfl) hname, ?_⟩
        rw [Value.members, Value.members, lookup_changeMember, lookup_changeMember]
        by_cases hother : first = other
        · subst hother
          have hrest : Apart names path := hpath.resolve_left (fun hne => hne rfl)
          rw [if_pos rfl, if_pos rfl, hw, hw']
          exact ⟨_, _, rfl, rfl, ih hdiffer hrest⟩
        · rw [if_neg hother, if_neg hother]
          exact ⟨w, w', hw, hw', hdiffer⟩

end SyncAudit.Settings.Value
