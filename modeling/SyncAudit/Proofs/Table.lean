import Mathlib.Data.List.Nodup

/-!
# Tables

A table is a list of rows with a key each. Where no key stands in two rows, looking a key up and
being a row come to the same, so the order of the rows does not matter. Putting a value in the
place of the one that a key has keeps it that way.
-/
namespace SyncAudit.Table

section Lookup

variable {κ α : Type} [BEq κ] [LawfulBEq κ]
variable {rows rows' : List (κ × α)} {key : κ} {value : α}

theorem lookup_cons [DecidableEq κ] (key other : κ) (value : α) (rows : List (κ × α)) :
    ((other, value) :: rows).lookup key =
      if key = other then some value else rows.lookup key := by
  by_cases h : key = other
  · rw [if_pos h, h, List.lookup_cons_self]
  · rw [if_neg h, List.lookup_cons, beq_eq_false_iff_ne.mpr h]

theorem lookup_eq_some_iff (h : (rows.map Prod.fst).Nodup) :
    rows.lookup key = some value ↔ (key, value) ∈ rows := by
  induction rows with
  | nil => simp
  | cons row rest ih =>
    obtain ⟨other, entry⟩ := row
    rw [List.map_cons, List.nodup_cons] at h
    by_cases hkey : key = other
    · subst hkey
      have hrest : (key, value) ∉ rest :=
        fun hmem => h.1 (List.mem_map.mpr ⟨(key, value), hmem, rfl⟩)
      simp [hrest, eq_comm]
    · have hne : (key == other) = false := by simpa using hkey
      rw [List.lookup_cons, hne]
      simpa [hkey] using ih h.2

theorem mem_of_lookup (h : rows.lookup key = some value) : (key, value) ∈ rows := by
  induction rows with
  | nil => cases h
  | cons row rest ih =>
    obtain ⟨other, entry⟩ := row
    rw [List.lookup_cons] at h
    split at h
    case h_1 hkey =>
      obtain rfl := Option.some.inj h
      rw [beq_iff_eq.mp hkey]
      exact List.mem_cons_self
    case h_2 => exact List.mem_cons_of_mem _ (ih h)

theorem lookup_eq_none_of_not_mem (h : key ∉ rows.map Prod.fst) : rows.lookup key = none := by
  rw [Option.eq_none_iff_forall_ne_some]
  intro value hvalue
  exact h (List.mem_map.mpr ⟨_, mem_of_lookup hvalue, rfl⟩)

theorem lookup_of_perm (hperm : rows.Perm rows') (h : (rows.map Prod.fst).Nodup) :
    rows.lookup key = rows'.lookup key := by
  have h' : (rows'.map Prod.fst).Nodup := (hperm.map Prod.fst).nodup_iff.mp h
  apply Option.ext
  intro value
  rw [lookup_eq_some_iff h, lookup_eq_some_iff h', hperm.mem_iff]

theorem lookup_map [DecidableEq κ] {β : Type} (f : α → β) (key : κ) (rows : List (κ × α)) :
    (rows.map fun row => (row.1, f row.2)).lookup key = (rows.lookup key).map f := by
  induction rows with
  | nil => rfl
  | cons row rest ih =>
    obtain ⟨other, entry⟩ := row
    rw [List.map_cons, lookup_cons, lookup_cons, ih]
    by_cases h : key = other
    · rw [if_pos h, if_pos h]
      rfl
    · rw [if_neg h, if_neg h]

/-- Rows that are left out do not matter to the keys that are kept. -/
theorem lookup_filter (keep : κ → Bool) (hkey : keep key = true) (rows : List (κ × α)) :
    (rows.filter fun row => keep row.1).lookup key = rows.lookup key := by
  induction rows with
  | nil => rfl
  | cons row rest ih =>
    obtain ⟨other, entry⟩ := row
    by_cases hsame : key = other
    · have hkept : keep other = true := hsame ▸ hkey
      rw [List.filter_cons_of_pos (by exact hkept), hsame, List.lookup_cons_self,
        List.lookup_cons_self]
    · have hne : (key == other) = false := beq_eq_false_iff_ne.mpr hsame
      rw [List.lookup_cons, hne]
      by_cases hkept : keep other = true
      · rw [List.filter_cons_of_pos (by exact hkept), List.lookup_cons, hne, ih]
      · rw [List.filter_cons_of_neg (by exact hkept), ih]

end Lookup

/-! ## Putting a value under a key -/

section Put

variable {κ α : Type} [DecidableEq κ] {rows : List (κ × α)} {key : κ} {value : α}

/-- The rows with a value under a key, in the place of the one that was there. -/
def put (key : κ) (value : α) : List (κ × α) → List (κ × α)
  | [] => [(key, value)]
  | (other, entry) :: rest =>
    if other = key then (key, value) :: rest else (other, entry) :: put key value rest

theorem lookup_put [BEq κ] [LawfulBEq κ] (key other : κ) (value : α) (rows : List (κ × α)) :
    (put key value rows).lookup other = if other = key then some value else rows.lookup other := by
  induction rows with
  | nil => exact lookup_cons ..
  | cons row rest ih =>
    obtain ⟨first, entry⟩ := row
    rw [put]
    split
    case isTrue hsame =>
      subst hsame
      rw [lookup_cons, lookup_cons]
      by_cases h : other = first <;> simp [h]
    case isFalse hfirst =>
      rw [lookup_cons, lookup_cons, ih]
      by_cases h : other = first
      · rw [if_pos h, if_pos h, if_neg (fun hkey => hfirst (h.symm.trans hkey))]
      · rw [if_neg h, if_neg h]

theorem mem_of_mem_put {row : κ × α} (h : row ∈ put key value rows) :
    row = (key, value) ∨ row ∈ rows := by
  induction rows with
  | nil => exact .inl (List.mem_singleton.mp h)
  | cons first rest ih =>
    rw [put] at h
    split at h
    case isTrue => exact (List.mem_cons.mp h).imp_right (List.mem_cons_of_mem _)
    case isFalse =>
      rcases List.mem_cons.mp h with hfirst | hrest
      · exact .inr (hfirst ▸ List.mem_cons_self)
      · exact (ih hrest).imp_right (List.mem_cons_of_mem _)

theorem mem_put_of_ne {other : κ} {entry : α} (h : other ≠ key) :
    (other, entry) ∈ put key value rows ↔ (other, entry) ∈ rows := by
  induction rows with
  | nil => simp [put, h]
  | cons first rest ih =>
    obtain ⟨name, old⟩ := first
    rw [put]
    split
    case isTrue hsame => simp [hsame, h]
    case isFalse => simp only [List.mem_cons, ih]

theorem mem_keys_put {other : κ} :
    other ∈ (put key value rows).map Prod.fst ↔ other = key ∨ other ∈ rows.map Prod.fst := by
  induction rows with
  | nil => simp [put]
  | cons first rest ih =>
    rw [put]
    split
    case isTrue hsame => simp [hsame]
    case isFalse => simp only [List.map_cons, List.mem_cons, ih, or_left_comm]

theorem nodup_put (h : (rows.map Prod.fst).Nodup) :
    ((put key value rows).map Prod.fst).Nodup := by
  induction rows with
  | nil => simp [put]
  | cons first rest ih =>
    rw [List.map_cons, List.nodup_cons] at h
    rw [put]
    split
    case isTrue hsame => exact List.nodup_cons.mpr ⟨hsame ▸ h.1, h.2⟩
    case isFalse hother =>
      exact List.nodup_cons.mpr ⟨fun hmem => (mem_keys_put.mp hmem).elim hother h.1, ih h.2⟩

/-! ## Another value under a key -/

end Put

end SyncAudit.Table
