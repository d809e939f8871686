import SyncAudit.Proofs.Path.Parts
import SyncAudit.Scan.Walk

/-!
# Paths of directory entries

An entry of a directory has a name that is not empty, holds no slash and is none of the two names
that stand for a step. The path of such an entry reads back: its names are those of the directory
with one more, its last name is the entry's, and its parent is the directory's path.
-/
namespace SyncAudit

/-- A name that an entry of a directory can have. -/
structure EntryName (n : Name) : Prop where
  nonempty : n ≠ []
  noSlash : slash ∉ n
  notDot : n ≠ dot
  notDotDot : n ≠ dotDot

instance (n : Name) : Decidable (EntryName n) :=
  decidable_of_iff (n ≠ [] ∧ slash ∉ n ∧ n ≠ dot ∧ n ≠ dotDot)
    ⟨fun h => ⟨h.1, h.2.1, h.2.2.1, h.2.2.2⟩,
      fun h => ⟨h.nonempty, h.noSlash, h.notDot, h.notDotDot⟩⟩

namespace EntryName

variable {n : Name}

theorem ne_slash (hn : EntryName n) {b : UInt8} (hb : b ∈ n) : b ≠ slash :=
  fun h => hn.noSlash (h ▸ hb)

theorem reverse_noSlash (hn : EntryName n) : ∀ b ∈ n.reverse, decide (b ≠ slash) = true := by
  intro b hb
  exact decide_eq_true (hn.ne_slash (List.mem_reverse.mp hb))

end EntryName

namespace Path

/-- The names of a path are the names that entries can have, and the two that stand for a step. -/
theorem entryName_of_mem_names {p : Path} {n : Name} (h : n ∈ p.names) (hdot : n ≠ dot)
    (hup : n ≠ dotDot) : EntryName n := by
  obtain ⟨hmem, hne⟩ := List.mem_filter.mp h
  exact ⟨of_decide_eq_true hne, noSlash_of_mem_splitSlashes hmem, hdot, hup⟩

variable {n : Name}

/-- The name of an entry, taken as a path, is relative. -/
theorem isAbsolute_name (hn : EntryName n) : isAbsolute ⟨n⟩ = false := by
  cases n with
  | nil => rfl
  | cons b rest => simpa [isAbsolute] using hn.ne_slash List.mem_cons_self

theorem names_name (hn : EntryName n) : names ⟨n⟩ = [n] := by
  simp [names, splitSlashes_of_noSlash hn.noSlash, hn.nonempty]

theorem endsInSlash_name (hn : EntryName n) : endsInSlash ⟨n⟩ = false := by
  rw [endsInSlash, decide_eq_false_iff_not]
  intro h
  exact hn.noSlash (List.mem_of_getLast? h)

theorem child_bytes (p : Path) (hn : EntryName n) : (p.child n).bytes = p.stem ++ n :=
  join_bytes p (isAbsolute_name hn)

theorem child_eq (p : Path) (hn : EntryName n) : p.child n = ⟨p.stem ++ n⟩ := by
  rw [← child_bytes p hn]

theorem isEmpty_name (hn : EntryName n) : isEmpty ⟨n⟩ = false := by
  simp [isEmpty, hn.nonempty]

theorem child_ne_empty (p : Path) (hn : EntryName n) : (p.child n).isEmpty = false :=
  join_ne_empty p (isAbsolute_name hn) (isEmpty_name hn)

theorem child_endsInSlash (p : Path) (hn : EntryName n) : (p.child n).endsInSlash = false := by
  rw [child, join_endsInSlash p (isAbsolute_name hn) (isEmpty_name hn), endsInSlash_name hn]

theorem stem_child (p : Path) (hn : EntryName n) : (p.child n).stem = p.stem ++ n ++ [slash] := by
  rw [stem, child_ne_empty p hn, child_endsInSlash p hn, child_bytes p hn]
  simp

theorem child_child_eq (p : Path) {r : Name} (hn : EntryName n) (hr : EntryName r) :
    (p.child n).child r = ⟨p.stem ++ n ++ slash :: r⟩ := by
  rw [child_eq _ hr, stem_child p hn, List.append_assoc, List.singleton_append]

theorem length_lt_child (p : Path) (hn : EntryName n) :
    p.bytes.length < (p.child n).bytes.length := by
  have hpos := List.length_pos_iff.mpr hn.nonempty
  have hstem := p.length_le_stem
  rw [child_bytes p hn, List.length_append]
  omega

/-- The anchor of a path never reaches into the name of an entry. -/
theorem anchorLength_le (base tail : List UInt8) (hn : EntryName n) :
    anchorLength ⟨base ++ n ++ tail⟩ ≤ base.length := by
  cases base with
  | cons b rest =>
    have hone : anchorLength ⟨b :: rest ++ n ++ tail⟩ ≤ 1 := by
      unfold anchorLength
      repeat' split
      all_goals omega
    simp only [List.length_cons]
    omega
  | nil =>
    obtain ⟨b, rest, rfl⟩ := List.exists_cons_of_ne_nil hn.nonempty
    have hb : b ≠ slash := hn.ne_slash List.mem_cons_self
    cases rest with
    | nil =>
      have hdot : [b] ≠ dot := hn.notDot
      cases tail <;> simp [anchorLength, hb, hdot]
    | cons c rest =>
      have hc : c ≠ slash := hn.ne_slash (by simp)
      simp [anchorLength, hb, hc]

theorem dropIdle_slash {bytes : List UInt8} (h : bytes ≠ []) :
    dropIdle (slash :: bytes) = dropIdle bytes := by
  obtain ⟨b, rest, rfl⟩ := List.exists_cons_of_ne_nil h
  simp [dropIdle]

theorem dropIdle_reverse (hn : EntryName n) {tail : List UInt8}
    (ht : tail = [] ∨ tail.head? = some slash) :
    dropIdle (n.reverse ++ tail) = n.reverse ++ tail := by
  obtain ⟨b, rest, hrev⟩ :=
    List.exists_cons_of_ne_nil (mt List.reverse_eq_nil_iff.mp hn.nonempty)
  have hb : b ≠ slash := hn.ne_slash (by rw [← List.mem_reverse, hrev]; simp)
  rw [hrev]
  cases rest with
  | nil =>
    have hn' : n = [b] := by simpa using congrArg List.reverse hrev
    have hdot : [b] ≠ dot := hn' ▸ hn.notDot
    cases tail <;> simp [dropIdle, hb, hdot]
  | cons c rest =>
    have hc : c ≠ slash := hn.ne_slash (by rw [← List.mem_reverse, hrev]; simp)
    simp [dropIdle, hb, hc]

/-- The part of a base behind the anchor is empty or ends in a slash, like the base. -/
theorem drop_reverse_head {base : List UInt8} (hb : base = [] ∨ ∃ front, base = front ++ [slash])
    (k : Nat) : (base.drop k).reverse = [] ∨ (base.drop k).reverse.head? = some slash := by
  rcases hb with rfl | ⟨front, rfl⟩
  · simp
  · by_cases hk : k ≤ front.length
    · right
      rw [List.drop_append_of_le_length hk]
      simp
    · left
      rw [List.drop_eq_nil_of_le (by simp; omega)]
      rfl

theorem reversedBody_of_base {base : List UInt8}
    (hb : base = [] ∨ ∃ front, base = front ++ [slash]) (hn : EntryName n) :
    reversedBody ⟨base ++ n⟩ =
      n.reverse ++ (base.drop (anchorLength ⟨base ++ n⟩)).reverse := by
  have hk : anchorLength ⟨base ++ n⟩ ≤ base.length := by
    simpa using anchorLength_le base [] hn
  rw [reversedBody, List.drop_append_of_le_length hk, List.reverse_append,
    dropIdle_reverse hn (drop_reverse_head hb _)]

/-- The last name of the path of an entry is the entry's. -/
theorem fileName_child (p : Path) (hn : EntryName n) : (p.child n).fileName? = some n := by
  rw [child_eq p hn, fileName?, reversedBody_of_base p.stem_eq_nil_or hn,
    List.takeWhile_append_of_pos hn.reverse_noSlash]
  have htail := drop_reverse_head p.stem_eq_nil_or (anchorLength ⟨p.stem ++ n⟩)
  have hstop : ((p.stem.drop (anchorLength ⟨p.stem ++ n⟩)).reverse).takeWhile
      (fun b => decide (b ≠ slash)) = [] := by
    rcases htail with h | h
    · rw [h]; rfl
    · obtain ⟨rest, hrest⟩ := List.head?_eq_some_iff.mp h
      rw [hrest]; simp
  rw [hstop]
  simp [hn.nonempty, hn.notDotDot]

/-- The parent of the path of an entry of an entry is the path of the latter. -/
theorem parent_child_child (p : Path) {r : Name} (hn : EntryName n) (hr : EntryName r) :
    ((p.child n).child r).parent? = some (p.child n) := by
  have hbase : p.stem ++ n ++ [slash] = [] ∨ ∃ front, p.stem ++ n ++ [slash] = front ++ [slash] :=
    .inr ⟨_, rfl⟩
  have hpath : (p.child n).child r = ⟨p.stem ++ n ++ [slash] ++ r⟩ := by
    rw [child_child_eq p hn hr, List.append_assoc _ [slash], List.singleton_append]
  obtain ⟨k, hk⟩ : ∃ k, k = anchorLength ⟨p.stem ++ n ++ [slash] ++ r⟩ := ⟨_, rfl⟩
  have hkle : k ≤ p.stem.length := by
    have h := anchorLength_le p.stem ([slash] ++ r) hn
    rw [← List.append_assoc] at h
    omega
  have hbody := reversedBody_of_base hbase hr
  have hdrop : (p.stem ++ n ++ [slash]).drop k = p.stem.drop k ++ n ++ [slash] := by
    rw [List.append_assoc, List.drop_append_of_le_length hkle, List.append_assoc]
  rw [← hk, hdrop] at hbody
  have hstop : (r.reverse ++ (p.stem.drop k ++ n ++ [slash]).reverse).dropWhile
      (fun b => decide (b ≠ slash)) = slash :: (n.reverse ++ (p.stem.drop k).reverse) := by
    rw [List.dropWhile_append_of_pos hr.reverse_noSlash]
    simp
  have hidle : dropIdle (slash :: (n.reverse ++ (p.stem.drop k).reverse)) =
      n.reverse ++ (p.stem.drop k).reverse := by
    rw [dropIdle_slash (by simp [hn.nonempty]),
      dropIdle_reverse hn (drop_reverse_head p.stem_eq_nil_or k)]
  have htake : (p.stem ++ n ++ [slash] ++ r).take k = p.stem.take k := by
    rw [List.append_assoc, List.append_assoc, List.take_append_of_le_length hkle]
  rw [hpath, parent?, hbody, ← hk]
  simp only [List.append_eq_nil_iff, List.reverse_eq_nil_iff, hr.nonempty, false_and, if_false]
  rw [hstop, hidle, htake, child_eq p hn, List.reverse_append, List.reverse_reverse,
    List.reverse_reverse, ← List.append_assoc, List.take_append_drop]

end Path

/-- The namespace read off the path of a repository is the directory that holds it. -/
theorem Scan.namespaceOf_child_child (p : Path) {n r : Name} (hn : EntryName n)
    (hr : EntryName r) : namespaceOf? ((p.child n).child r) = some (p.child n, n) := by
  rw [namespaceOf?, Path.parent_child_child p hn hr]
  simp [Path.fileName_child p hn]

/-- The two names of a repository can be read off its path. -/
theorem Path.child_child_inj (p : Path) {n r n' r' : Name} (hn : EntryName n) (hr : EntryName r)
    (hn' : EntryName n') (hr' : EntryName r')
    (h : (p.child n).child r = (p.child n').child r') : n = n' ∧ r = r' := by
  have hns := Scan.namespaceOf_child_child p hn hr
  have hname := (p.child n).fileName_child hr
  rw [h, Scan.namespaceOf_child_child p hn' hr'] at hns
  rw [h, (p.child n').fileName_child hr'] at hname
  exact ⟨(Prod.mk.inj (Option.some.inj hns)).2.symm, (Option.some.inj hname).symm⟩

end SyncAudit
