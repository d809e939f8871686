import SyncAudit.Path

/-!
# The parts of a path

A path is taken apart at its slashes, and its names are the parts that are not empty. It can be cut
at any slash, and joined to another with one slash between them.
-/
namespace SyncAudit

theorem splitSlashes_ne_nil (bytes : List UInt8) : splitSlashes bytes ≠ [] := by
  cases bytes with
  | nil => simp [splitSlashes]
  | cons b rest =>
    simp only [splitSlashes]
    split
    · simp
    · split <;> simp

theorem splitSlashes_append (front back : List UInt8) :
    splitSlashes (front ++ slash :: back) = splitSlashes front ++ splitSlashes back := by
  induction front with
  | nil => simp [splitSlashes]
  | cons b rest ih =>
    by_cases hb : b = slash
    · simp [splitSlashes, hb, ih]
    · obtain ⟨part, parts, h⟩ := List.exists_cons_of_ne_nil (splitSlashes_ne_nil rest)
      simp [splitSlashes, hb, ih, h]

theorem noSlash_of_mem_splitSlashes {bytes : List UInt8} {part : Name}
    (h : part ∈ splitSlashes bytes) : slash ∉ part := by
  induction bytes generalizing part with
  | nil => simp [List.mem_singleton.mp h]
  | cons b rest ih =>
    obtain ⟨first, parts, hsplit⟩ := List.exists_cons_of_ne_nil (splitSlashes_ne_nil rest)
    rw [hsplit] at ih
    by_cases hb : b = slash
    · rw [splitSlashes, if_pos hb, hsplit] at h
      rcases List.mem_cons.mp h with rfl | h
      · simp
      · exact ih h
    · rw [splitSlashes, if_neg hb, hsplit] at h
      rcases List.mem_cons.mp h with rfl | h
      · simp [ih List.mem_cons_self, Ne.symm hb]
      · exact ih (List.mem_cons_of_mem _ h)

/-- The parts hold no other bytes. -/
theorem subset_of_mem_splitSlashes {bytes : List UInt8} {part : Name}
    (h : part ∈ splitSlashes bytes) : part ⊆ bytes := by
  induction bytes generalizing part with
  | nil => simp [List.mem_singleton.mp h]
  | cons b rest ih =>
    obtain ⟨first, parts, hsplit⟩ := List.exists_cons_of_ne_nil (splitSlashes_ne_nil rest)
    rw [hsplit] at ih
    by_cases hb : b = slash
    · rw [splitSlashes, if_pos hb, hsplit] at h
      rcases List.mem_cons.mp h with rfl | h
      · exact List.nil_subset _
      · exact List.subset_cons_of_subset b (ih h)
    · rw [splitSlashes, if_neg hb, hsplit] at h
      rcases List.mem_cons.mp h with rfl | h
      · exact List.cons_subset_cons b (ih List.mem_cons_self)
      · exact List.subset_cons_of_subset b (ih (List.mem_cons_of_mem _ h))

theorem splitSlashes_of_noSlash {bytes : List UInt8} (h : slash ∉ bytes) :
    splitSlashes bytes = [bytes] := by
  induction bytes with
  | nil => rfl
  | cons b rest ih =>
    rw [List.mem_cons, not_or] at h
    simp [splitSlashes, Ne.symm h.1, ih h.2]

/-- Between any two parts stands a slash. -/
theorem exists_of_splitSlashes {bytes : List UInt8} {first last : List Name}
    (h : splitSlashes bytes = first ++ last) (hfirst : first ≠ []) (hlast : last ≠ []) :
    ∃ front back, bytes = front ++ slash :: back ∧ splitSlashes front = first ∧
      splitSlashes back = last := by
  obtain ⟨part, parts, rfl⟩ := List.exists_cons_of_ne_nil hfirst
  clear hfirst
  induction bytes generalizing part parts with
  | nil =>
    obtain ⟨-, hnil⟩ := List.cons.inj h
    exact absurd (List.append_eq_nil_iff.mp hnil.symm).2 hlast
  | cons b rest ih =>
    by_cases hb : b = slash
    · rw [splitSlashes, if_pos hb] at h
      obtain ⟨rfl, hrest⟩ := List.cons.inj h
      subst hb
      cases parts with
      | nil => exact ⟨[], rest, rfl, rfl, hrest⟩
      | cons next parts =>
        obtain ⟨front, back, rfl, hfront, hback⟩ := ih next parts hrest
        exact ⟨slash :: front, back, rfl, by rw [splitSlashes, if_pos rfl, hfront], hback⟩
    · obtain ⟨part', parts', hsplit⟩ := List.exists_cons_of_ne_nil (splitSlashes_ne_nil rest)
      rw [splitSlashes, if_neg hb, hsplit] at h
      obtain ⟨rfl, rfl⟩ := List.cons.inj h
      obtain ⟨front, back, rfl, hfront, hback⟩ := ih part' parts hsplit
      exact ⟨b :: front, back, rfl, by rw [splitSlashes, if_neg hb, hfront], hback⟩

namespace Path

/-! ## Cutting a path -/

/-- A path without names is made of slashes. -/
theorem slash_of_names_eq_nil {p : Path} (h : p.names = []) : ∀ b ∈ p.bytes, b = slash := by
  obtain ⟨bytes⟩ := p
  simp only [names] at h ⊢
  induction bytes with
  | nil => exact List.forall_mem_nil _
  | cons b rest ih =>
    by_cases hb : b = slash
    · rw [splitSlashes, if_pos hb] at h
      exact List.forall_mem_cons.mpr ⟨hb, ih (by simpa using h)⟩
    · obtain ⟨part, parts, hsplit⟩ := List.exists_cons_of_ne_nil (splitSlashes_ne_nil rest)
      simp [splitSlashes, hb, hsplit] at h

theorem names_ne_nil {p : Path} (hp : p.isAbsolute = false) (hne : p.isEmpty = false) :
    p.names ≠ [] := by
  intro hnames
  have hbytes : p.bytes ≠ [] := by simpa [isEmpty] using hne
  obtain ⟨b, rest, hcons⟩ := List.exists_cons_of_ne_nil hbytes
  have hb : b = slash := slash_of_names_eq_nil hnames b (by simp [hcons])
  simp [isAbsolute, hcons, hb] at hp

/-- Where a path is cut at a slash, its names are those on both sides, and there are some behind it
or it ends in a slash. -/
theorem names_of_cut {p : Path} {front back : List UInt8} (h : p.bytes = front ++ slash :: back) :
    p.names = names ⟨front⟩ ++ names ⟨back⟩ ∧ (names ⟨back⟩ ≠ [] ∨ p.endsInSlash = true) := by
  constructor
  · rw [names, names, names, h, splitSlashes_append, List.filter_append]
  · by_cases hback : names ⟨back⟩ = []
    · right
      have hall : ∀ b ∈ slash :: back, b = slash :=
        List.forall_mem_cons.mpr ⟨rfl, slash_of_names_eq_nil hback⟩
      rw [endsInSlash, h, List.getLast?_append,
        List.getLast?_eq_some_getLast (List.cons_ne_nil slash back), Option.some_or,
        hall _ (List.getLast_mem _)]
      exact decide_eq_true rfl
    · exact .inl hback

theorem bytes_of_endsInSlash {p : Path} (h : p.endsInSlash = true) :
    ∃ front, p.bytes = front ++ [slash] :=
  List.getLast?_eq_some_iff.mp (by simpa [endsInSlash] using h)

theorem splitSlashes_of_endsInSlash {p : Path} (h : p.endsInSlash = true) :
    ∃ parts, splitSlashes p.bytes = parts ++ [[]] := by
  obtain ⟨front, hfront⟩ := bytes_of_endsInSlash h
  exact ⟨splitSlashes front, by rw [hfront, splitSlashes_append]; rfl⟩

/-- A path can be cut behind each of its names that is not its end. -/
theorem exists_cut {p : Path} {before after : List Name} {n : Name}
    (h : p.names = before ++ n :: after) (hmore : after ≠ [] ∨ p.endsInSlash = true) :
    ∃ front back, p.bytes = front ++ slash :: back ∧ names ⟨front⟩ = before ++ [n] ∧
      endsInSlash ⟨front⟩ = false := by
  -- The names are the parts that are not empty, and the cut is right behind the part that is `n`.
  obtain ⟨first, rest, hparts, hfirst, hrest⟩ := List.filter_eq_append_iff.mp h
  obtain ⟨idle, last, rfl, hidle, hn, hlast⟩ := List.filter_eq_cons_iff.mp hrest
  have hn : n ≠ [] := of_decide_eq_true hn
  have hsplit : splitSlashes p.bytes = (first ++ idle ++ [n]) ++ last := by simp [hparts]
  have hbehind : last ≠ [] := by
    rintro rfl
    rcases hmore with hafter | hends
    · exact hafter hlast.symm
    · obtain ⟨parts, hempty⟩ := splitSlashes_of_endsInSlash hends
      rw [hsplit, List.append_nil] at hempty
      exact hn (List.append_inj_right' hempty rfl |> List.singleton_inj.mp)
  obtain ⟨front, back, hbytes, hfront, -⟩ := exists_of_splitSlashes hsplit (by simp) hbehind
  refine ⟨front, back, hbytes, ?_, ?_⟩
  · have hidle : idle.filter (· ≠ []) = [] := List.filter_eq_nil_iff.mpr hidle
    rw [names, hfront, List.filter_append, List.filter_append, hfirst, hidle]
    simp [hn]
  · rw [← Bool.not_eq_true]
    intro hends
    obtain ⟨parts, hempty⟩ := splitSlashes_of_endsInSlash hends
    rw [hfront] at hempty
    exact hn (List.append_inj_right' hempty rfl |> List.singleton_inj.mp)

/-! ## Joining paths -/

/-- The bytes in front of the names of the entries of a directory. -/
def stem (p : Path) : List UInt8 :=
  if p.isEmpty ∨ p.endsInSlash then p.bytes else p.bytes ++ [slash]

theorem stem_cases (p : Path) : p.bytes = [] ∧ p.stem = [] ∨
    ∃ front, p.stem = front ++ [slash] ∧ (p.bytes = front ∨ p.bytes = front ++ [slash]) := by
  unfold stem
  split
  case isTrue h =>
    rcases h with h | h
    · exact .inl ⟨List.isEmpty_iff.mp h, List.isEmpty_iff.mp h⟩
    · obtain ⟨front, hfront⟩ := bytes_of_endsInSlash h
      exact .inr ⟨front, hfront, .inr hfront⟩
  case isFalse => exact .inr ⟨p.bytes, rfl, .inl rfl⟩

theorem length_le_stem (p : Path) : p.bytes.length ≤ p.stem.length := by
  unfold stem
  split <;> simp

theorem stem_length_le (p : Path) : p.stem.length ≤ p.bytes.length + 1 := by
  unfold stem
  split <;> simp

theorem mem_stem {p : Path} {b : UInt8} (h : b ∈ p.stem) : b ∈ p.bytes ∨ b = slash := by
  unfold stem at h
  split at h
  · exact .inl h
  · simpa using h

theorem stem_eq_nil_or (p : Path) : p.stem = [] ∨ ∃ front, p.stem = front ++ [slash] := by
  rcases p.stem_cases with ⟨-, hstem⟩ | ⟨front, hstem, -⟩
  · exact .inl hstem
  · exact .inr ⟨front, hstem⟩

variable {q : Path}

theorem join_bytes (p : Path) (hq : q.isAbsolute = false) :
    (p.join q).bytes = p.stem ++ q.bytes := by
  unfold join stem
  simp only [hq, Bool.false_eq_true, if_false]
  split <;> simp

theorem join_ne_empty (p : Path) (hq : q.isAbsolute = false) (hne : q.isEmpty = false) :
    (p.join q).isEmpty = false := by
  have hbytes : q.bytes ≠ [] := by simpa [isEmpty] using hne
  simp [isEmpty, join_bytes p hq, hbytes]

theorem join_isAbsolute (p : Path) (hq : q.isAbsolute = false) :
    (p.join q).isAbsolute = p.isAbsolute := by
  obtain ⟨bytes⟩ := p
  rw [isAbsolute, isAbsolute, join_bytes _ hq, stem]
  cases bytes with
  | nil => exact hq
  | cons b rest => split <;> simp

theorem join_endsInSlash (p : Path) (hq : q.isAbsolute = false) (hne : q.isEmpty = false) :
    (p.join q).endsInSlash = q.endsInSlash := by
  have hbytes : q.bytes ≠ [] := by simpa [isEmpty] using hne
  obtain ⟨b, hlast⟩ := Option.isSome_iff_exists.mp (List.getLast?_isSome.mpr hbytes)
  rw [endsInSlash, endsInSlash, join_bytes p hq, List.getLast?_append, hlast, Option.some_or]

/-- The names of a joined path are those of both. -/
theorem join_names (p : Path) (hq : q.isAbsolute = false) :
    (p.join q).names = p.names ++ q.names := by
  rw [names, names, names, join_bytes p hq]
  rcases p.stem_cases with ⟨hbytes, hstem⟩ | ⟨front, hstem, hbytes⟩
  · rw [hbytes, hstem]
    simp [splitSlashes]
  · have hfront : (splitSlashes p.bytes).filter (· ≠ []) =
        (splitSlashes front).filter (· ≠ []) := by
      rcases hbytes with hbytes | hbytes
      · rw [hbytes]
      · rw [hbytes, splitSlashes_append, List.filter_append]
        simp [splitSlashes]
    rw [hstem, List.append_assoc, List.singleton_append, splitSlashes_append, List.filter_append,
      hfront]

end Path
end SyncAudit
