import SyncAudit.Proofs.RepoId

/-!
# Texts that spell ids

A text spells an id if it is the id's key with white space around it, where neither part of the id
is empty or holds a slash and no white space stands at the two ends of the key. Such a text can be
taken apart in one way only, and reading it gives the id back.
-/
namespace SyncAudit

namespace Text

/-- No white space stands at the two ends of a text. -/
structure Tight (cs : List Char) : Prop where
  first : ∀ c, cs.head? = some c → isBlank c = false
  last : ∀ c, cs.getLast? = some c → isBlank c = false

variable {cs before : List Char}

theorem tight_trimChars (cs : List Char) : Tight (trimChars cs) := by
  obtain ⟨inner, hinner⟩ : ∃ inner, inner = (cs.dropWhile isBlank).reverse := ⟨_, rfl⟩
  have hcs : trimChars cs = (inner.dropWhile isBlank).reverse := by rw [trimChars, hinner]
  constructor
  case last =>
    intro c hc
    rw [hcs, List.getLast?_reverse] at hc
    have hdrop := List.head?_dropWhile_not isBlank inner
    rw [hc] at hdrop
    simpa using hdrop
  case first =>
    intro c hc
    -- What is dropped at the end leaves the first character in place.
    have hsuffix : inner.dropWhile isBlank <:+ inner := List.dropWhile_suffix isBlank
    have hprefix : trimChars cs <+: cs.dropWhile isBlank := by
      rw [hcs, ← List.reverse_reverse (cs.dropWhile isBlank), ← hinner]
      exact List.reverse_prefix.mpr hsuffix
    obtain ⟨rest, hrest⟩ := hprefix
    have hhead : (cs.dropWhile isBlank).head? = some c := by
      rw [← hrest, List.head?_append, hc, Option.some_or]
    have hdrop := List.head?_dropWhile_not isBlank cs
    rw [hhead] at hdrop
    simpa using hdrop

theorem Tight.dropWhile_blank (h : Tight cs) : cs.dropWhile isBlank = cs := by
  cases cs with
  | nil => rfl
  | cons c rest =>
    have hc : isBlank c = false := h.first c rfl
    exact List.dropWhile_cons_of_neg (by simp [hc])

theorem Tight.reverse (h : Tight cs) : Tight cs.reverse :=
  ⟨fun c hc => h.last c (List.head?_reverse ▸ hc), fun c hc => h.first c (List.getLast?_reverse ▸ hc)⟩

theorem Tight.trimChars_eq (h : Tight cs) : trimChars cs = cs := by
  rw [trimChars, h.dropWhile_blank, h.reverse.dropWhile_blank, List.reverse_reverse]

/-- White space is told from a tight text behind it. -/
theorem Tight.takeWhile_blank (h : Tight cs) (hne : cs ≠ [])
    (hbefore : ∀ c ∈ before, isBlank c = true) (behind : List Char) :
    (before ++ cs ++ behind).takeWhile isBlank = before := by
  obtain ⟨c, rest, rfl⟩ := List.exists_cons_of_ne_nil hne
  have hc : isBlank c = false := h.first c rfl
  rw [List.append_assoc, List.takeWhile_append_of_pos hbefore, List.cons_append,
    List.takeWhile_cons_of_neg (by simp [hc]), List.append_nil]

end Text

namespace RepoId

variable {raw before behind before' behind' : String} {id id' : RepoId}

theorem key_toList (id : RepoId) : id.key.toList = id.ns.toList ++ '/' :: id.name.toList := by
  simp [key]

/-- A text is an id with white space around it. -/
structure Spells (raw before : String) (id : RepoId) (behind : String) : Prop where
  text : raw = before ++ id.ns ++ "/" ++ id.name ++ behind
  proper : id.Proper
  nsStart : ∀ c, id.ns.toList.head? = some c → Text.isBlank c = false
  nameEnd : ∀ c, id.name.toList.getLast? = some c → Text.isBlank c = false
  beforeBlank : ∀ c ∈ before.toList, Text.isBlank c = true
  behindBlank : ∀ c ∈ behind.toList, Text.isBlank c = true

theorem splitAtSlash_eq_some_iff {cs ns name : List Char} :
    splitAtSlash cs = some (ns, name) ↔ cs = ns ++ '/' :: name ∧ '/' ∉ ns := by
  constructor
  · intro h
    have hparts := List.takeWhile_append_dropWhile (p := fun c => decide (c ≠ '/')) (l := cs)
    rw [splitAtSlash] at h
    split at h
    case h_1 => cases h
    case h_2 c rest hdrop =>
      obtain ⟨rfl, rfl⟩ := Prod.mk.inj (Option.some.inj h)
      have hc : c = '/' := by
        have hstop := List.head?_dropWhile_not (fun c => decide (c ≠ '/')) cs
        rw [hdrop] at hstop
        simpa using hstop
      rw [hdrop, hc] at hparts
      refine ⟨hparts.symm, fun hslash => ?_⟩
      have hkept := List.all_eq_true.mp List.all_takeWhile _ hslash
      simp at hkept
  · rintro ⟨rfl, hns⟩
    exact splitAtSlash_append hns name

theorem ofTrimmed_eq_some_iff {cs : List Char} :
    ofTrimmed? cs = some id ↔ cs = id.key.toList ∧ id.Proper := by
  constructor
  · intro h
    rw [ofTrimmed?] at h
    cases hsplit : splitAtSlash cs with
    | none => simp [hsplit] at h
    | some parts =>
      obtain ⟨ns, name⟩ := parts
      obtain ⟨hcs, hns⟩ := splitAtSlash_eq_some_iff.mp hsplit
      simp only [hsplit] at h
      split at h
      case isTrue => cases h
      case isFalse hfine =>
        simp only [not_or] at hfine
        obtain rfl := Option.some.inj h
        refine ⟨by rw [hcs, key_toList, String.toList_ofList, String.toList_ofList], ?_⟩
        constructor <;> simp only [String.toList_ofList]
        case nsNonempty => exact hfine.1
        case nameNonempty => exact hfine.2.1
        case nsNoSlash => exact hns
        case nameNoSlash => exact hfine.2.2
  · rintro ⟨rfl, hproper⟩
    exact hproper.ofTrimmed_key

/-- The ends of the key of a proper id are those of its parts. -/
theorem Proper.tight_key_iff (h : id.Proper) :
    Text.Tight id.key.toList ↔
      (∀ c, id.ns.toList.head? = some c → Text.isBlank c = false) ∧
        ∀ c, id.name.toList.getLast? = some c → Text.isBlank c = false := by
  have hhead : id.key.toList.head? = id.ns.toList.head? := by
    obtain ⟨c, rest, hns⟩ := List.exists_cons_of_ne_nil h.nsNonempty
    rw [key_toList, hns]
    rfl
  have hlast : id.key.toList.getLast? = id.name.toList.getLast? := by
    rw [key_toList, List.getLast?_append, List.getLast?_cons,
      List.getLast?_eq_some_getLast h.nameNonempty]
    rfl
  constructor
  · intro htight
    exact ⟨hhead ▸ htight.first, hlast ▸ htight.last⟩
  · rintro ⟨hstart, hend⟩
    exact ⟨hhead ▸ hstart, hlast ▸ hend⟩

theorem parse_eq_ok_iff : parse raw = .ok id ↔ parse? raw = some id := by
  rw [parse]
  cases parse? raw <;> simp

theorem parse_trim_eq (raw : String) : parse (Text.trim raw) = parse raw := by
  have htrim : Text.trim (Text.trim raw) = Text.trim raw := by
    simp only [Text.trim, String.toList_ofList, Text.trimChars_trimChars]
  rw [parse, parse, parse_trim, htrim]

theorem Spells.tight (h : Spells raw before id behind) : Text.Tight id.key.toList :=
  h.proper.tight_key_iff.mpr ⟨h.nsStart, h.nameEnd⟩

theorem Spells.toList (h : Spells raw before id behind) :
    raw.toList = before.toList ++ id.key.toList ++ behind.toList := by
  rw [h.text, key_toList]
  simp

theorem Spells.trim_eq (h : Spells raw before id behind) : Text.trim raw = id.key := by
  rw [Text.trim, h.toList, Text.trimChars_pad h.beforeBlank h.behindBlank, h.tight.trimChars_eq,
    String.ofList_toList]

theorem Spells.parse_eq (h : Spells raw before id behind) : parse raw = .ok id :=
  parse_eq_ok_iff.mpr (h.proper.parse_of_key h.trim_eq)

theorem exists_spells_of_parse (h : parse raw = .ok id) :
    ∃ before behind, Spells raw before id behind := by
  obtain ⟨htrimmed, hproper⟩ := ofTrimmed_eq_some_iff.mp (parse_eq_ok_iff.mp h)
  obtain ⟨before, behind, hbefore, hbehind, hraw⟩ := Text.exists_pads_of_trimChars raw.toList
  have htight : Text.Tight id.key.toList := htrimmed ▸ Text.tight_trimChars raw.toList
  obtain ⟨hstart, hend⟩ := hproper.tight_key_iff.mp htight
  refine ⟨String.ofList before, String.ofList behind, ?_, hproper, hstart, hend, ?_, ?_⟩
  · rw [htrimmed, key_toList] at hraw
    apply String.toList_inj.mp
    rw [hraw]
    simp
  · rwa [String.toList_ofList]
  · rwa [String.toList_ofList]

/-- A text spells an id in one way only. -/
theorem Spells.unique (h : Spells raw before id behind) (h' : Spells raw before' id' behind') :
    before = before' ∧ id = id' ∧ behind = behind' := by
  obtain rfl : id = id' := Except.ok.inj (h.parse_eq.symm.trans h'.parse_eq)
  have hne : id.key.toList ≠ [] := by
    rw [key_toList]
    simp
  have hbefore : before.toList = before'.toList := by
    rw [← h.tight.takeWhile_blank hne h.beforeBlank behind.toList, ← h.toList, h'.toList,
      h'.tight.takeWhile_blank hne h'.beforeBlank]
  have hbehind : behind.toList = behind'.toList := by
    have hsame := h.toList.symm.trans h'.toList
    rw [hbefore] at hsame
    exact List.append_cancel_left hsame
  exact ⟨String.toList_inj.mp hbefore, rfl, String.toList_inj.mp hbehind⟩

/-- A text is read as an id if, and only if, it spells that id, which it does in one way only. White
space around it makes no difference, and an id that is read is read back from its key. -/
theorem parse_spelled (raw : String) :
    (∀ id, parse raw = .ok id ↔ ∃ before behind, Spells raw before id behind) ∧
    (∀ before id behind before' id' behind', Spells raw before id behind →
      Spells raw before' id' behind' → before = before' ∧ id = id' ∧ behind = behind') ∧
    parse (Text.trim raw) = parse raw ∧
    ∀ id, parse raw = .ok id → id.key = Text.trim raw ∧ parse id.key = .ok id := by
  refine ⟨fun id => ⟨exists_spells_of_parse, ?_⟩, ?_, parse_trim_eq raw, ?_⟩
  · rintro ⟨before, behind, h⟩
    exact h.parse_eq
  · intro before id behind before' id' behind' h h'
    exact h.unique h'
  · intro id h
    obtain ⟨before, behind, hspells⟩ := exists_spells_of_parse h
    have hkey : id.key = Text.trim raw := hspells.trim_eq.symm
    exact ⟨hkey, by rw [hkey, parse_trim_eq, h]⟩

/-- A text with white space within the id as well as around it. -/
theorem parse_spelled_inner_blanks :
    Spells " acme /\twidgets\n" " " ⟨"acme ", "\twidgets"⟩ "\n" ∧
      parse " acme /\twidgets\n" = .ok ⟨"acme ", "\twidgets"⟩ := by
  have hspells : Spells " acme /\twidgets\n" " " ⟨"acme ", "\twidgets"⟩ "\n" := by
    refine ⟨by decide, ⟨by decide, by decide, by decide, by decide⟩, ?_, ?_,
      List.all_eq_true.mp (by decide), List.all_eq_true.mp (by decide)⟩
    · rintro c ⟨⟩
      decide
    · rintro c ⟨⟩
      decide
  exact ⟨hspells, ((parse_spelled " acme /\twidgets\n").1 _).mpr ⟨" ", "\n", hspells⟩⟩

end RepoId
end SyncAudit
