import Mathlib.Data.List.Dedup
import Mathlib.Data.List.Infix
import Mathlib.Data.List.Perm.Subperm
import SyncAudit.Proofs.FileSystem.Descending

/-!
# Trees along a trail

The locations that names pass from a directory are their trail, taken as if every name led on. A tree
of just these directories lets the names through; one that lacks those outside of the directory where
the trail starts does not, if anything is looked up out there. For the two to be told apart in this
way, the name of that directory must not be among the names.
-/
namespace SyncAudit

namespace Path

/-! ## Fresh names -/

/-- The `k`-th of 4096 names of two letters each. -/
def letterPair (k : Nat) : Name :=
  [UInt8.ofNat (48 + k / 64), UInt8.ofNat (48 + k % 64)]

theorem letterPair_toNat {k : Nat} (hk : k < 4096) :
    (UInt8.ofNat (48 + k / 64)).toNat = 48 + k / 64 ∧
      (UInt8.ofNat (48 + k % 64)).toNat = 48 + k % 64 := by
  rw [UInt8.toNat_ofNat', UInt8.toNat_ofNat']
  omega

theorem letterPair_inj {k l : Nat} (hk : k < 4096) (hl : l < 4096)
    (h : letterPair k = letterPair l) : k = l := by
  obtain ⟨hfirst, hsecond⟩ := letterPair_toNat hk
  obtain ⟨hfirst', hsecond'⟩ := letterPair_toNat hl
  obtain ⟨hhigh, hlow⟩ := List.cons.inj h
  rw [hhigh] at hfirst
  rw [(List.cons.inj hlow).1] at hsecond
  omega

theorem storedName_letterPair {k : Nat} (hk : k < 4096) : StoredName (letterPair k) := by
  obtain ⟨hfirst, hsecond⟩ := letterPair_toNat hk
  have hbyte : ∀ b ∈ letterPair k, 48 ≤ b.toNat := by
    intro b hb
    simp only [letterPair, List.mem_cons, List.not_mem_nil, or_false] at hb
    rcases hb with rfl | rfl <;> omega
  have habsent : ∀ b : UInt8, b.toNat < 48 → b ∉ letterPair k := by
    intro b hb hmem
    have hlarge := hbyte b hmem
    omega
  refine ⟨⟨List.cons_ne_nil _ _, habsent slash (by decide), ?_, ?_⟩, habsent 0 (by decide), ?_⟩
  · exact fun h => habsent 0x2E (by decide) (h ▸ List.mem_cons_self)
  · exact fun h => habsent 0x2E (by decide) (h ▸ List.mem_cons_self)
  · show 2 ≤ FileSystem.maxName
    decide

/-- Among few names one of two letters is missing. -/
theorem exists_fresh_name {names : List Name} (hfew : names.length < 4096) :
    ∃ q, StoredName q ∧ q.length = 2 ∧ q ∉ names := by
  by_contra hall
  have hmem : (List.range 4096).map letterPair ⊆ names := by
    intro q hq
    obtain ⟨k, hk, rfl⟩ := List.mem_map.mp hq
    by_contra hfresh
    exact hall ⟨_, storedName_letterPair (List.mem_range.mp hk), rfl, hfresh⟩
  have hnodup : ((List.range 4096).map letterPair).Nodup := by
    refine List.Nodup.map_on ?_ List.nodup_range
    intro k hk l hl h
    exact letterPair_inj (List.mem_range.mp hk) (List.mem_range.mp hl) h
  have hlength := (List.subperm_of_subset hnodup hmem).length_le
  rw [List.length_map, List.length_range] at hlength
  omega

theorem splitSlashes_length_le (bytes : List UInt8) :
    (splitSlashes bytes).length ≤ bytes.length + 1 := by
  induction bytes with
  | nil => simp [splitSlashes]
  | cons b rest ih =>
    rw [splitSlashes]
    split
    · simpa using ih
    · obtain ⟨part, parts, hsplit⟩ := List.exists_cons_of_ne_nil (splitSlashes_ne_nil rest)
      rw [hsplit] at ih ⊢
      simp only [List.length_cons] at ih ⊢
      omega

theorem names_length_le (p : Path) : p.names.length ≤ p.bytes.length + 1 :=
  (List.length_filter_le _ _).trans (splitSlashes_length_le p.bytes)

end Path

namespace FileSystem

variable {fs : FileSystem} {loc l : Location} {locs : List Location} {names : List Name}
  {n q : Name} {p : Path}

/-! ## Trees of directories -/

/-- The file system with the directories at the given locations and above them and nothing else, seen
from the top. -/
def ofDirectories (locs : List Location) : FileSystem where
  nodes := (locs.flatMap List.tails).dedup.map fun loc => (loc, .directory .full)
  here := []
  nodup := by
    rw [List.map_map]
    exact (List.map_id _).symm ▸ List.nodup_dedup _

theorem node_ofDirectories {node : Node} :
    (ofDirectories locs).node? loc = some node ↔
      node = .directory .full ∧ ∃ l ∈ locs, loc <:+ l := by
  rw [node_eq_some_iff]
  simp only [ofDirectories, List.mem_map, List.mem_dedup, List.mem_flatMap, List.mem_tails,
    Prod.mk.injEq]
  constructor
  · rintro ⟨_, habove, rfl, rfl⟩
    exact ⟨rfl, habove⟩
  · rintro ⟨rfl, habove⟩
    exact ⟨loc, habove, rfl, rfl⟩

theorem plain_ofDirectories (h : ∀ l ∈ locs, ∀ n ∈ l, StoredName n) :
    (ofDirectories locs).Plain := by
  constructor
  case kinds =>
    intro loc node hnode
    exact .inl (node_ofDirectories.mp hnode).1
  case parents =>
    intro n loc node hnode
    obtain ⟨-, l, hl, hsuffix⟩ := node_ofDirectories.mp hnode
    exact node_ofDirectories.mpr ⟨rfl, l, hl, (List.suffix_cons n loc).trans hsuffix⟩
  case names =>
    intro loc node hnode n hn
    obtain ⟨-, l, hl, hsuffix⟩ := node_ofDirectories.mp hnode
    exact h l hl n (hsuffix.subset hn)

theorem locate_ofDirectories (hq : StoredName q) (hmem : [q] ∈ locs) :
    (ofDirectories locs).locate .follow ⟨q⟩ = .ok ([q], .directory .full) := by
  have hentry : (ofDirectories locs).node? [q] = some (.directory .full) :=
    node_ofDirectories.mpr ⟨rfl, [q], hmem, List.suffix_rfl⟩
  have htop : (ofDirectories locs).node? [] = some (.directory .full) :=
    node_ofDirectories.mpr ⟨rfl, [q], hmem, List.nil_suffix⟩
  have hlong : q.length ≤ maxPath := hq.fits.trans (by decide)
  rw [locate_eq_ok_iff, lookup_eq_ok_iff]
  refine ⟨hq.noNul, Path.isEmpty_name hq.toEntryName, hlong, ?_⟩
  obtain ⟨onLink, hfollow⟩ := followRoute_eq_followNames (ofDirectories locs) .follow maxLinks
    (Route.ofPath (ofDirectories locs).here ⟨q⟩)
  rw [hfollow]
  simp only [Route.ofPath, Path.isAbsolute_name hq.toEntryName, Path.names_name hq.toEntryName,
    Path.endsInSlash_name hq.toEntryName]
  have hsearch : Access.full.search = true := rfl
  have hhere : (ofDirectories locs).here = [] := rfl
  simp [followNames, hhere, htop, hsearch, hq.notDot, hq.notDotDot, Nat.not_lt.mpr hq.fits, hentry]

/-! ## Trails -/

/-- Where a name leads if it leads on. -/
def enter (loc : Location) (n : Name) : Location :=
  if n = dot then loc else if n = dotDot then loc.tail else n :: loc

/-- The locations that names pass if each of them leads on. -/
def trail : Location → List Name → List Location
  | loc, [] => [loc]
  | loc, n :: rest => loc :: trail (enter loc n) rest

theorem mem_trail_self (loc : Location) (names : List Name) : loc ∈ trail loc names := by
  cases names <;> exact List.mem_cons_self

/-- Only names that are looked up add to a location. -/
theorem mem_of_mem_trail (h : l ∈ trail loc names) (hn : n ∈ l) :
    n ∈ loc ∨ n ∈ names ∧ n ≠ dot ∧ n ≠ dotDot := by
  induction names generalizing loc with
  | nil => exact .inl (List.mem_singleton.mp h ▸ hn)
  | cons m rest ih =>
    rcases List.mem_cons.mp h with rfl | hrest
    · exact .inl hn
    rcases ih hrest with hloc | ⟨hmem, hproper⟩
    · rw [enter] at hloc
      by_cases hdot : m = dot
      · exact .inl (by simpa [hdot] using hloc)
      by_cases hup : m = dotDot
      · rw [if_neg hdot, if_pos hup] at hloc
        exact .inl (List.mem_of_mem_tail hloc)
      · rw [if_neg hdot, if_neg hup] at hloc
        rcases List.mem_cons.mp hloc with rfl | hloc
        · exact .inr ⟨List.mem_cons_self, hdot, hup⟩
        · exact .inl hloc
    · exact .inr ⟨List.mem_cons_of_mem m hmem, hproper⟩

/-- Names lead on wherever there is a directory at each location of their trail. -/
theorem Plain.statOf_trail (hfs : fs.Plain)
    (htrail : ∀ l ∈ trail loc names, fs.node? l = some (.directory .full))
    (hlong : ∀ n ∈ names, n.length ≤ maxName) (onLink : Route → Except Errno Reached)
    (slashEnded : Bool) :
    statOf (fs.followNames .follow onLink slashEnded loc names) = .ok (.directory .full) := by
  induction names generalizing loc with
  | nil => rw [followNames, htrail loc (mem_trail_self loc []), statOf]
  | cons n rest ih =>
    obtain ⟨hn, hrest⟩ := List.forall_mem_cons.mp hlong
    obtain ⟨hloc, hlater⟩ := List.forall_mem_cons.mp htrail
    have hnext := hlater _ (mem_trail_self _ _)
    have hfollow := ih hlater hrest
    rw [hfs.followNames_cons hloc]
    rw [enter] at hnext hfollow
    by_cases hdot : n = dot
    · rw [if_pos hdot] at hfollow ⊢
      exact hfollow
    rw [if_neg hdot] at hnext hfollow ⊢
    by_cases hup : n = dotDot
    · rw [if_pos hup] at hfollow ⊢
      exact hfollow
    · rw [if_neg hup] at hnext hfollow ⊢
      rw [if_neg (Nat.not_lt.mpr hn), hnext]
      exact hfollow

/-- Names that do not hold the name of a directory at the top do not lead into it. -/
theorem not_suffix_of_mem_trail (hq : q ∉ names) (hloc : ¬ [q] <:+ loc) (h : l ∈ trail loc names) :
    ¬ [q] <:+ l := by
  induction names generalizing loc with
  | nil => exact List.mem_singleton.mp h ▸ hloc
  | cons n rest ih =>
    rw [List.mem_cons, not_or] at hq
    rcases List.mem_cons.mp h with rfl | hrest
    · exact hloc
    refine ih hq.2 ?_ hrest
    rw [enter]
    by_cases hdot : n = dot
    · rwa [if_pos hdot]
    by_cases hup : n = dotDot
    · rw [if_neg hdot, if_pos hup]
      exact fun hsuffix => hloc (hsuffix.trans (List.tail_suffix loc))
    · rw [if_neg hdot, if_neg hup, List.suffix_cons_iff]
      rintro (hsame | hsuffix)
      · exact hq.1 (List.cons.inj hsame).1
      · exact hloc hsuffix

/-- Names that look nothing up before they leave a directory pass nothing below it. -/
theorem not_below_of_mem_trail (hq : q ∉ names) (hstarts : startsBelow names = false)
    (h : l ∈ trail [q] names) : ¬ [n, q] <:+ l := by
  have hself : ¬ [n, q] <:+ [q] := fun hsuffix => by simpa using hsuffix.length_le
  induction names with
  | nil => exact List.mem_singleton.mp h ▸ hself
  | cons m rest ih =>
    rw [List.mem_cons, not_or] at hq
    rcases List.mem_cons.mp h with rfl | hrest
    · exact hself
    rw [startsBelow] at hstarts
    rw [enter] at hrest
    by_cases hdot : m = dot
    · rw [if_pos hdot] at hstarts hrest
      exact ih hq.2 hstarts hrest
    · have hup : m = dotDot := by simpa [hdot] using hstarts
      rw [if_neg hdot, if_pos hup] at hrest
      intro hsuffix
      have htop : ¬ [q] <:+ ([q] : Location).tail := by simp
      exact not_suffix_of_mem_trail hq.2 htop hrest ((List.suffix_cons n [q]).trans hsuffix)

/-- Names that look something up at the top find nothing there but the one directory. -/
theorem Plain.statOf_at_top (hfs : fs.Plain) (htop : fs.node? [] = some (.directory .full))
    (honly : ∀ n, n ≠ q → fs.node? [n] = none) (hq : q ∉ names)
    (hlong : ∀ n ∈ names, n.length ≤ maxName) (hsteps : names.all isStep = false)
    (onLink : Route → Except Errno Reached) (slashEnded : Bool) :
    statOf (fs.followNames .follow onLink slashEnded [] names) = .error (.os .noEntry) := by
  induction names with
  | nil => cases hsteps
  | cons n rest ih =>
    rw [List.mem_cons, not_or] at hq
    obtain ⟨hn, hrest⟩ := List.forall_mem_cons.mp hlong
    rw [hfs.followNames_cons htop]
    by_cases hdot : n = dot
    · rw [if_pos hdot]
      exact ih hq.2 hrest (by simpa [isStep, hdot] using hsteps)
    by_cases hup : n = dotDot
    · rw [if_neg hdot, if_pos hup]
      exact ih hq.2 hrest (by simpa [isStep, hup] using hsteps)
    · rw [if_neg hdot, if_neg hup, if_neg (Nat.not_lt.mpr hn), honly n (Ne.symm hq.1)]
      by_cases hend : rest = [] <;> simp [hend, statOf]

/-- Names that look something up outside of a directory are lost in a tree that has nothing there. -/
theorem Plain.statOf_leaving (hfs : fs.Plain) (honly : ∀ n, n ≠ q → fs.node? [n] = none)
    (hq : q ∉ names) (hlong : ∀ n ∈ names, n.length ≤ maxName) (inner : Location)
    (htrail : ∀ l ∈ trail (inner ++ [q]) names, [q] <:+ l → fs.node? l = some (.directory .full))
    (hleaves : staysWithin inner.length names = false) (onLink : Route → Except Errno Reached)
    (slashEnded : Bool) :
    statOf (fs.followNames .follow onLink slashEnded (inner ++ [q]) names) =
      .error (.os .noEntry) := by
  induction names generalizing inner with
  | nil => cases hleaves
  | cons n rest ih =>
    rw [List.mem_cons, not_or] at hq
    obtain ⟨hn, hrest⟩ := List.forall_mem_cons.mp hlong
    obtain ⟨hloc, hlater⟩ := List.forall_mem_cons.mp htrail
    have hinner := hloc (List.suffix_append inner [q])
    rw [hfs.followNames_cons hinner]
    rw [staysWithin] at hleaves
    rw [enter] at hlater
    by_cases hdot : n = dot
    · rw [if_pos hdot] at hleaves hlater ⊢
      exact ih hq.2 hrest inner hlater hleaves
    rw [if_neg hdot] at hleaves hlater ⊢
    by_cases hup : n = dotDot
    · rw [if_pos hup] at hleaves hlater ⊢
      cases inner with
      | nil =>
        exact hfs.statOf_at_top (hfs.node_tail hinner) honly hq.2 hrest hleaves _ _
      | cons m inner => exact ih hq.2 hrest inner hlater hleaves
    · rw [if_neg hup] at hleaves hlater ⊢
      have hentry : fs.node? (n :: (inner ++ [q])) = some (.directory .full) :=
        hlater _ (mem_trail_self _ _) (List.suffix_append (n :: inner) [q])
      rw [if_neg (Nat.not_lt.mpr hn), hentry]
      exact ih hq.2 hrest (n :: inner) hlater hleaves

/-! ## Telling trees apart -/

/-- A path that can be looked up from a directory with a short name. -/
structure Spacious (p : Path) : Prop where
  relative : p.isAbsolute = false
  nonempty : p.isEmpty = false
  noNul : 0 ∉ p.bytes
  names : ∀ n ∈ p.names, n.length ≤ maxName
  length : p.bytes.length + 3 ≤ maxPath

theorem Spacious.exists_fits (h : Spacious p) :
    ∃ q, StoredName q ∧ q ∉ p.names ∧ Fits ⟨q⟩ p := by
  have hfew : p.names.length < 4096 := by
    have hnames := p.names_length_le
    have hlength : p.bytes.length + 3 ≤ 4095 := h.length
    omega
  obtain ⟨q, hq, hshort, hfresh⟩ := Path.exists_fresh_name hfew
  refine ⟨q, hq, hfresh, h.relative, h.nonempty, h.noNul, h.names, ?_⟩
  have hstem := Path.stem_length_le ⟨q⟩
  have hlength := h.length
  simp only [hshort] at hstem
  rw [Path.join_bytes _ h.relative, List.length_append]
  omega

theorem storedName_of_mem_trail (h : Spacious p) (hq : StoredName q) (hl : l ∈ trail [q] p.names)
    (hn : n ∈ l) : StoredName n := by
  rcases mem_of_mem_trail hl hn with hself | ⟨hmem, hdot, hup⟩
  · exact List.mem_singleton.mp hself ▸ hq
  · refine ⟨Path.entryName_of_mem_names hmem hdot hup, fun hzero => h.noNul ?_, h.names n hmem⟩
    exact subset_of_mem_splitSlashes (List.mem_of_mem_filter hmem) hzero

/-- Where a path looks something up outside, trees that are the same at a directory can differ on
whether it leads anywhere from there. -/
theorem Spacious.exists_sameAt (h : Spacious p) (hleaves : staysWithin 0 p.names = false) :
    ∃ (fs fs' : FileSystem) (dir : Path), fs.Plain ∧ fs'.Plain ∧ SameAt fs fs' dir ∧
      fs.stat (dir.join p) = .ok (.directory .full) ∧
      fs'.stat (dir.join p) = .error (.os .noEntry) := by
  obtain ⟨q, hq, hfresh, hfits⟩ := h.exists_fits
  let inside := (trail [q] p.names).filter fun l => decide ([q] <:+ l)
  have hstored : ∀ l ∈ trail [q] p.names, ∀ n ∈ l, StoredName n :=
    fun l hl n hn => storedName_of_mem_trail h hq hl hn
  have hplain := plain_ofDirectories hstored
  have hplain' : (ofDirectories inside).Plain :=
    plain_ofDirectories fun l hl => hstored l (List.mem_of_mem_filter hl)
  have hself : [q] ∈ trail [q] p.names := mem_trail_self _ _
  have hself' : [q] ∈ inside := List.mem_filter.mpr ⟨hself, decide_eq_true List.suffix_rfl⟩
  have hdir := locate_ofDirectories hq hself
  have hdir' := locate_ofDirectories hq hself'
  refine ⟨_, _, ⟨q⟩, hplain, hplain', ⟨[q], [q], _, hdir, hdir', ?_⟩, ?_, ?_⟩
  · intro inner
    apply Option.ext
    intro node
    rw [node_ofDirectories, node_ofDirectories]
    refine and_congr_right fun _ => exists_congr fun l => ?_
    rw [List.mem_filter, decide_eq_true_iff, and_assoc]
    refine and_congr_right fun _ => (and_iff_right_of_imp fun hsuffix => ?_).symm
    exact (List.suffix_append inner [q]).trans hsuffix
  · obtain ⟨onLink, hstat⟩ := hfits.stat_join hdir
    rw [hstat]
    refine hplain.statOf_trail (fun l hl => ?_) h.names _ _
    exact node_ofDirectories.mpr ⟨rfl, l, hl, List.suffix_rfl⟩
  · obtain ⟨onLink, hstat⟩ := hfits.stat_join hdir'
    rw [hstat]
    refine hplain'.statOf_leaving (q := q) ?_ hfresh h.names [] ?_ hleaves _ _
    · intro n hne
      rw [Option.eq_none_iff_forall_ne_some]
      intro node hnode
      obtain ⟨-, l, hl, hsuffix⟩ := node_ofDirectories.mp hnode
      have hq' : [q] <:+ l := of_decide_eq_true (List.mem_filter.mp hl).2
      have hsame : [n] = [q] := (List.suffix_of_suffix_length_le hsuffix hq' le_rfl).eq_of_length rfl
      exact hne (List.cons.inj hsame).1
    · intro l hl hsuffix
      exact node_ofDirectories.mpr
        ⟨rfl, l, List.mem_filter.mpr ⟨hl, decide_eq_true hsuffix⟩, List.suffix_rfl⟩

/-- Where a path looks nothing up before it leaves, it can lead somewhere from an empty directory. -/
theorem Spacious.exists_empty (h : Spacious p) (hstarts : startsBelow p.names = false) :
    ∃ (fs : FileSystem) (dir : Path) (loc : Location), fs.Plain ∧ fs.list dir = .ok (loc, []) ∧
      fs.stat (dir.join p) = .ok (.directory .full) := by
  obtain ⟨q, hq, hfresh, hfits⟩ := h.exists_fits
  have hplain : (ofDirectories (trail [q] p.names)).Plain :=
    plain_ofDirectories fun l hl n hn => storedName_of_mem_trail h hq hl hn
  have hdir := locate_ofDirectories hq (mem_trail_self [q] p.names)
  refine ⟨_, ⟨q⟩, [q], hplain, ?_, ?_⟩
  · have hread : Access.full.read = true := rfl
    rw [list_of_directory hdir, if_pos hread]
    have hnone : (ofDirectories (trail [q] p.names)).namesIn [q] = [] := by
      rw [List.eq_nil_iff_forall_not_mem]
      intro n hn
      obtain ⟨node, hnode⟩ := mem_namesIn.mp hn
      obtain ⟨-, l, hl, hsuffix⟩ := node_ofDirectories.mp hnode
      exact not_below_of_mem_trail hfresh hstarts hl hsuffix
    rw [hnone]; rfl
  · obtain ⟨onLink, hstat⟩ := hfits.stat_join hdir
    rw [hstat]
    refine hplain.statOf_trail (fun l hl => ?_) h.names _ _
    exact node_ofDirectories.mpr ⟨rfl, l, hl, List.suffix_rfl⟩

end FileSystem
end SyncAudit
