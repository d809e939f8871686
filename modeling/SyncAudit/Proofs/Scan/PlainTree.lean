import SyncAudit.Proofs.FileSystem.Plain
import SyncAudit.Proofs.Scan.Discovery

/-!
# Scans of plain trees

In a plain tree nothing keeps a directory from being listed but the length of its path, and no entry
is a link. So a scan succeeds if the paths of the entries of the root are within the limits, and
what it discovers are directories that stand where their names say.
-/
namespace SyncAudit

variable {fs : FileSystem} {options : AuditOptions}

namespace FileSystem

variable {dir : Path} {dirLoc : Location} {access : Access} {n : Name} {node : Node}

/-- The path of an entry leads to the entry. -/
theorem Plain.locate_child (hfs : fs.Plain)
    (hdir : fs.locate .follow dir = .ok (dirLoc, .directory access))
    (hnode : fs.node? (n :: dirLoc) = some node)
    (hlong : (dir.child n).bytes.length ≤ maxPath) :
    fs.locate .follow (dir.child n) = .ok (n :: dirLoc, node) := by
  have hn := hfs.names _ _ hnode n List.mem_cons_self
  have hfits : Fits dir ⟨n⟩ := by
    refine ⟨Path.isAbsolute_name hn.toEntryName, Path.isEmpty_name hn.toEntryName, hn.noNul, ?_,
      hlong⟩
    rw [Path.names_name hn.toEntryName]
    exact List.forall_mem_singleton.mpr hn.fits
  rcases FileSystem.locate_child hdir hn.toEntryName hnode with ⟨e, he⟩ | ⟨-, hfollow⟩
  · obtain ⟨onLink, hstat⟩ := hfits.stat_join hdir
    have hloc := hfs.node_of_locate hdir
    have hfollow : fs.followNames .follow onLink false dirLoc [n] =
        .ok (.found (n :: dirLoc) node) := by
      rcases hfs.kinds _ _ hnode with rfl | ⟨content, rfl⟩ <;>
        simp [followNames, hloc, hn.notDot, hn.notDotDot, Nat.not_lt.mpr hn.fits, hnode,
          show Access.full.search = true from rfl]
    rw [Path.names_name hn.toEntryName, Path.endsInSlash_name hn.toEntryName, hfollow] at hstat
    have herror : fs.stat (dir.child n) = .error e := stat_eq_error_iff.mpr (he .follow)
    rw [Path.child, hstat] at herror
    cases herror
  · exact hfollow (hfs.isLink_eq_false hnode)

theorem Plain.list_of_locate (hfs : fs.Plain)
    (hdir : fs.locate .follow dir = .ok (dirLoc, .directory access)) :
    fs.list dir = .ok (dirLoc, sortNames (fs.namesIn dirLoc)) := by
  have hnode : fs.node? dirLoc = some (.directory access) :=
    lookup_isPlace (locate_eq_ok_iff.mp hdir)
  have hfull : access = .full := by
    simpa [hnode] using hfs.node_of_locate hdir
  rw [list_of_directory hdir, hfull]
  rfl

end FileSystem

namespace Scan

open FileSystem

/-- No entry of a plain tree breaks the walk off. -/
theorem visit_of_plain (hfs : fs.Plain) (options : AuditOptions) (dir : Ancestor)
    (above : List Ancestor) (n : Name) (e : WalkError) :
    visit fs options (dir :: above) dir.path dir.loc n ≠ .broken e := by
  rcases visit_cases fs options dir above n with
    ⟨access, hnode, hvisit⟩ | ⟨target, hnode, -, -⟩ | ⟨-, -, hvisit⟩
  · rw [hvisit]
    exact sift_ne_broken options (dir.path.child n) n e
  · cases hfs.isLink_eq_false hnode
  · simp [hvisit]

theorem Enters.node_of_plain (hfs : fs.Plain) {dir : Ancestor} {above : List Ancestor} {n : Name}
    {loc : Location} (h : Enters fs options dir above n loc) :
    loc = n :: dir.loc ∧ fs.node? (n :: dir.loc) = some (.directory .full) := by
  cases h with
  | directory hnode _ => exact ⟨rfl, hfs.directory_full hnode⟩
  | link _ hnode _ _ _ => cases hfs.isLink_eq_false hnode

variable {root : Path} {rootLoc : Location} {names : List Name}

/-- A scan of a plain tree succeeds if the paths of the entries of the root are not too long. -/
theorem exists_scan_result (hfs : fs.Plain) (options : AuditOptions)
    (hroot : fs.list root = .ok (rootLoc, names))
    (hlong : ∀ ns ∈ names, (root.child ns).bytes.length ≤ maxPath) :
    ∃ repos, (scan fs options root).result = .ok repos := by
  have hunbroken := visit_of_plain hfs options
  refine (exists_scan_result_iff hfs.properNames hroot).mpr fun dir above hdir => ?_
  cases hdir with
  | root hroot' => exact ⟨_, hroot', fun n _ => hunbroken _ _ n⟩
  | entry hdir henters =>
    cases hdir with
    | root hroot' =>
      obtain ⟨rfl, rfl⟩ := list_unique hroot hroot'
      obtain ⟨access, hlocate, -⟩ := list_eq_ok_iff.mp hroot
      obtain ⟨rfl, hnode⟩ := henters.node_of_plain hfs
      have hmem := (mem_of_list hroot).mpr ⟨_, hnode⟩
      have hlist := hfs.list_of_locate (hfs.locate_child hlocate hnode (hlong _ hmem))
      exact ⟨_, hlist, fun n _ => hunbroken _ _ n⟩

/-- The path of a repository that is discovered in a plain tree leads to its directory. -/
theorem Discovers.locate_of_plain (hfs : fs.Plain) {ns r : Name}
    (h : Discovers fs options root ns r)
    (hlong : ((root.child ns).child r).bytes.length ≤ maxPath) :
    ∃ loc, fs.locate .follow ((root.child ns).child r) = .ok (loc, .directory .full) := by
  obtain ⟨hns, hr⟩ := h.entryNames hfs.properNames
  obtain ⟨rootLoc, names, nsLoc, rLoc, hroot, hnsEnters, hrEnters⟩ := h
  obtain ⟨rfl, hnsNode⟩ := hnsEnters.node_of_plain hfs
  obtain ⟨rfl, hrNode⟩ := hrEnters.node_of_plain hfs
  obtain ⟨access, hlocate, -⟩ := list_eq_ok_iff.mp hroot
  have hshorter := Nat.le_of_lt (Path.length_lt_child (root.child ns) hr)
  exact ⟨_, hfs.locate_child (hfs.locate_child hlocate hnsNode (Nat.le_trans hshorter hlong)) hrNode
    hlong⟩

end Scan
end SyncAudit
