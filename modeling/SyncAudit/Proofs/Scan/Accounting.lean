import SyncAudit.Proofs.FileSystem.Described
import SyncAudit.Proofs.Scan.Settling

/-!
# Every entry is accounted for

A scan that succeeds says of each entry of the root that it goes into it or why it passes it over,
in one line. Of each entry of a namespace that it goes into, it finds a repository there or says in
one line why it passes the entry over. The lines stand in the order in which the entries are met,
and there are no others.
-/
namespace SyncAudit

/-- Whether an event tells what became of an entry that a walk met. -/
def Event.tellsOfEntry : Event → Bool
  | .processing _ | .skippingNonDirectory _ | .skippingHidden _ | .skippingLink _ => true
  | _ => false

/-- The text of a line that tells what became of an entry. -/
def Event.entryText : Event → String
  | .processing path => s!"Processing {path.display}"
  | .skippingNonDirectory path => s!"Skipping non-directory: {path.display}"
  | .skippingHidden path => s!"Skipping hidden directory: {path.display}"
  | .skippingLink (.io path e) =>
    "Skipping unfollowable symlink: " ++ s!"IO error for operation on {path.display}: {e.message}"
  | .skippingLink (.loop path ancestor) =>
    "Skipping unfollowable symlink: " ++
      s!"File system loop found: {path.display} points to an ancestor {ancestor.display}"
  | .skippingLink (.unopened e) => s!"Skipping unfollowable symlink: {e.message}"
  | _ => ""

/-- What a run tells of the entries that it met. -/
def Run.entryLines {α : Type} (x : Run α) : List Event :=
  x.events.filter Event.tellsOfEntry

namespace Scan

/-- A line that tells why the entry at a path was passed over. -/
inductive SkipLine (path : Path) : Event → Prop
  | notDirectory : SkipLine path (.skippingNonDirectory path)
  | hidden : SkipLine path (.skippingHidden path)
  | lost (e : IoError) : SkipLine path (.skippingLink (.io path e))
  | looping (ancestor : Path) : SkipLine path (.skippingLink (.loop path ancestor))

/-- What an entry of a namespace comes to: the lines about it and the repositories there. -/
inductive EntryAccount (path : Path) : List Event → List FoundRepo → Prop
  | found {repo : FoundRepo} : repo.path = path → EntryAccount path [] [repo]
  | skipped {line : Event} : SkipLine path line → EntryAccount path [line] []

/-- What an entry of the root comes to: the lines about it and about its own entries, and the
repositories in it. -/
inductive NamespaceAccount (fs : FileSystem) (path : Path) : List Event → List FoundRepo → Prop
  | skipped {line : Event} : SkipLine path line → NamespaceAccount fs path [line] []
  | processed {loc : Location} {names : List Name} {lines : Name → List Event}
      {found : Name → List FoundRepo} : fs.list path = .ok (loc, names) →
      (∀ r ∈ names, EntryAccount (path.child r) (lines r) (found r)) →
      NamespaceAccount fs path (.processing path :: names.flatMap lines) (names.flatMap found)

variable {fs : FileSystem} {options : AuditOptions} {dir : Ancestor} {above : List Ancestor}
  {names : List Name} {n : Name}

/-! ## Lines -/

theorem message_of_tellsOfEntry {e : Event} (h : e.tellsOfEntry = true) (elapsed : String) :
    e.message elapsed = e.entryText := by
  cases e with
  | skippingLink cause => cases cause <;> rfl
  | processing path => rfl
  | skippingNonDirectory path => rfl
  | skippingHidden path => rfl
  | _ => cases h

/-- The lines as they are written. -/
theorem messages_entryLines {α : Type} (x : Run α) (elapsed : String) :
    x.entryLines.map (Event.message elapsed) = x.entryLines.map Event.entryText :=
  List.map_congr_left fun _ he => message_of_tellsOfEntry (List.mem_filter.mp he).2 elapsed

theorem entryLines_of_logs {α : Type} {x : Run α} (h : x.Logs fun e => !e.tellsOfEntry) :
    x.entryLines = [] := by
  refine List.filter_eq_nil_iff.mpr fun e he => ?_
  simpa using h e he

theorem collect_entryLines {α β : Type} {f : α → Run (List β)} {as : List α}
    (h : ∀ a ∈ as, ∃ found, (f a).result = .ok found) :
    (collect f as).entryLines = as.flatMap fun a => (f a).entryLines := by
  rw [Run.entryLines, collect_events h, List.filter_flatMap]
  rfl

theorem entryLines_nameText (n : Name) (path : Path) :
    (nameText n path).Logs fun e => !e.tellsOfEntry := by
  rw [nameText]
  cases Text.ofBytes? n with
  | some s => exact Run.logs_pure _
  | none => exact Run.logs_log_bind rfl (Run.logs_pure _)

/-- No line tells of a repository that is found, be its name text or not. -/
theorem entryLines_identify (path : Path) (n : Name) : (identify path n).entryLines = [] := by
  refine entryLines_of_logs ?_
  rw [identify]
  cases namespaceOf? path with
  | none => exact Run.logs_fail _
  | some found =>
    exact (entryLines_nameText _ _).bind fun _ =>
      (entryLines_nameText _ _).bind fun _ => Run.logs_pure _

/-- An entry that does not break the walk off is admitted, or one line tells why it is passed
over. -/
theorem visit_admitted_or_skipped
    (hunbroken : ∀ e, visit fs options (dir :: above) dir.path dir.loc n ≠ .broken e) :
    visit fs options (dir :: above) dir.path dir.loc n = .admitted (dir.path.child n) ∨
      ∃ line, SkipLine (dir.path.child n) line ∧ ∀ go,
        settle (visit fs options (dir :: above) dir.path dir.loc n) go = ⟨[line], .ok []⟩ := by
  rcases visit_cases fs options dir above n with
    ⟨_, _, hvisit⟩ | ⟨_, _, _, hvisit⟩ | ⟨_, _, hvisit⟩
  · rcases sift_cases options (dir.path.child n) n with ⟨_, hsift⟩ | ⟨_, hsift⟩
    · exact .inl (hvisit.trans hsift)
    · rw [hvisit, hsift]
      exact .inr ⟨_, .hidden, fun _ => rfl⟩
  · generalize visit fs options (dir :: above) dir.path dir.loc n = out at *
    cases hvisit with
    | lost _ _ => exact .inr ⟨_, .lost _, fun _ => rfl⟩
    | barred _ _ => exact absurd rfl (hunbroken _)
    | unopened _ _ => exact absurd rfl (hunbroken _)
    | loop _ _ _ => exact .inr ⟨_, .looping _, fun _ => rfl⟩
    | entered _ _ _ _ => exact .inl rfl
    | hidden _ _ _ _ => exact .inr ⟨_, .hidden, fun _ => rfl⟩
    | leaf _ _ => exact .inr ⟨_, .notDirectory, fun _ => rfl⟩
  · rw [hvisit]
    exact .inr ⟨_, .notDirectory, fun _ => rfl⟩

theorem SkipLine.tellsOfEntry {path : Path} {line : Event} (h : SkipLine path line) :
    line.tellsOfEntry = true := by
  cases h <;> rfl

/-- What an entry leaves in the log and in the result if it is passed over, whatever would be done
with it otherwise. -/
theorem account_of_skipped {outcome : Outcome} {path : Path} {line : Event}
    {go : Path → Run (List FoundRepo)} (hline : SkipLine path line)
    (h : settle outcome go = ⟨[line], .ok []⟩) :
    (settle outcome go).entryLines = [line] ∧ (settle outcome go).items = [] := by
  rw [h]
  exact ⟨List.filter_cons_of_pos hline.tellsOfEntry, rfl⟩

/-! ## Accounts -/

/-- An entry of a namespace is a repository, or one line tells why it is not. -/
theorem entry_account {p : Path} {ns r : Name} {loc : Location} (hns : EntryName ns)
    (hr : EntryName r)
    (hunbroken : ∀ e, visit fs options (⟨p.child ns, loc⟩ :: above) (p.child ns) loc r ≠
      .broken e) :
    EntryAccount ((p.child ns).child r)
      (settle (visit fs options (⟨p.child ns, loc⟩ :: above) (p.child ns) loc r)
        fun q => identify q r).entryLines
      (settle (visit fs options (⟨p.child ns, loc⟩ :: above) (p.child ns) loc r)
        fun q => identify q r).items := by
  have hcases := visit_admitted_or_skipped hunbroken
  rcases hcases with hvisit | ⟨line, hline, hsettle⟩
  · have hfound := Run.items_of_ok (identify_result p hns hr)
    have hsettle : settle (visit fs options (⟨p.child ns, loc⟩ :: above) (p.child ns) loc r)
        (fun q => identify q r) = identify ((p.child ns).child r) r := by
      rw [hvisit]
      rfl
    rw [hsettle, entryLines_identify, hfound]
    exact .found rfl
  · obtain ⟨hlines, hitems⟩ := account_of_skipped hline (hsettle fun q => identify q r)
    rw [hlines, hitems]
    exact .skipped hline

/-- A namespace that is scanned with success is announced before its entries, and each of these is
accounted for. -/
theorem scanNamespace_account {top : Ancestor} {p : Path} {ns : Name} {loc : Location}
    (hfs : fs.ProperNames) (hns : EntryName ns)
    (h : Settled fs options [top] ⟨p.child ns, loc⟩ names) {found : List FoundRepo}
    (hscan : (scanNamespace fs options top (p.child ns)).result = .ok found) :
    NamespaceAccount fs (p.child ns) (scanNamespace fs options top (p.child ns)).entryLines
      found := by
  rw [scanNamespace, Run.log_bind_result, h.listed] at hscan
  obtain ⟨hall, rfl⟩ := collect_result.mp hscan
  have hlines : (scanNamespace fs options top (p.child ns)).entryLines =
      .processing (p.child ns) :: names.flatMap fun r =>
        (settle (visit fs options [⟨p.child ns, loc⟩, top] (p.child ns) loc r)
          fun q => identify q r).entryLines := by
    rw [← collect_entryLines hall, scanNamespace, h.listed, Run.entryLines, Run.log_bind_events]
    rfl
  rw [hlines]
  refine .processed h.listed fun r hr => ?_
  exact entry_account hns (hfs.of_list h.listed hr) (h.unbroken r hr)

/-- In a scan that succeeds, each entry of the root has one line that says that it is processed or
why it is passed over. Behind the line of one that is processed come the lines of its entries, one
for each that is no repository of the result. No other lines tell of entries, and each of them is
written with the path of its entry. -/
theorem scan_accounts {root : Path} {rootLoc : Location} {repos : List FoundRepo}
    (hfs : fs.ProperNames) (hroot : fs.list root = .ok (rootLoc, names))
    (hscan : (scan fs options root).result = .ok repos) :
    ∃ (lines : Name → List Event) (found : Name → List FoundRepo),
      (∀ ns ∈ names, NamespaceAccount fs (root.child ns) (lines ns) (found ns)) ∧
      (scan fs options root).entryLines = names.flatMap lines ∧
      (∀ elapsed, (scan fs options root).entryLines.map (Event.message elapsed) =
        names.flatMap fun ns => (lines ns).map Event.entryText) ∧
      repos = names.flatMap found := by
  have hwalks : Walks fs options root ⟨root, rootLoc⟩ [] := .root hroot
  have hrootScan := hscan
  rw [scan_result] at hrootScan
  have hscanLines : (scan fs options root).entryLines = (scanRoot fs options root).entryLines := by
    rw [scan, Run.entryLines, Run.log_bind_events, Run.bind_of_ok hrootScan, List.filter_cons,
      List.filter_append]
    exact List.append_nil _
  rw [scanRoot_of_list hroot, scanDirectory, hroot] at hrootScan
  obtain ⟨hall, hrepos⟩ := collect_result.mp hrootScan
  have hlines := collect_entryLines hall
  simp only [messages_entryLines]
  rw [hscanLines, scanRoot_of_list hroot, scanDirectory, hroot]
  refine ⟨_, _, fun ns hns => ?_, hlines, fun _ => ?_, hrepos⟩
  case refine_2 => exact (congrArg _ hlines).trans List.map_flatMap
  obtain ⟨found, hfound⟩ := hall ns hns
  obtain ⟨hunbroken, hadmitted, -⟩ := settle_result hfound
  rw [Run.items_of_ok hfound]
  rcases visit_admitted_or_skipped hunbroken with hvisit | ⟨line, hline, hsettle⟩
  · obtain ⟨-, nsLoc, henters⟩ := enters_of_admitted hvisit
    obtain ⟨inside, hsettled⟩ := (hwalks.entry henters).settled hfs hscan
    have haccount := scanNamespace_account hfs (hfs.of_list hroot hns) hsettled
      (hadmitted _ hvisit)
    rw [hvisit]
    exact haccount
  · obtain ⟨hlines, hitems⟩ := account_of_skipped hline (hsettle _)
    rw [Run.items_of_ok hfound] at hitems
    rw [hlines, hitems]
    exact .skipped hline

/-- A root with a hidden namespace, a file, a namespace and a link back to itself. In the namespace
are a link without a target, a file and a repository. -/
def mixedShelf : FileSystem :=
  .ofFixtures []
    [.directory (.ofString "sync/.cache"), .file (.ofString "sync/README") [],
      .directory (.ofString "sync/acme/kit"), .file (.ofString "sync/acme/notes") [],
      .link (.ofString "sync/acme/gone") (.ofString "nowhere"),
      .link (.ofString "sync/self") (.ofString ".")]

def mixedOptions : AuditOptions :=
  { AuditOptions.default with skipHidden := true }

/-- The scan with all that it logs. -/
theorem mixedShelf_scan : scan mixedShelf mixedOptions (.ofString "sync") =
    ⟨[.scanning (.ofString "sync"), .skippingHidden (.ofString "sync/.cache"),
        .skippingNonDirectory (.ofString "sync/README"), .processing (.ofString "sync/acme"),
        .skippingLink (.io (.ofString "sync/acme/gone") (.os .noEntry)),
        .skippingNonDirectory (.ofString "sync/acme/notes"),
        .skippingLink (.loop (.ofString "sync/self") (.ofString "sync")), .foundRepos 1],
      .ok [⟨⟨"acme", "kit"⟩, .ofString "sync/acme/kit"⟩]⟩ :=
  Run.ext (by decide +kernel) (by decide +kernel)

theorem mixedShelf_accounts :
    ∃ (lines : Name → List Event) (found : Name → List FoundRepo),
      (∀ ns ∈ [".cache", "README", "acme", "self"].map Text.toBytes,
        NamespaceAccount mixedShelf ((Path.ofString "sync").child ns) (lines ns) (found ns)) ∧
      (scan mixedShelf mixedOptions (.ofString "sync")).entryLines =
        ([".cache", "README", "acme", "self"].map Text.toBytes).flatMap lines ∧
      (∀ elapsed, (scan mixedShelf mixedOptions (.ofString "sync")).entryLines.map
          (Event.message elapsed) =
        ([".cache", "README", "acme", "self"].map Text.toBytes).flatMap fun ns =>
          (lines ns).map Event.entryText) ∧
      [⟨⟨"acme", "kit"⟩, .ofString "sync/acme/kit"⟩] =
        ([".cache", "README", "acme", "self"].map Text.toBytes).flatMap found :=
  scan_accounts (FileSystem.properNames_ofFixtures (by decide) _)
    (show mixedShelf.list (.ofString "sync") =
      .ok ([Text.toBytes "sync"], [".cache", "README", "acme", "self"].map Text.toBytes) by
        decide +kernel)
    (congrArg Run.result mixedShelf_scan)

end Scan
end SyncAudit
