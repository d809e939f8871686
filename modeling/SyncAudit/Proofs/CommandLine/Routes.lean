import SyncAudit.Proofs.Audit.Log
import SyncAudit.Proofs.CommandLine.Outcome
import SyncAudit.Proofs.Scan.Discovery
import SyncAudit.Proofs.Settings.Loaded

/-!
# Where the settings of a run come from

Settings come to a run by one of three routes: out of the file that is named, out of the default file
and the environment, or from the defaults where these cannot be loaded. A marker may be given on top.
On every route the marker has been looked at when the audit starts, so it names something and is
taken from a directory. Each marker path that the audit looks up is then the path of a repository, a
slash and the marker.
-/
namespace SyncAudit

/-- The path of a marker below the directory of a repository. -/
def markerPath (repo marker : Path) : Path :=
  ⟨repo.bytes ++ slash :: marker.bytes⟩

namespace CommandLine

open Settings (ForeignReaders)

variable {fs : FileSystem} {env : Environment} {now : Timestamp} {words : List Word}
  {invocation : Invocation} {config : Path} {loaded settings : Settings}

/-! ## Routes -/

/-- The routes by which settings come to a run, before a marker is given on top. -/
inductive Route [ForeignReaders] (fs : FileSystem) (env : Environment)
    (config : Path) : Settings → Prop
  | named {node : Node} {loaded : Settings} : fs.stat config = .ok node →
      Settings.load fs env (some config) = .ok loaded → Route fs env config loaded
  | unnamed {e : IoError} {loaded : Settings} : fs.stat config = .error e →
      Settings.load fs env none = .ok loaded → Route fs env config loaded
  | builtIn {e : IoError} {e' : AuditError} : fs.stat config = .error e →
      Settings.load fs env none = .error e' → Route fs env config .default

theorem settingsFor_eq_ok_iff [ForeignReaders] :
    (settingsFor fs env config).result = .ok loaded ↔ Route fs env config loaded := by
  constructor
  · intro h
    rw [settingsFor] at h
    cases hstat : fs.stat config with
    | ok node =>
      rw [hstat] at h
      exact .named hstat h
    | error e =>
      rw [hstat] at h
      simp only [Run.log_bind_result] at h
      cases hload : Settings.load fs env none with
      | ok found =>
        rw [hload] at h
        obtain rfl := Except.ok.inj h
        exact .unnamed hstat hload
      | error e' =>
        rw [hload] at h
        obtain rfl := Except.ok.inj h
        exact .builtIn hstat hload
  · intro h
    cases h with
    | named hstat hload => simp [settingsFor, hstat, hload]
    | unnamed hstat hload => simp [settingsFor, hstat, hload]
    | builtIn hstat hload => simp [settingsFor, hstat, hload]

theorem Route.valid [ForeignReaders] (h : Route fs env config loaded) : loaded.audit.Valid := by
  cases h with
  | named _ hload => exact Settings.valid_of_load hload
  | unnamed _ hload => exact Settings.valid_of_load hload
  | builtIn => exact Settings.default_valid

theorem withMarker_eq_ok_iff {marker : Option Path} :
    withMarker loaded marker = .ok settings ↔ marker = none ∧ settings = loaded ∨
      ∃ p, marker = some p ∧ settings.audit.Valid ∧
        settings = { loaded with audit := { loaded.audit with configMarker := p } } := by
  cases marker with
  | none => simp [withMarker, eq_comm]
  | some p =>
    have hvalid := Settings.validate_eq_ok_iff
      { loaded with audit := { loaded.audit with configMarker := p } }
    simp only [withMarker, reduceCtorEq, false_and, false_or, Option.some.injEq, exists_eq_left']
    generalize { loaded with audit := { loaded.audit with configMarker := p } } = changed at hvalid ⊢
    cases hcheck : changed.validate with
    | error e =>
      rw [hcheck] at hvalid
      simp only [reduceCtorEq, false_iff] at hvalid ⊢
      rintro ⟨hsettings, rfl⟩
      exact hvalid hsettings
    | ok =>
      have hchanged := hvalid.mp hcheck
      constructor
      · intro h
        obtain rfl := Except.ok.inj h
        exact ⟨hchanged, rfl⟩
      · rintro ⟨-, rfl⟩
        rfl

theorem settingsOf_eq_ok_iff [ForeignReaders] :
    settingsOf fs env invocation = .ok settings ↔ ∃ loaded,
      Route fs env invocation.config loaded ∧ withMarker loaded invocation.marker = .ok settings := by
  simp only [← settingsFor_eq_ok_iff, settingsOf]
  cases (settingsFor fs env invocation.config).result <;> simp [bind, Except.bind]

/-- Whatever route they came by, the settings of a run are valid, with or without a marker on top. -/
theorem valid_of_settingsOf [ForeignReaders] (h : settingsOf fs env invocation = .ok settings) :
    settings.audit.Valid := by
  obtain ⟨loaded, hroute, hmarker⟩ := settingsOf_eq_ok_iff.mp h
  rcases withMarker_eq_ok_iff.mp hmarker with ⟨-, rfl⟩ | ⟨p, -, hvalid, -⟩
  · exact hroute.valid
  · exact hvalid

/-! ## Marker paths -/

/-- The markers of repositories are looked up below them, and nothing else is looked up. -/
structure LooksBelow (fs : FileSystem) (marker : Path) (repos : List FoundRepo) : Prop where
  joined : ∀ repo ∈ repos, repo.path.join marker = markerPath repo.path marker
  /-- Where other answers are the same for the markers of the valid repositories, so is the run. -/
  only : ∀ (fs' : FileSystem) (valid : IdSet),
    (∀ repo ∈ repos, valid.contains repo.id = true →
      fs'.exists? (markerPath repo.path marker) = fs.exists? (markerPath repo.path marker)) →
    ∀ audited, classifyAll fs' valid marker audited repos =
      classifyAll fs valid marker audited repos
  refused : ∀ valid audited e, (classifyAll fs valid marker audited repos).result = .error e →
    ∃ repo ∈ repos, ∃ cause, e = .fileOperation (markerPath repo.path marker) cause

/-- A directory whose path does not end in a slash is followed by one. -/
theorem join_eq_markerPath {p marker : Path} (hp : p.isEmpty = false)
    (hslash : p.endsInSlash = false) (hmarker : marker.isAbsolute = false) :
    p.join marker = markerPath p marker := by
  simp [Path.join, markerPath, hp, hslash, hmarker]

theorem classify_congr_marker {fs' : FileSystem} {valid : IdSet} {marker : Path} {repo : FoundRepo}
    (h : valid.contains repo.id = true →
      hasMarker fs' marker repo.path = hasMarker fs marker repo.path) :
    classify fs' valid marker repo = classify fs valid marker repo := by
  rw [classify, classify]
  split
  case isTrue hkey => rw [h hkey]
  case isFalse => rfl

theorem classifyAll_congr_marker {fs' : FileSystem} {valid : IdSet} {marker : Path}
    {repos : List FoundRepo}
    (h : ∀ repo ∈ repos, valid.contains repo.id = true →
      hasMarker fs' marker repo.path = hasMarker fs marker repo.path) (audited : Audited) :
    classifyAll fs' valid marker audited repos = classifyAll fs valid marker audited repos := by
  induction repos generalizing audited with
  | nil => rfl
  | cons repo rest ih =>
    obtain ⟨hrepo, hrest⟩ := List.forall_mem_cons.mp h
    simp only [classifyAll, classify_congr_marker hrepo, ih hrest]

/-- The path of a repository that a scan finds ends in a name, so a marker that is valid is looked
for below it. -/
theorem looksBelow_of_scan (hfs : fs.ProperNames) {options : AuditOptions} (hvalid : options.Valid)
    {root : Path} {repos : List FoundRepo} (hscan : (Scan.scan fs options root).result = .ok repos) :
    LooksBelow fs options.configMarker repos := by
  have hjoined : ∀ repo ∈ repos,
      repo.path.join options.configMarker = markerPath repo.path options.configMarker := by
    intro repo hrepo
    obtain ⟨ns, name, hdiscovers, rfl⟩ := (Scan.mem_scan_iff hfs hscan).mp hrepo
    have hname := (hdiscovers.entryNames hfs).2
    exact join_eq_markerPath (Path.child_ne_empty _ hname) (Path.child_endsInSlash _ hname) hvalid.2
  refine ⟨hjoined, fun fs' valid hsame => ?_, fun valid audited e herror => ?_⟩
  · apply classifyAll_congr_marker
    intro repo hrepo hkey
    rw [hasMarker, hasMarker, hjoined repo hrepo, hsame repo hrepo hkey]
  · obtain ⟨done, repo, hseen, -, hmarker, -⟩ := classifyAll_events_of_error herror
    have hrepo : repo ∈ repos := hseen.subset (by simp)
    obtain ⟨cause, -, -, rfl⟩ := hasMarker_eq_error_iff.mp hmarker
    exact ⟨repo, hrepo, cause, by rw [hjoined repo hrepo]⟩

/-- A run that was asked for an audit fails before it, or carries it out under settings that came by
one of the routes, with the given marker on top if there is one. These settings are valid, and the
markers of the repositories that are found are looked up below them. -/
theorem audits_under_valid_settings [ForeignReaders] (hfs : fs.ProperNames)
    (hparse : parse words = .ok (.audit invocation)) :
    (Misconfigured fs env invocation ∧ ∃ stage e, run fs env now words =
      ⟨fs, invocation.style, opening fs env invocation, .failed stage e⟩) ∨
    ∃ loaded settings, Route fs env invocation.config loaded ∧
      withMarker loaded invocation.marker = .ok settings ∧
      run fs env now words =
        auditWith fs now invocation settings (opening fs env invocation) ∧
      settings.validate = .ok () ∧
      ∀ repos, (Scan.scan fs settings.audit invocation.root).result = .ok repos →
        LooksBelow fs settings.audit.configMarker repos := by
  rw [run, hparse]
  cases hsettings : settingsOf fs env invocation with
  | error e =>
    obtain ⟨stage, hperform⟩ := perform_of_settings_error now hsettings
    exact .inl ⟨settingsOf_eq_error_iff.mp ⟨e, hsettings⟩, stage, e, hperform⟩
  | ok settings =>
    obtain ⟨loaded, hroute, hmarker⟩ := settingsOf_eq_ok_iff.mp hsettings
    have hvalid := valid_of_settingsOf hsettings
    exact .inr ⟨loaded, settings, hroute, hmarker, perform_of_settings hsettings,
      settings.validate_eq_ok_iff.mpr hvalid,
      fun repos hscan => looksBelow_of_scan hfs hvalid hscan⟩

/-- A root with one repository, beside a default file of settings that is not well-formed. -/
def brokenShelf : FileSystem :=
  .ofFixtures []
    [.file (.ofString "config/default.toml") (Text.toBytes "[audit\n"),
      .file (.ofString "ids") (Text.toBytes "acme/widgets\n"),
      .directory (.ofString "sync/acme/widgets")]

/-- A file of settings that is not there, and a marker. -/
def brokenWords : List Word :=
  ["ids", "sync", "-c", "audit.toml", "--marker", "on"].map Text.toBytes

def brokenInvocation : Invocation where
  ids := .ofString "ids"
  root := .ofString "sync"
  config := .ofString "audit.toml"
  color := true
  verbose := false
  json := none
  progress := false
  marker := some (.ofString "on")

theorem brokenShelf_settled :
    settingsOf brokenShelf ⟨[]⟩ brokenInvocation =
      .ok ⟨⟨.ofString "on", true, false, true⟩, .default⟩ := by
  have hstat : brokenShelf.stat brokenInvocation.config = .error (.os .noEntry) := by
    decide +kernel
  have hread : Settings.readSource brokenShelf Settings.defaultFile =
      .ok ⟨"config/default.toml", .toml, "[audit\n"⟩ := by decide +kernel
  have hsyntax : Toml.parse "[audit\n" = none := Option.isNone_iff_eq_none.mp (by decide +kernel)
  have hfile : Settings.fileLayer brokenShelf none = .error .tomlSyntax := by
    rw [Settings.fileLayer, hread]
    simp only [Settings.Source.members, hsyntax]
  have hload : Settings.load brokenShelf ⟨[]⟩ none = .error (.config .tomlSyntax) := by
    rw [Settings.load, hfile]
    rfl
  exact settingsOf_eq_ok_iff.mpr ⟨.default, .builtIn hstat hload, by decide +kernel⟩

/-- The defaults stand in for the broken file, and the marker is looked for below the repository. -/
theorem brokenShelf_valid_settings :
    brokenShelf.ProperNames ∧ parse brokenWords = .ok (.audit brokenInvocation) ∧
      ∃ settings : Settings, settings.audit.configMarker = .ofString "on" ∧
        run brokenShelf ⟨[]⟩ .epoch brokenWords = auditWith brokenShelf .epoch brokenInvocation
          settings (opening brokenShelf ⟨[]⟩ brokenInvocation) ∧
        settings.validate = .ok () ∧
        LooksBelow brokenShelf (.ofString "on")
          [⟨⟨"acme", "widgets"⟩, .ofString "sync/acme/widgets"⟩] := by
  have hfs : brokenShelf.ProperNames := FileSystem.properNames_ofFixtures (by decide) _
  have hparse : parse brokenWords = .ok (.audit brokenInvocation) := by decide +kernel
  refine ⟨hfs, hparse, ?_⟩
  have hroutes := @audits_under_valid_settings brokenShelf ⟨[]⟩ .epoch brokenWords brokenInvocation
    refusingReaders hfs hparse
  rcases hroutes with ⟨hmis, -⟩ | ⟨loaded, settings, hroute, hmarker, hrun, hvalid, hlooks⟩
  · obtain ⟨e, he⟩ := settingsOf_eq_error_iff.mpr hmis
    cases brokenShelf_settled.symm.trans he
  · have hsettled := settingsOf_eq_ok_iff.mpr ⟨loaded, hroute, hmarker⟩
    obtain rfl := Except.ok.inj (brokenShelf_settled.symm.trans hsettled)
    exact ⟨_, rfl, hrun, hvalid, hlooks _ (by decide +kernel)⟩

end CommandLine
end SyncAudit
