import SyncAudit.Settings.Load

/-!
# What loading comes to

Settings are loaded where the file can be read as a layer, the layers together have values of the
right kinds, and the marker that comes of them names something below a directory. The environment
is taken with the variables of the nearest file of variables above the current directory.
-/
namespace SyncAudit.Settings

variable {fs : FileSystem} {env : Environment} {file : Option Path} {layer above : Value.Members}
  {settings : Settings}

theorem default_valid : Settings.default.audit.Valid := by
  decide

theorem ofLayers_eq_ok_iff : ofLayers layer above = .ok settings ↔
    Settings.ofMembers (Value.setAll above (Value.setAll layer (.table none []))).members =
      .ok settings ∧ settings.audit.Valid := by
  rw [ofLayers]
  generalize Settings.ofMembers _ = read
  cases read with
  | error e => simp [bind, Except.bind]
  | ok found =>
    have hvalid := Settings.validate_eq_ok_iff found
    simp only [bind, Except.bind]
    cases hcheck : found.validate with
    | error e =>
      rw [hcheck] at hvalid
      simp only [reduceCtorEq, false_iff, Except.ok.injEq] at hvalid ⊢
      rintro ⟨rfl, hsettings⟩
      exact hvalid hsettings
    | ok =>
      have hfound := hvalid.mp hcheck
      simp only [Except.ok.injEq]
      exact ⟨fun h => ⟨h, h ▸ hfound⟩, And.left⟩

theorem load_eq_ok_iff [ForeignReaders] : load fs env file = .ok settings ↔
    ∃ layer above, fileLayer fs file = .ok layer ∧ (withDotenv fs env).layer = .ok above ∧
      ofLayers layer above = .ok settings := by
  rw [load]
  cases fileLayer fs file with
  | error e => exact iff_of_false nofun fun ⟨_, _, h, _⟩ => nomatch h
  | ok layer =>
    cases (withDotenv fs env).layer with
    | error e => exact iff_of_false nofun fun ⟨_, _, _, h, _⟩ => nomatch h
    | ok above =>
      simp only [bind, Except.bind, Except.ok.injEq, exists_and_left, exists_eq_left']
      cases ofLayers layer above with
      | error e => exact iff_of_false nofun nofun
      | ok found => exact ⟨fun h => Except.ok.inj h ▸ rfl, fun h => Except.ok.inj h ▸ rfl⟩

/-- What is loaded has been validated. -/
theorem valid_of_load [ForeignReaders] (h : load fs env file = .ok settings) :
    settings.audit.Valid := by
  obtain ⟨layer, above, -, -, hlayers⟩ := load_eq_ok_iff.mp h
  exact (ofLayers_eq_ok_iff.mp hlayers).2

/-! ## The file of variables -/

/-- A directory that the search for the file goes past: there is nothing under its name, or
something that is no file. -/
def PassedOver (fs : FileSystem) (dir : Location) : Prop :=
  fs.stat ((FileSystem.pathTo dir).child dotenvName) = .error (.os .noEntry) ∨
    ∃ node, fs.stat ((FileSystem.pathTo dir).child dotenvName) = .ok node ∧ node.isFile = false

/-- The file that is found stands in the first directory that is not passed over. -/
theorem findDotenv_eq_some_iff {dirs : List Location} {p : Path} :
    findDotenv fs dirs = some p ↔ ∃ nearer dir farther access content,
      dirs = nearer ++ dir :: farther ∧ (∀ d ∈ nearer, PassedOver fs d) ∧
      p = (FileSystem.pathTo dir).child dotenvName ∧ fs.stat p = .ok (.file access content) := by
  induction dirs generalizing p with
  | nil => simp [findDotenv]
  | cons first rest ih =>
    have hpassed (h : PassedOver fs first) : findDotenv fs (first :: rest) = findDotenv fs rest := by
      rcases h with h | ⟨node, h, hnode⟩
      · simp only [findDotenv, h]
      · cases node with
        | file => simp [Node.isFile] at hnode
        | _ => simp only [findDotenv, h]
    constructor
    · intro h
      by_cases hfirst : PassedOver fs first
      · rw [hpassed hfirst] at h
        obtain ⟨nearer, dir, farther, access, content, rfl, hnearer, hp, hstat⟩ := ih.mp h
        exact ⟨first :: nearer, dir, farther, access, content, rfl,
          List.forall_mem_cons.mpr ⟨hfirst, hnearer⟩, hp, hstat⟩
      · rw [findDotenv] at h
        split at h
        case h_1 access content hstat =>
          obtain rfl := Option.some.inj h
          exact ⟨[], first, rest, access, content, rfl, by simp, rfl, hstat⟩
        case h_2 node hnofile hstat =>
          refine absurd (.inr ⟨node, hstat, ?_⟩) hfirst
          cases node with
          | file access content => exact absurd rfl (hnofile access content)
          | _ => rfl
        case h_3 hstat => exact absurd (.inl hstat) hfirst
        case h_4 => simp at h
    · rintro ⟨nearer, dir, farther, access, content, hdirs, hnearer, rfl, hstat⟩
      cases nearer with
      | nil =>
        obtain ⟨rfl, rfl⟩ := List.cons.inj hdirs
        simp only [findDotenv, hstat]
      | cons d nearer =>
        obtain ⟨rfl, rfl⟩ := List.cons.inj hdirs
        obtain ⟨hfirst, hnearer⟩ := List.forall_mem_cons.mp hnearer
        rw [hpassed hfirst]
        exact ih.mpr ⟨nearer, dir, farther, access, content, rfl, hnearer, rfl, hstat⟩

/-- Where no file of variables is found, the environment stays as it is. -/
theorem withDotenv_of_not_found
    (h : findDotenv fs (FileSystem.ancestry fs.here).reverse = none) : withDotenv fs env = env := by
  rw [withDotenv, h]

/-- A default file that cannot be read gives nothing. -/
theorem fileLayer_of_unread [ForeignReaders] {e : SettingsError}
    (h : readSource fs defaultFile = .error e) : fileLayer fs none = .ok [] := by
  rw [fileLayer, h]

/-- Where there is nothing to load from, the settings are the defaults. -/
theorem load_of_nothing [ForeignReaders] {e : SettingsError}
    (hdotenv : findDotenv fs (FileSystem.ancestry fs.here).reverse = none)
    (hread : readSource fs defaultFile = .error e) : load fs ⟨[]⟩ none = .ok .default := by
  refine load_eq_ok_iff.mpr ⟨[], [], fileLayer_of_unread hread, ?_, rfl⟩
  rw [withDotenv_of_not_found hdotenv]
  rfl

end SyncAudit.Settings
