import Mathlib.Logic.Relation
import SyncAudit.Proofs.CommandLine.Outcome
import SyncAudit.Proofs.FileSystem.Making

/-!
# What writing a report touches

The step that writes a report makes the directories above the output file and puts the text into it.
Whether it ends well or not, it removes nothing, makes no other directory and changes no other file;
if it fails, every file is as it was. If it ends well, the text is in the file and the step can be
repeated to no effect.

The text can be read back unless the file was there before and may be written but not read: its
permissions are kept, and writing does not ask for more.
-/
namespace SyncAudit

/-- A path comes of another by leaving out last names, one at least. -/
def Path.IsAbove (q p : Path) : Prop :=
  Relation.TransGen (fun lower upper : Path => lower.parent? = some upper) p q

namespace CommandLine

open FileSystem (MadeAlong Written)

variable {fs fs' made : FileSystem} {pretty : Bool} {report : Report} {output : Path}

/-- What has come to be different is the file that `output` leads to, or a new directory above. -/
structure TouchesOnly (output : Path) (fs fs' : FileSystem) : Prop where
  here : fs'.here = fs.here
  kept : ∀ loc node, fs.node? loc = some node → fs'.node? loc = some node ∨
    ∃ access old content, node = .file access old ∧
      fs'.locate .follow output = .ok (loc, .file access content)
  new : ∀ loc node, fs.node? loc = none → fs'.node? loc = some node →
    (node.isFile = true ∧ fs'.locate .follow output = .ok (loc, node)) ∨
      (node.isDirectory = true ∧ ∃ q : Path, q.IsAbove output ∧
        fs'.locate .follow q = .ok (loc, node))

/-- The same files stand in both, with the same access and content. -/
def SameFiles (fs fs' : FileSystem) : Prop :=
  ∀ loc access content,
    fs.node? loc = some (.file access content) ↔ fs'.node? loc = some (.file access content)

/-- A path leads to a file with the given content, which can be read unless the file was there
already and may not be read. -/
structure ReadsBack (fs : FileSystem) (output : Path) (content : List UInt8) (fs' : FileSystem)
    (loc : Location) (access : Access) : Prop where
  leads : fs'.locate .follow output = .ok (loc, .file access content)
  read : fs'.read output = if access.read then .ok content else .error (.os .accessDenied)
  barred : access.read = false → ∃ old, fs.node? loc = some (.file access old)

/-- What the step that writes a report owes. -/
structure Delivers (fs : FileSystem) (pretty : Bool) (report : Report) (output : Path)
    (out : FileSystem × List Shown × Ending) : Prop where
  touches : TouchesOnly output fs out.1
  decided : out.2.2 = .success ∨ ∃ stage e, out.2.2 = .failed stage e ∧
    (e.kind = .serialization ∨ ∃ p, e.kind = .fileOperation p)
  failed : ∀ stage e, out.2.2 = .failed stage e → SameFiles fs out.1
  written : out.2.2 = .success → ∃ text loc access, report.render pretty = .ok text ∧
    ReadsBack fs output (Text.toBytes text) out.1 loc access
  again : out.2.2 = .success → exportTo out.1 pretty report output = out

/-! ## The directories above the file -/

theorem madeAlong_prepareOutput (fs : FileSystem) (output : Path) :
    MadeAlong (Path.IsAbove · output) fs (Report.prepareOutput fs output).1 := by
  rcases prepareOutput_cases output with hnothing | ⟨parent, hparent, -, hprepare⟩
  · rw [hnothing]
    exact .refl _ fs
  · rw [hprepare]
    have habove : parent.IsAbove output := Relation.TransGen.single hparent
    exact FileSystem.madeAlong_makeDirectories (Q := (Path.IsAbove · output)) habove
      (fun hq hup => hq.tail hup) fs

/-- The directories that have been made are not made again. -/
theorem prepareOutput_again (h : Report.prepareOutput fs output = (made, .ok ()))
    (hgrows : made.Grows fs') : Report.prepareOutput fs' output = (fs', .ok ()) := by
  rcases prepareOutput_cases output with hnothing | ⟨parent, -, hempty, hprepare⟩
  · exact hnothing fs'
  · rw [hprepare] at h ⊢
    obtain ⟨hfs, hok⟩ := Prod.mk.inj h
    have hmade : fs.makeDirectories parent = (made, .ok ()) := by
      refine Prod.ext hfs ?_
      cases hresult : (fs.makeDirectories parent).2 with
      | ok => rfl
      | error e => simp [hresult, Except.mapError] at hok
    have hthere := FileSystem.isDirectory_of_makeDirectories hempty hmade
    obtain ⟨loc, access, hlead⟩ := FileSystem.isDirectory_eq_true_iff.mp hthere
    have hstill : fs'.isDirectory parent = true :=
      FileSystem.isDirectory_eq_true_iff.mpr ⟨loc, access, hgrows.locate_directory hlead⟩
    rw [FileSystem.makeDirectories_of_isDirectory hstill]
    rfl

theorem sameFiles_of_madeAlong {Q : Path → Prop} (h : MadeAlong Q fs fs') : SameFiles fs fs' := by
  intro loc access content
  constructor
  · exact h.kept
  · intro hfile
    cases hold : fs.node? loc with
    | some old => rw [← hfile, h.kept hold]
    | none =>
      obtain ⟨_, _, -, hdir, -⟩ := h.new hold hfile
      cases hdir

theorem touchesOnly_of_madeAlong (h : MadeAlong (Path.IsAbove · output) fs fs') :
    TouchesOnly output fs fs' where
  here := h.here
  kept _ _ hold := .inl (h.kept hold)
  new _ _ hfree hnew := by
    obtain ⟨q, access, hq, rfl, hlead⟩ := h.new hfree hnew
    exact .inr ⟨rfl, q, hq, hlead⟩

/-! ## The file -/

theorem touchesOnly_of_written (h : MadeAlong (Path.IsAbove · output) fs made)
    {content : List UInt8} {place : Location} {access : Access}
    (hwritten : Written made output content fs' place access) : TouchesOnly output fs fs' := by
  refine ⟨hwritten.grows.here.trans h.here, fun loc node hold => ?kept,
    fun loc node hfree hnew => ?new⟩
  case kept =>
    have hmade : made.node? loc = some node := h.kept hold
    by_cases hloc : loc = place
    · subst hloc
      rcases hwritten.before with ⟨hnone, -⟩ | ⟨old, hfile⟩
      · simp [hnone] at hmade
      · obtain rfl := Option.some.inj (hfile.symm.trans hmade)
        exact .inr ⟨access, old, content, rfl, hwritten.leads⟩
    · exact .inl (by rw [hwritten.elsewhere loc hloc, hmade])
  case new =>
    by_cases hloc : loc = place
    · subst hloc
      have hthere : fs'.node? loc = some (.file access content) :=
        FileSystem.lookup_isPlace (FileSystem.locate_eq_ok_iff.mp hwritten.leads)
      obtain rfl := Option.some.inj (hthere.symm.trans hnew)
      exact .inl ⟨rfl, hwritten.leads⟩
    · rw [hwritten.elsewhere loc hloc] at hnew
      obtain ⟨q, dirAccess, hq, rfl, hlead⟩ := h.new hfree hnew
      exact .inr ⟨rfl, q, hq, hwritten.grows.locate_directory hlead⟩

theorem readsBack_of_written {Q : Path → Prop} (h : MadeAlong Q fs made) {content : List UInt8}
    {place : Location} {access : Access}
    (hwritten : Written made output content fs' place access) :
    ReadsBack fs output content fs' place access where
  leads := hwritten.leads
  read := FileSystem.read_of_file hwritten.leads
  barred hread := by
    rcases hwritten.before with ⟨-, rfl⟩ | ⟨old, hfile⟩
    · cases hread
    · exact ⟨old, (sameFiles_of_madeAlong h place access old).mpr hfile⟩

/-- A report is written to its file and nowhere else, or the step fails and leaves every file as it
is. -/
theorem exportTo_delivers (fs : FileSystem) (pretty : Bool) (report : Report) (output : Path) :
    Delivers fs pretty report output (exportTo fs pretty report output) := by
  have hprepared := madeAlong_prepareOutput fs output
  rcases exports_or_fails fs pretty report output with
    ⟨written, hexports⟩ | ⟨stage, e, hfs, hfailed, hkind⟩
  · rw [exportTo_of_exports hexports]
    obtain ⟨hprepare, htext, hwrite⟩ := hexports
    rw [hprepare] at hprepared
    obtain ⟨loc, access, hwritten⟩ := FileSystem.written_of_write hwrite
    refine ⟨touchesOnly_of_written hprepared hwritten, .inl rfl, ?failed, fun _ => ?written,
      fun _ => ?again⟩
    case failed =>
      intro stage e hfailed
      cases hfailed
    case written => exact ⟨_, loc, access, htext, readsBack_of_written hprepared hwritten⟩
    case again =>
      have hagain := prepareOutput_again hprepare hwritten.grows
      exact exportTo_of_exports ⟨hagain, htext, hwritten.again⟩
  · have hnot : (exportTo fs pretty report output).2.2 ≠ .success := by simp [hfailed]
    refine ⟨?touches, .inr ⟨stage, e, hfailed, hkind⟩, fun _ _ _ => ?failed,
      fun h => absurd h hnot, fun h => absurd h hnot⟩
    case touches =>
      rw [hfs]
      exact touchesOnly_of_madeAlong hprepared
    case failed =>
      rw [hfs]
      exact sameFiles_of_madeAlong hprepared

/-- A shelf with a report that may be written and not read. -/
def sealedShelf : FileSystem :=
  .ofFixtures [] [.file (.ofString "report.json") (Text.toBytes "old"),
    .permissions (.ofString "report.json") 2]

/-- A report is written there with success, and reading it is refused. -/
theorem sealedShelf_not_readable :
    ∃ text, (Report.start 0 .epoch).render false = .ok text ∧
      (exportTo sealedShelf false (.start 0 .epoch) (.ofString "report.json")).2.2 = .success ∧
      (exportTo sealedShelf false (.start 0 .epoch) (.ofString "report.json")).1.read
        (.ofString "report.json") = .error (.os .accessDenied) :=
  ⟨_, rfl, by decide +kernel, by decide +kernel⟩

end CommandLine
end SyncAudit
