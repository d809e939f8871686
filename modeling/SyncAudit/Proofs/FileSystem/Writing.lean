import SyncAudit.Proofs.FileSystem.Growing

/-!
# What is written can be found

Writing to a path puts a content into one file and leaves everything else as it is. The path leads
to that file afterwards, whether it was there before or is new, and writing the same again changes
nothing.
-/
namespace SyncAudit.FileSystem

variable {fs fs' : FileSystem} {p : Path} {content : List UInt8}

/-- What comes of writing to a path, where the file stands and with which access to it. -/
structure Written (fs : FileSystem) (p : Path) (content : List UInt8) (fs' : FileSystem)
    (loc : Location) (access : Access) : Prop where
  leads : fs'.locate .follow p = .ok (loc, .file access content)
  before : fs.node? loc = none ∧ access = .full ∨ ∃ old, fs.node? loc = some (.file access old)
  elsewhere : ∀ l, l ≠ loc → fs'.node? l = fs.node? l
  grows : fs.Grows fs'
  again : fs'.write p content = .ok fs'

theorem written_put {reached : Reached} {access : Access}
    (hl : fs.lookup .followToCreate p = .ok reached) (hwrite : access.write = true)
    (hbefore : fs.node? reached.place = none ∧ access = .full ∨
      ∃ old, fs.node? reached.place = some (.file access old)) :
    Written fs p content (fs.put reached.place (.file access content)) reached.place access := by
  have hthere := node_put_self fs reached.place (.file access content)
  have hgrows : fs.Grows (fs.put reached.place (.file access content)) := by
    rcases hbefore with ⟨hnone, -⟩ | ⟨old, hold⟩
    · exact grows_put_of_none hnone _
    · exact grows_put_of_file hold content
  refine ⟨?leads, hbefore, fun l hne => node_put_of_ne hne fs _, hgrows, ?again⟩
  case leads => exact hgrows.locate (.inl rfl) hl hthere (.inr ⟨rfl, rfl⟩)
  case again =>
    have hfound := hgrows.locate (.inr rfl) hl hthere (.inr ⟨rfl, rfl⟩)
    rw [write, locate_eq_ok_iff.mp hfound]
    simp only [hwrite, if_true, put_eq_self hthere]

theorem written_of_write (h : fs.write p content = .ok fs') :
    ∃ loc access, Written fs p content fs' loc access := by
  rcases write_eq_ok_iff.mp h with ⟨hl, hwrite⟩ | ⟨hl, -, -⟩
  · have hold : fs.node? _ = some _ := lookup_isPlace hl
    exact ⟨_, _, written_put hl hwrite (.inr ⟨_, hold⟩)⟩
  · obtain ⟨-, hnone, -⟩ := lookup_isPlace hl
    exact ⟨_, _, written_put hl rfl (.inl ⟨hnone, rfl⟩)⟩

/-- A path leads to a file with the given content, be that readable or not. -/
def Holds (fs : FileSystem) (p : Path) (content : List UInt8) : Prop :=
  ∃ loc access, fs.locate .follow p = .ok (loc, .file access content)

/-- A path leads to what has just been written to it. -/
theorem holds_of_write (h : fs.write p content = .ok fs') : fs'.Holds p content := by
  obtain ⟨loc, access, hwritten⟩ := written_of_write h
  exact ⟨loc, access, hwritten.leads⟩

end SyncAudit.FileSystem
