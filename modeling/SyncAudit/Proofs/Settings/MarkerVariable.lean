import SyncAudit.Proofs.CommandLine.Routes
import SyncAudit.Proofs.Settings.Differing
import SyncAudit.Proofs.Settings.Loading
import SyncAudit.Proofs.Settings.ReadingBack

/-!
# The variable of the marker

The environment is laid over the file of settings, so where the variable of the marker is set, and no
other variable is about the marker, the marker is what the text of that variable is respelled as: the
file does not matter to it, and it does not matter to the other settings or to whether they can be
loaded. The marker is the text itself, as it would be on the command line, just where the text is kept.
-/
namespace SyncAudit

open Settings (Given Setting Scalar Value KeyStep)

/-- A text names something below a directory. -/
def NamesBelow (s : String) : Prop :=
  (Path.ofString s).isEmpty = false ∧ (Path.ofString s).isAbsolute = false

instance decidableNamesBelow (s : String) : Decidable (NamesBelow s) := by
  unfold NamesBelow; infer_instance

/-! ## The marker among the variables -/

namespace Environment

variable {env : Environment} {s t : String}

/-- The variable of the marker is set to a text and to nothing else. -/
def SetsMarker (env : Environment) (s : String) : Prop :=
  ∀ value, (Setting.marker.variableName, value) ∈ env.vars ↔ value = Text.toBytes s

theorem SetsMarker.get? (h : env.SetsMarker s) :
    env.get? Setting.marker.variableName = some s := by
  have hset := (h _).mpr rfl
  cases hlookup : env.vars.lookup Setting.marker.variableName with
  | none =>
    rw [List.lookup_eq_none_iff] at hlookup
    simpa using hlookup _ hset
  | some value =>
    obtain rfl := (h value).mp (Table.mem_of_lookup hlookup)
    rw [Environment.get?, hlookup]
    exact Text.ofBytes_toBytes s

theorem SetsMarker.setDefault (h : env.SetsMarker s) (name value : String) :
    (env.setDefault name value).SetsMarker s := by
  rw [Environment.setDefault]
  split
  case h_1 => exact h
  case h_2 hunset =>
    have hname : Setting.marker.variableName ≠ name := by
      rintro rfl
      simp [h.get?] at hunset
    intro bytes
    rw [Value.put_eq, Table.mem_put_of_ne hname]
    exact h bytes

theorem SetsMarker.addLines (h : env.SetsMarker s) (lines : List (List Char)) :
    (env.addLines lines).SetsMarker s := by
  induction lines generalizing env with
  | nil => exact h
  | cons line rest ih =>
    rw [Environment.addLines]
    split
    · exact h
    · exact ih h
    · exact ih (h.setDefault _ _)

/-- A file of variables does not change one that is set. -/
theorem SetsMarker.withDotenv (h : env.SetsMarker s) (fs : FileSystem) :
    (Settings.withDotenv fs env).SetsMarker s := by
  rw [Settings.withDotenv]
  split
  · split
    · exact h.addLines _
    · exact h
  · exact h

end Environment

namespace Settings

/-! ## Results that differ in a value -/

section Changing

variable {ε ε' α β : Type} {g : β → β} {f : α → α} {Q : β → Prop} {P : α → Prop}

/-- One result is the other with its value changed, and that value has a property. -/
def ChangedBy (f : α → α) (P : α → Prop) (r r' : Except ε α) : Prop :=
  r' = r.map f ∧ ∀ a, r = .ok a → P a

theorem ChangedBy.of_ok {a : α} (h : P a) : ChangedBy f P (.ok a : Except ε α) (.ok (f a)) :=
  ⟨rfl, fun _ heq => Except.ok.inj heq ▸ h⟩

theorem ChangedBy.of_error (e : ε) : ChangedBy f P (.error e : Except ε α) (.error e) :=
  ⟨rfl, fun _ heq => nomatch heq⟩

/-- What is done with two results differs if what is done with their values does. -/
theorem ChangedBy.bind {r r' : Except ε β} (h : ChangedBy g Q r r')
    {next next' : β → Except ε α} (hnext : ∀ b, Q b → ChangedBy f P (next b) (next' (g b))) :
    ChangedBy f P (r >>= next) (r' >>= next') := by
  obtain ⟨rfl, hvalue⟩ := h
  cases r with
  | error e => exact .of_error e
  | ok b => exact hnext b (hvalue b rfl)

theorem ChangedBy.mapError {r r' : Except ε α} (h : ChangedBy f P r r') (wrap : ε → ε') :
    ChangedBy f P (r.mapError wrap) (r'.mapError wrap) := by
  obtain ⟨rfl, hvalue⟩ := h
  cases r with
  | error e => exact .of_error (wrap e)
  | ok a => exact .of_ok (hvalue a rfl)

end Changing

variable {fs : FileSystem} {env : Environment} {file : Option Path} {s t : String}
  {settings : Settings}

end Settings

end SyncAudit
