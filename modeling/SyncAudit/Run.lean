import SyncAudit.Event

/-!
# Runs

A run is what a stage of the audit leaves behind: the events that it logged, in order, and its
result. A failed run keeps the events logged before it failed.
-/
namespace SyncAudit

structure Run (α : Type) where
  events : List Event
  result : Except AuditError α

namespace Run

/-- Logs one event. -/
def log (e : Event) : Run Unit :=
  ⟨[e], .ok ()⟩

def fail {α : Type} (e : AuditError) : Run α :=
  ⟨[], .error e⟩

def ofExcept {α : Type} (x : Except AuditError α) : Run α :=
  ⟨[], x⟩

protected def pure {α : Type} (a : α) : Run α :=
  ⟨[], .ok a⟩

/-- Goes on with the result of a run, unless it failed. -/
protected def bind {α β : Type} (x : Run α) (f : α → Run β) : Run β :=
  match x.result with
  | .ok a => ⟨x.events ++ (f a).events, (f a).result⟩
  | .error e => ⟨x.events, .error e⟩

instance : Monad Run where
  pure := Run.pure
  bind := Run.bind

@[ext] theorem ext {α : Type} {x y : Run α} (he : x.events = y.events)
    (hr : x.result = y.result) : x = y := by
  cases x; cases y; simp_all

theorem bind_eq {α β : Type} (x : Run α) (f : α → Run β) : x >>= f = Run.bind x f := rfl

theorem bind_of_ok {α β : Type} {x : Run α} {a : α} (h : x.result = .ok a) (f : α → Run β) :
    x >>= f = ⟨x.events ++ (f a).events, (f a).result⟩ := by
  rw [bind_eq, Run.bind, h]

theorem bind_of_error {α β : Type} {x : Run α} {e : AuditError} (h : x.result = .error e)
    (f : α → Run β) : x >>= f = ⟨x.events, .error e⟩ := by
  rw [bind_eq, Run.bind, h]

theorem map_id {α : Type} (x : Run α) : id <$> x = x := by
  cases h : x.result with
  | ok a => simp only [Functor.map]; ext <;> simp [Run.bind, Run.pure, h]
  | error e => simp only [Functor.map]; ext <;> simp [Run.bind, h]

theorem pure_bind {α β : Type} (a : α) (f : α → Run β) : pure a >>= f = f a := by
  exact bind_of_ok rfl f

theorem bind_assoc {α β γ : Type} (x : Run α) (f : α → Run β) (g : β → Run γ) :
    x >>= f >>= g = x >>= fun a => f a >>= g := by
  cases hx : x.result with
  | error e => rw [bind_of_error hx, bind_of_error hx, bind_of_error rfl]
  | ok a =>
    rw [bind_of_ok hx, bind_of_ok hx]
    cases hf : (f a).result with
    | error e => rw [bind_of_error hf]; exact bind_of_error (by simp) g
    | ok b =>
      rw [bind_of_ok hf, bind_of_ok (a := b) rfl]
      simp

instance : LawfulMonad Run :=
  LawfulMonad.mk' Run map_id pure_bind bind_assoc

end Run
end SyncAudit
