import SyncAudit.Scan.Walk

/-!
# Runs and their parts

A run that goes on after another one succeeds only if both do, and a run over a list succeeds only
if the runs for its items do. The results and the events are then those of the parts, in order.
Whether or not it succeeds, a run logs nothing that its parts do not log.
-/
namespace SyncAudit.Run

variable {α β : Type}

@[simp] theorem result_log (e : Event) : (log e).result = .ok () := rfl

@[simp] theorem events_log (e : Event) : (log e).events = [e] := rfl

@[simp] theorem result_fail (e : AuditError) : (fail e : Run α).result = .error e := rfl

@[simp] theorem events_fail (e : AuditError) : (fail e : Run α).events = [] := rfl

@[simp] theorem result_ofExcept (x : Except AuditError α) : (ofExcept x).result = x := rfl

@[simp] theorem events_ofExcept (x : Except AuditError α) : (ofExcept x).events = [] := rfl

@[simp] theorem result_pure (a : α) : (pure a : Run α).result = .ok a := rfl

@[simp] theorem events_pure (a : α) : (pure a : Run α).events = [] := rfl

theorem bind_result_eq_ok {x : Run α} {f : α → Run β} {b : β} :
    (x >>= f).result = .ok b ↔ ∃ a, x.result = .ok a ∧ (f a).result = .ok b := by
  cases hx : x.result with
  | ok a => simp [bind_of_ok hx]
  | error e => simp [bind_of_error hx]

/-- Where one run comes to what another one comes to, changed by a function, so do the runs that go
on from them, if they do from what the other one came to. -/
theorem bind_result_map {α' β' : Type} {x : Run α} {x' : Run α'} {f : α → Run β}
    {f' : α' → Run β'} (change : α → α') {change' : β → β'}
    (hx : x'.result = x.result.map change)
    (hf : ∀ a, x.result = .ok a → (f' (change a)).result = (f a).result.map change') :
    (x' >>= f').result = (x >>= f).result.map change' := by
  cases hres : x.result with
  | error e =>
    rw [hres] at hx
    rw [bind_of_error hres, bind_of_error hx]
    rfl
  | ok a =>
    rw [hres] at hx
    rw [bind_of_ok hres, bind_of_ok hx]
    exact hf a hres

theorem bind_result_map_same {β' : Type} {x : Run α} {f : α → Run β} {f' : α → Run β'}
    {change : β → β'} (hf : ∀ a, x.result = .ok a → (f' a).result = (f a).result.map change) :
    (x >>= f').result = (x >>= f).result.map change :=
  bind_result_map id (congrFun Except.map_id x.result).symm hf

@[simp] theorem log_bind_result (e : Event) (f : Unit → Run β) :
    (log e >>= f).result = (f ()).result := by
  rw [bind_of_ok (result_log e)]

@[simp] theorem log_bind_events (e : Event) (f : Unit → Run β) :
    (log e >>= f).events = e :: (f ()).events := by
  rw [bind_of_ok (result_log e), events_log, List.singleton_append]

@[simp] theorem map_log_result (f : Unit → β) (e : Event) : (f <$> log e).result = .ok (f ()) := rfl

@[simp] theorem map_log_events (f : Unit → β) (e : Event) : (f <$> log e).events = [e] := rfl

/-- The items that a run finds, none if it fails. -/
def items (x : Run (List β)) : List β :=
  match x.result with
  | .ok bs => bs
  | .error _ => []

theorem items_of_ok {x : Run (List β)} {bs : List β} (h : x.result = .ok bs) : x.items = bs := by
  rw [items, h]

variable {p : Event → Bool}

/-- Every event of a run is of a certain kind. -/
def Logs (p : Event → Bool) (x : Run α) : Prop :=
  ∀ e ∈ x.events, p e = true

theorem logs_pure (a : α) : (pure a : Run α).Logs p :=
  fun _ he => absurd he List.not_mem_nil

theorem logs_fail (e : AuditError) : (fail e : Run α).Logs p :=
  fun _ he => absurd he List.not_mem_nil

theorem Logs.bind {x : Run α} {f : α → Run β} (hx : x.Logs p) (hf : ∀ a, (f a).Logs p) :
    (x >>= f).Logs p := by
  cases h : x.result with
  | error e => rwa [Logs, bind_of_error h]
  | ok a =>
    rw [Logs, bind_of_ok h]
    exact List.forall_mem_append.mpr ⟨hx, hf a⟩

theorem logs_log_bind {e : Event} {f : Unit → Run β} (he : p e = true) (hf : (f ()).Logs p) :
    (log e >>= f).Logs p := by
  rw [Logs, log_bind_events]
  exact List.forall_mem_cons.mpr ⟨he, hf⟩

end SyncAudit.Run

namespace SyncAudit.Scan

variable {α β γ : Type}

theorem collect_cons (f : α → Run (List β)) (a : α) (rest : List α) :
    collect f (a :: rest) =
      f a >>= fun here => collect f rest >>= fun later => pure (here ++ later) := rfl

theorem collect_result {f : α → Run (List β)} {as : List α} {bs : List β} :
    (collect f as).result = .ok bs ↔
      (∀ a ∈ as, ∃ found, (f a).result = .ok found) ∧ bs = as.flatMap fun a => (f a).items := by
  induction as generalizing bs with
  | nil => simp [collect, eq_comm]
  | cons a rest ih =>
    rw [collect_cons, Run.bind_result_eq_ok]
    simp only [Run.bind_result_eq_ok, ih, Run.result_pure, Except.ok.injEq, List.forall_mem_cons,
      List.flatMap_cons]
    constructor
    · rintro ⟨here, hhere, later, ⟨hrest, rfl⟩, rfl⟩
      exact ⟨⟨⟨here, hhere⟩, hrest⟩, by rw [Run.items_of_ok hhere]⟩
    · rintro ⟨⟨⟨here, hhere⟩, hrest⟩, rfl⟩
      exact ⟨here, hhere, _, ⟨hrest, rfl⟩, by rw [Run.items_of_ok hhere]⟩

/-- The events of a run over a list in which nothing failed. -/
theorem collect_events {f : α → Run (List β)} {as : List α}
    (h : ∀ a ∈ as, ∃ found, (f a).result = .ok found) :
    (collect f as).events = as.flatMap fun a => (f a).events := by
  induction as with
  | nil => rfl
  | cons a rest ih =>
    obtain ⟨⟨here, hhere⟩, hrest⟩ := List.forall_mem_cons.mp h
    have hlater := collect_result.mpr ⟨hrest, rfl⟩
    rw [collect_cons, Run.bind_of_ok hhere, Run.bind_of_ok hlater, List.flatMap_cons, ← ih hrest]
    simp

theorem collect_logs {p : Event → Bool} {f : α → Run (List β)} (h : ∀ a, (f a).Logs p)
    (as : List α) : (collect f as).Logs p := by
  induction as with
  | nil => exact Run.logs_pure _
  | cons a rest ih => exact (h a).bind fun _ => ih.bind fun _ => Run.logs_pure _

theorem collect_singleton (f : α → Run (List β)) (a : α) : collect f [a] = f a := by
  simp [collect]

theorem collect_append (f : α → Run (List β)) (as bs : List α) :
    collect f (as ++ bs) =
      collect f as >>= fun here => collect f bs >>= fun later => pure (here ++ later) := by
  induction as with
  | nil => simp [collect]
  | cons a rest ih =>
    rw [List.cons_append, collect_cons, collect_cons, ih]
    simp only [bind_assoc, pure_bind, List.append_assoc]

theorem collect_map (f : γ → Run (List β)) (g : α → γ) (as : List α) :
    collect f (as.map g) = collect (fun a => f (g a)) as := by
  induction as with
  | nil => rfl
  | cons a rest ih => rw [List.map_cons, collect_cons, collect_cons, ih]

/-- A loop over joined lists is a loop of loops. -/
theorem collect_flatMap (f : γ → Run (List β)) (g : α → List γ) (as : List α) :
    collect f (as.flatMap g) = collect (fun a => collect f (g a)) as := by
  induction as with
  | nil => rfl
  | cons a rest ih => rw [List.flatMap_cons, collect_append, collect_cons, ih]

theorem exists_of_collect_error {f : α → Run (List β)} {as : List α} {e : AuditError}
    (h : (collect f as).result = .error e) : ∃ a ∈ as, (f a).result = .error e := by
  induction as with
  | nil => simp [collect] at h
  | cons a rest ih =>
    rw [collect_cons] at h
    cases ha : (f a).result with
    | error e' =>
      rw [Run.bind_of_error ha] at h
      exact ⟨a, List.mem_cons_self, ha.trans h⟩
    | ok here =>
      rw [Run.bind_of_ok ha] at h
      cases hrest : (collect f rest).result with
      | ok later => simp [Run.bind_of_ok hrest] at h
      | error e' =>
        rw [Run.bind_of_error hrest] at h
        obtain ⟨b, hb, hfails⟩ := ih (hrest.trans h)
        exact ⟨b, List.mem_cons_of_mem _ hb, hfails⟩

end SyncAudit.Scan
