import AccessGate.Poller
import AccessGate.Proofs.Breaker.Admission
import Mathlib.Data.List.Basic
import Mathlib.Data.List.Induction

/-!
# What a poll comes to

A check asks a service exactly if its breaker does not show as open, and reports it as reachable
exactly if the service was asked and answered in time that it is well (`Poller.tells_check`). A poll
of all services has one check for each (`Poller.map_name_checks`), and the breaker of a service is
afterwards the one that its own check left (`Poller.get?_foldl_put`).
-/

namespace AccessGate

/-- Working on a result takes no time. -/
theorem RemoteCall.endsWithin_andThen {α β : Type} (c : RemoteCall α)
    (f : Except Error α → Except Error β) (limit : Duration) :
    (c.andThen f).endsWithin limit = c.endsWithin limit := by
  obtain ⟨delay, ending⟩ := c
  cases ending <;> rfl

/-- A service is reachable exactly if nothing went wrong. -/
theorem ServiceStatus.isReachable_of_iff (name : String) (result : Except Error Unit)
    (phase : Breaker.Phase) :
    (ServiceStatus.of name result phase).isReachable = true ↔
      (ServiceStatus.of name result phase).error = none := by
  cases result <;> simp [ServiceStatus.of, Except.isOk, Except.toBool]

namespace Poller

variable {p q : Poller} {name : String} {b : Breaker} {now : Instant} {probes : Probes}

/-! ## One check -/

/-- A call of a probe that answers before a limit that the service is well. -/
def AnswersWell (call : RemoteCall Finding) (limit : Duration) : Prop :=
  call.endsWithin limit = true ∧ call.ending = .returns (.ok (.ok ()))

/-- The call of a check succeeds exactly if the probe answers in time that the service is well. -/
theorem isOk_outcome_iff (p : Poller) (name : String) (call : RemoteCall Finding) :
    (p.invoker.outcome (checkCall name call)).isOk = true ↔ AnswersWell call p.limit := by
  obtain ⟨delay, ending⟩ := call
  rw [Invoker.outcome, checkCall, RemoteCall.endsWithin_andThen, AnswersWell]
  cases hin : RemoteCall.endsWithin ⟨delay, ending⟩ p.limit with
  | false => simp [invoker, hin, Except.isOk, Except.toBool]
  | true =>
    cases ending with
    | hangs => cases hin
    | breaksDown text => simp [invoker, hin, RemoteCall.andThen, Except.isOk, Except.toBool]
    | returns result =>
      cases result with
      | error e => simp [invoker, hin, RemoteCall.andThen, Except.bind, Except.isOk, Except.toBool]
      | ok finding =>
        cases finding <;>
          simp [invoker, hin, RemoteCall.andThen, Except.bind, Except.mapError, Except.isOk,
            Except.toBool]

/-- A check looks at nothing of the poller but the limit. -/
theorem check_congr (h : p.limit = q.limit) (name : String) (b : Breaker)
    (call : RemoteCall Finding) (now : Instant) (cutoff : Option Instant) :
    p.check name b call now cutoff = q.check name b call now cutoff := by
  have hinvoker : p.invoker = q.invoker := by rw [invoker, invoker, h]
  rw [check, check, hinvoker]

@[simp] theorem name_check (p : Poller) (name : String) (b : Breaker) (call : RemoteCall Finding)
    (now : Instant) (cutoff : Option Instant) : (p.check name b call now cutoff).name = name := by
  unfold check
  split <;> rfl

@[simp] theorem name_status_check (p : Poller) (name : String) (b : Breaker)
    (call : RemoteCall Finding) (now : Instant) (cutoff : Option Instant) :
    (p.check name b call now cutoff).status.name = name := by
  unfold check
  split <;> rfl

/-- What the status of a service says, by its breaker before the check and the call of its probe. -/
structure Tells (limit : Duration) (b : Breaker) (call : RemoteCall Finding) (now : Instant)
    (status : ServiceStatus) : Prop where
  error : status.isReachable = true ↔ status.error = none
  well : status.isReachable = true ↔ (b.request now).1.isOk = true ∧ AnswersWell call limit
  refused : b.shown now = .opened →
    status.phase = .opened ∧ status.error = some (Error.circuitOpen b.settings.name).message

/-- A check tells what it should. -/
theorem tells_check (p : Poller) (name : String) (b : Breaker) (call : RemoteCall Finding)
    (now : Instant) (cutoff : Option Instant) :
    Tells p.limit b call now (p.check name b call now cutoff).status := by
  by_cases hshown : b.shown now = .opened
  · have hrequest := Breaker.request_of_shown hshown
    have hphase : ({ b with rejected := b.rejected + 1 } : Breaker).shown now = .opened := hshown
    have hstatus : (p.check name b call now cutoff).status =
        .of name (.error (.circuitOpen b.settings.name)) .opened := by
      rw [check, hrequest, ← hphase]
    rw [hstatus]
    refine ⟨ServiceStatus.isReachable_of_iff _ _ _, ?_, fun _ => ⟨rfl, rfl⟩⟩
    simp [ServiceStatus.of, hrequest, Except.isOk, Except.toBool]
  · obtain ⟨generation, state, hrequest⟩ := Breaker.exists_request_of_not_shown hshown
    obtain ⟨phase, hstatus⟩ : ∃ phase, (p.check name b call now cutoff).status =
        .of name (p.invoker.outcome (checkCall name call)) phase := by
      rw [check, hrequest]
      exact ⟨_, rfl⟩
    rw [hstatus]
    refine ⟨ServiceStatus.isReachable_of_iff _ _ _, ?_, fun h => absurd h hshown⟩
    rw [← isOk_outcome_iff p name, hrequest]
    exact ⟨fun h => ⟨rfl, h⟩, fun h => h.2⟩

/-- A check asks the service exactly if the breaker counts a call. -/
theorem total_check (p : Poller) (name : String) (b : Breaker) (call : RemoteCall Finding)
    (now : Instant) :
    (p.check name b call now none).breaker.total =
      if (b.request now).1.isOk then b.total + 1 else b.total := by
  by_cases hshown : b.shown now = .opened
  · have hrequest := Breaker.request_of_shown hshown
    simp [check, hrequest, Except.isOk, Except.toBool]
  · obtain ⟨generation, state, hrequest⟩ := Breaker.exists_request_of_not_shown hshown
    simp [check, hrequest, Except.isOk, Except.toBool]

/-! ## All checks of a poll -/

/-- The names of the services are the keys. -/
theorem mem_names : name ∈ p.names ↔ (p.services.get? name).isSome = true :=
  Text.mem_sortedSet.trans (Table.mem_keys_iff _)

/-- No service is named twice. -/
theorem nodup_names (p : Poller) : p.names.Nodup := Text.nodup_sortedSet _

/-- The checks of a poll are one for each service, by name. -/
theorem map_name_checks (p : Poller) (probes : Probes) (now : Instant) (cutoff : Option Instant) :
    (p.checks probes now cutoff).map (fun c => c.status.name) = p.names := by
  rw [checks, List.map_filterMap]
  refine (List.filterMap_congr ?_).trans List.filterMap_some
  intro name hname
  obtain ⟨b, hb⟩ := Option.isSome_iff_exists.1 (mem_names.1 hname)
  simp [hb]

/-- There is a check for every service, and no other. -/
theorem mem_checks {c : Check} {cutoff : Option Instant} :
    c ∈ p.checks probes now cutoff ↔
      ∃ name b, p.services.get? name = some b ∧ c = p.check name b (probes name) now cutoff := by
  rw [checks, List.mem_filterMap]
  constructor
  · rintro ⟨name, -, h⟩
    obtain ⟨b, hb, rfl⟩ := Option.map_eq_some_iff.1 h
    exact ⟨name, b, hb, rfl⟩
  · rintro ⟨name, b, hb, rfl⟩
    exact ⟨name, mem_names.2 (by rw [hb]; rfl), by rw [hb]; rfl⟩

/-- The statuses of a poll come strictly by name. -/
theorem pairwise_checks (p : Poller) (probes : Probes) (now : Instant) (cutoff : Option Instant) :
    ((p.checks probes now cutoff).map Check.status).Pairwise fun s t => s.name < t.name := by
  have hsorted := Text.sortedSet_pairwise p.services.keys
  rw [← names, ← map_name_checks p probes now cutoff, List.pairwise_map] at hsorted
  exact List.pairwise_map.2 hsorted

/-- A poll has one status for a name. -/
theorem eq_of_name_eq {cutoff : Option Instant} {s t : ServiceStatus}
    (hs : s ∈ (p.checks probes now cutoff).map Check.status)
    (ht : t ∈ (p.checks probes now cutoff).map Check.status) (h : s.name = t.name) : s = t := by
  obtain ⟨c, hc, rfl⟩ := List.mem_map.1 hs
  obtain ⟨c', hc', rfl⟩ := List.mem_map.1 ht
  obtain ⟨name, b, hb, rfl⟩ := mem_checks.1 hc
  obtain ⟨name', b', hb', rfl⟩ := mem_checks.1 hc'
  rw [name_status_check, name_status_check] at h
  subst h
  rw [hb] at hb'
  cases hb'
  rfl

/-- The one status of a poll that names a service is that of its check. -/
theorem filter_name_checks (p : Poller) (probes : Probes) (now : Instant) (cutoff : Option Instant)
    (name : String) :
    ((p.checks probes now cutoff).map Check.status).filter (·.name = name) =
      ((p.services.get? name).map fun b =>
        (p.check name b (probes name) now cutoff).status).toList := by
  have hname : ∀ n, ((p.services.get? n).map fun b =>
        (p.check n b (probes n) now cutoff).status).filter (·.name = name) =
      if decide (n = name) = true then
        (p.services.get? name).map fun b => (p.check name b (probes name) now cutoff).status
      else none := by
    intro n
    by_cases h : n = name
    · subst h
      cases p.services.get? n <;> simp
    · cases p.services.get? n <;> simp [h]
  rw [checks, List.map_filterMap, List.filter_filterMap]
  simp only [Option.map_map, Function.comp_def, hname]
  rw [← List.filterMap_filter, List.filter_eq, p.nodup_names.count]
  cases hb : p.services.get? name with
  | none => simp
  | some b => simp [mem_names, hb]

/-- Where the checks of a service all leave it the same breaker, that is its breaker afterwards. -/
theorem get?_foldl_put_of_forall {cs : List Check} {left : Option Breaker}
    (h : ∀ c ∈ cs, c.name = name → some c.breaker = left) (p : Poller) :
    (cs.foldl put p).services.get? name =
      if name ∈ cs.map Check.name then left else p.services.get? name := by
  induction cs using List.reverseRecOn with
  | nil => rfl
  | append_singleton cs c ih =>
    have ih := ih fun c hc => h c (List.mem_append_left _ hc)
    rw [List.foldl_append, List.foldl_cons, List.foldl_nil, put, Table.get?_insert, ih,
      List.map_append, List.map_singleton]
    by_cases hname : name = c.name
    · rw [if_pos hname, if_pos (by simp [hname]),
        h c (List.mem_append_right _ (List.mem_singleton_self c)) hname.symm]
    · simp [hname]

/-- What a poll does to the breakers: each is as its own check left it. -/
theorem get?_foldl_put (p : Poller) (probes : Probes) (now : Instant) (cutoff : Option Instant)
    (name : String) :
    ((p.checks probes now cutoff).foldl put p).services.get? name =
      (p.services.get? name).map fun b => (p.check name b (probes name) now cutoff).breaker := by
  have hleft : ∀ c ∈ p.checks probes now cutoff, c.name = name → some c.breaker =
      (p.services.get? name).map fun b => (p.check name b (probes name) now cutoff).breaker := by
    intro c hc hname
    obtain ⟨n, b, hb, rfl⟩ := mem_checks.1 hc
    rw [name_check] at hname
    subst hname
    rw [hb]
    rfl
  rw [get?_foldl_put_of_forall hleft]
  split
  · rfl
  · next hnone =>
    cases hb : p.services.get? name with
    | none => rfl
    | some b =>
      exact absurd (List.mem_map.2 ⟨_, mem_checks.2 ⟨name, b, hb, rfl⟩, name_check ..⟩) hnone

/-- A poll changes nothing of the poller but the breakers. -/
theorem foldl_put_eq (cs : List Check) (p : Poller) :
    cs.foldl put p = { p with services := (cs.foldl put p).services } := by
  induction cs generalizing p with
  | nil => rfl
  | cons c cs ih => rw [List.foldl_cons, ih]; rfl

/-- A poll registers no service and drops none. -/
theorem keys_foldl_put {cs : List Check}
    (h : ∀ c ∈ cs, (p.services.get? c.name).isSome = true) :
    (cs.foldl put p).services.keys = p.services.keys := by
  induction cs generalizing p with
  | nil => rfl
  | cons c cs ih =>
    obtain ⟨b, hb⟩ := Option.isSome_iff_exists.1 (h c List.mem_cons_self)
    rw [List.foldl_cons, ih, put, Table.keys_insert_of_get? hb]
    intro c' hc'
    rw [put, Table.get?_insert]
    split
    · rfl
    · exact h c' (List.mem_cons_of_mem _ hc')

end Poller

end AccessGate
