import AccessGate.Poller.Interleaving
import AccessGate.Proofs.Poller.Checks
import Mathlib.Logic.Function.Iterate

/-!
# Checks that take their steps side by side

What the check of a service looks at, and what it changes, is its breaker and how far it has come
(`Polling.view`). A step of one check leaves the view of every other alone (`Polling.view_step`), so
in a run the check of a service does exactly its own steps (`Polling.view_run`), of which four are
always enough (`iterate_step`). Hence the order of the steps, and the order in which the services
were collected, make no difference: the poll ends as the checks one by one do (`Polling.close_run`).
-/

namespace AccessGate

/-- The order of statuses is transitive. -/
theorem ServiceStatus.before_trans (s t u : ServiceStatus) (h : s.before t = true)
    (h' : t.before u = true) : s.before u = true :=
  decide_eq_true (String.le_trans (of_decide_eq_true h) (of_decide_eq_true h'))

/-- Two statuses stand in some order. -/
theorem ServiceStatus.before_total (s t : ServiceStatus) : (s.before t || t.before s) = true := by
  simp [before, String.le_total]

namespace Poller

variable {p : Poller} {probes : Probes} {now : Instant}

/-! ## One check, step by step -/

/-- Four steps take a check to its end, and more change nothing. -/
theorem iterate_step (p : Poller) (name : String) (call : RemoteCall Finding) (now : Instant)
    (b : Breaker) {n : Nat} (h : 4 ≤ n) :
    (p.step name call now)^[n] (.begun, b) =
      (.ended (p.check name b call now none).status, (p.check name b call now none).breaker) := by
  obtain ⟨n, rfl⟩ := Nat.exists_eq_add_of_le' h
  have hfour : (p.step name call now)^[4] (.begun, b) =
      (.ended (p.check name b call now none).status,
        (p.check name b call now none).breaker) := by
    unfold check Breaker.request Breaker.State.pass
    cases hg : b.state.glance b.settings now with
    | pass generation => simp [step, counted, hg, Breaker.count]
    | refuse => simp [step, counted, hg, Breaker.count]
    | elapsed =>
      cases hm : b.state.moveOn b.settings now with
      | mk generation state => cases generation <;> simp [step, counted, hg, hm, Breaker.count]
  rw [Function.iterate_add_apply, hfour]
  exact Function.iterate_fixed rfl n

/-- A step looks at nothing of the poller but the limit. -/
theorem step_congr {q : Poller} (h : p.limit = q.limit) (name : String)
    (call : RemoteCall Finding) (now : Instant) : p.step name call now = q.step name call now := by
  have hinvoker : p.invoker = q.invoker := by rw [invoker, invoker, h]
  funext s
  obtain ⟨progress, b⟩ := s
  cases progress <;> simp only [step, hinvoker]

namespace Polling

variable {s : Polling} {schedule : List String}

/-! ## One step of a poll -/

/-- What the check of a service looks at: how far it has come, and the breaker. -/
def view (s : Polling) (name : String) : Option (Progress × Breaker) :=
  (s.poller.services.get? name).map (s.progress name, ·)

/-- A poll under way changes nothing of the poller but the breakers. -/
theorem poller_step (s : Polling) (probes : Probes) (now : Instant) (name : String) :
    (s.step probes now name).poller =
      { s.poller with services := (s.step probes now name).poller.services } := by
  unfold step
  split <;> rfl

theorem keys_step (s : Polling) (probes : Probes) (now : Instant) (name : String) :
    (s.step probes now name).poller.services.keys = s.poller.services.keys := by
  unfold step
  split
  · rfl
  · next b hb => exact Table.keys_insert_of_get? hb _

/-- A step of a check is a step in its own view, and changes no other. -/
theorem view_step (s : Polling) (probes : Probes) (now : Instant) (n name : String) :
    (s.step probes now n).view name =
      if n = name then (s.view name).map (s.poller.step name (probes name) now)
      else s.view name := by
  cases hb : s.poller.services.get? n with
  | none =>
    simp only [step, hb]
    by_cases h : n = name
    · subst h
      simp [view, hb]
    · rw [if_neg h]
  | some b =>
    simp only [step, hb, view, Table.get?_insert]
    by_cases h : n = name
    · subst h
      simp [hb]
    · simp [h, Ne.symm h]

/-! ## The run of a poll -/

theorem run_concat (s : Polling) (probes : Probes) (now : Instant) (schedule : List String)
    (name : String) :
    s.run probes now (schedule ++ [name]) = (s.run probes now schedule).step probes now name := by
  rw [run, List.foldl_append]
  rfl

theorem poller_run (s : Polling) (probes : Probes) (now : Instant) (schedule : List String) :
    (s.run probes now schedule).poller =
      { s.poller with services := (s.run probes now schedule).poller.services } := by
  induction schedule using List.reverseRecOn with
  | nil => rfl
  | append_singleton schedule name ih => rw [run_concat, poller_step, ih]

/-- A run keeps the services. -/
theorem keys_run (s : Polling) (probes : Probes) (now : Instant) (schedule : List String) :
    (s.run probes now schedule).poller.services.keys = s.poller.services.keys := by
  induction schedule using List.reverseRecOn with
  | nil => rfl
  | append_singleton schedule name ih => rw [run_concat, keys_step, ih]

/-- In a run, the check of a service does its own steps, whatever the others do. -/
theorem view_run (s : Polling) (probes : Probes) (now : Instant) (schedule : List String)
    (name : String) :
    (s.run probes now schedule).view name =
      (s.view name).map ((s.poller.step name (probes name) now)^[schedule.count name]) := by
  induction schedule using List.reverseRecOn with
  | nil => simp [run]
  | append_singleton schedule n ih =>
    have hlimit : (s.run probes now schedule).poller.limit = s.poller.limit := by rw [poller_run]
    rw [run_concat, view_step, ih, step_congr hlimit, List.count_append]
    split
    · next h =>
      subst h
      rw [List.count_singleton_self, Option.map_map, ← Function.iterate_succ']
    · next h => simp [h]

/-- When every check has taken steps enough, each has ended as it would have on its own. -/
theorem view_run_ended (h : ∀ name ∈ p.services.keys, 4 ≤ schedule.count name) (probes : Probes)
    (now : Instant) (name : String) :
    (run { poller := p } probes now schedule).view name =
      (p.services.get? name).map fun b =>
        (.ended (p.check name b (probes name) now none).status,
          (p.check name b (probes name) now none).breaker) := by
  rw [view_run, view]
  cases hb : p.services.get? name with
  | none => rfl
  | some b =>
    have hname : name ∈ p.services.keys := (Table.mem_keys_iff _).2 (by rw [hb]; rfl)
    simp only [Option.map_some, iterate_step p name (probes name) now b (h name hname)]

/-! ## The end of a poll -/

/-- The breakers after a poll side by side are those after the checks one by one. -/
theorem services_run (h : ∀ name ∈ p.services.keys, 4 ≤ schedule.count name) :
    (run { poller := p } probes now schedule).poller.services =
      ((p.checks probes now none).foldl put p).services := by
  refine Table.ext_get? ?_ fun name => ?_
  · rw [keys_run, keys_foldl_put]
    intro c hc
    obtain ⟨name, b, hb, rfl⟩ := mem_checks.1 hc
    rw [name_check, hb]
    rfl
  · have hview := congrArg (Option.map Prod.snd) (view_run_ended h probes now name)
    rw [get?_foldl_put]
    simpa [view, Function.comp_def] using hview

/-- The statuses that a poll side by side collects are those of the checks, whatever the order. -/
theorem perm_statuses {order : List String} (horder : order.Perm p.services.keys)
    (h : ∀ name ∈ p.services.keys, 4 ≤ schedule.count name) (probes : Probes) (now : Instant) :
    (order.filterMap fun name =>
        ((run { poller := p } probes now schedule).progress name).status?).Perm
      ((p.checks probes now none).map Check.status) := by
  have hstatus : ∀ name ∈ order,
      ((run { poller := p } probes now schedule).progress name).status? =
        (p.services.get? name).map fun b => (p.check name b (probes name) now none).status := by
    intro name hname
    obtain ⟨b, hb⟩ := Option.isSome_iff_exists.1 ((Table.mem_keys_iff _).1 (horder.subset hname))
    have hview := view_run_ended h probes now name
    rw [hb, view, Option.map_some, Option.map_eq_some_iff] at hview
    obtain ⟨b', -, heq⟩ := hview
    rw [hb, (Prod.mk.inj heq).1]
    rfl
  have hnames : order.Perm p.names := by
    refine (List.perm_ext_iff_of_nodup ?_ ?_).2 fun name => ?_
    · exact horder.nodup_iff.2 p.services.nodup_keys
    · exact p.nodup_names
    · rw [horder.mem_iff, mem_names, Table.mem_keys_iff]
  rw [List.filterMap_congr hstatus, checks, List.map_filterMap]
  simp only [Option.map_map]
  exact hnames.filterMap _

/-- **A poll side by side.** Whatever the order in which the services were collected and the checks
take their steps, as long as each takes enough of them, the poll ends as the checks one by one do.
-/
theorem close_run {order : List String} (horder : order.Perm p.services.keys)
    (h : ∀ name ∈ order, 4 ≤ schedule.count name) :
    (run { poller := p } probes now schedule).close order =
      ((p.pollAll probes now).1.latest, (p.pollAll probes now).1) := by
  have h : ∀ name ∈ p.services.keys, 4 ≤ schedule.count name := fun name hname =>
    h name (horder.mem_iff.2 hname)
  have hperm := perm_statuses horder h probes now
  have hsorted : (order.filterMap fun name =>
      ((run { poller := p } probes now schedule).progress name).status?).mergeSort
        ServiceStatus.before = (p.checks probes now none).map Check.status := by
    have hmerge := (List.mergeSort_perm _ ServiceStatus.before).trans hperm
    refine List.Perm.eq_of_pairwise ?_ (List.pairwise_mergeSort ServiceStatus.before_trans
      ServiceStatus.before_total _) ?_ hmerge
    · intro s t hs ht hst hts
      refine eq_of_name_eq (hmerge.subset hs) ht ?_
      exact String.le_antisymm (of_decide_eq_true hst) (of_decide_eq_true hts)
    · exact (pairwise_checks p probes now none).imp fun hlt =>
        decide_eq_true (String.not_lt.1 (String.lt_asymm hlt))
  have hpoller := poller_run { poller := p } probes now schedule
  rw [services_run h] at hpoller
  rw [close, hsorted, hpoller, pollAll, pollUntil]
  simp only [Option.all_none, if_true]
  rw [foldl_put_eq]

end Polling

end Poller

end AccessGate
