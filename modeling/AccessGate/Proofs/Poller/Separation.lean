import AccessGate.Poller.Session
import AccessGate.Proofs.Poller.SideBySide

/-!
# Services that are polled do not interfere

What a session holds of a service (`Session.service`) is its breaker, its probe with the calls, and
what was reported of it. A command that has nothing to do with the service leaves that alone
(`Session.service_apply_of_not_concerns`), and what one that polls it comes to depends on nothing
else (`Session.service_apply_of_polls`). So a run holds of a service what the run of those commands
holds that concern it, in which no other is ever registered (`Session.service_run_alone`,
`Session.service_run_of_ne`). The main statement is `Session.services_do_not_interfere`.
-/

namespace AccessGate.Poller

/-- What a session holds of one service. -/
structure Service where
  /-- Its breaker, if it is registered. -/
  breaker : Option Breaker
  probe : Probe
  calls : List Instant
  reports : List (Instant × ServiceStatus)

/-- A service after a poll at an instant. -/
def Service.polled (x : Service) (p : Poller) (name : String) (now : Instant) : Service :=
  match x.breaker with
  | none => x
  | some b =>
    let c := p.check name b (x.probe (x.calls ++ [now])) now none
    { x with
      breaker := some c.breaker
      calls := if (b.request now).1.isOk then x.calls ++ [now] else x.calls
      reports := x.reports ++ [(now, c.status)] }

/-- Polling a service depends on the limit of the poller only. -/
theorem Service.polled_congr {p q : Poller} (h : p.limit = q.limit) (x : Service) (name : String)
    (now : Instant) : x.polled p name now = x.polled q name now := by
  unfold polled
  split
  · rfl
  · rw [check_congr h]

/-- That the breaker of a service has counted the calls of its probe. -/
def Service.Counted (x : Service) : Prop := ∀ b, x.breaker = some b → b.total = x.calls.length

/-- A poll keeps a service counted. -/
theorem Service.Counted.polled {x : Service} (h : x.Counted) (p : Poller) (name : String)
    (now : Instant) : (x.polled p name now).Counted := by
  unfold Service.polled
  split
  · exact h
  · next b hb =>
    rintro b' ⟨⟩
    rw [total_check, h b hb]
    split <;> simp [*]

namespace Session

variable {s t : Session} {name : String} {now : Instant} {c : Command}
  {commands : List (Instant × Command)}

/-- What a session holds of a service. -/
def service (s : Session) (name : String) : Service where
  breaker := s.poller.services.get? name
  probe := s.probe name
  calls := s.calls name
  reports := s.reports.filter (·.2.name = name)

/-- The reports on a service are those under its name. -/
theorem mem_reports_service {r : Instant × ServiceStatus} :
    r ∈ (s.service r.2.name).reports ↔ r ∈ s.reports := by simp [service]

/-! ## One command -/

/-- No command changes what the poller was set up with. -/
theorem setup_apply (s : Session) (now : Instant) (c : Command) :
    (s.apply now c).poller.limit = s.poller.limit ∧
      (s.apply now c).poller.template = s.poller.template := by
  cases c with
  | register | unregister => exact ⟨rfl, rfl⟩
  | pollOne name =>
    simp only [apply, pollOne]
    split <;> exact ⟨rfl, rfl⟩
  | pollAll =>
    simp only [apply, pollAll, pollUntil, Option.all_none, if_true]
    rw [foldl_put_eq]
    exact ⟨rfl, rfl⟩

/-- Registering a service gives it a new breaker and its probe. -/
theorem service_register (s : Session) (now : Instant) (name : String) (probe : Probe) :
    (s.apply now (.register name probe)).service name =
      { breaker := some (.create { s.poller.template with name } now), probe, calls := []
        reports := (s.service name).reports } := by
  simp [service, apply, register]

/-- Taking a service out leaves it without a breaker. -/
theorem service_unregister (s : Session) (now : Instant) (name : String) :
    (s.apply now (.unregister name)).service name = { s.service name with breaker := none } := by
  simp [service, apply, unregister]

/-- A command that has nothing to do with a service leaves it alone. -/
theorem service_apply_of_not_concerns (s : Session) (now : Instant)
    (h : c.concerns name = false) : (s.apply now c).service name = s.service name := by
  cases c with
  | register n probe =>
    have hne : name ≠ n := fun heq => by simp [Command.concerns, heq] at h
    simp [service, apply, register, Table.get?_insert, hne]
  | unregister n =>
    have hne : name ≠ n := fun heq => by simp [Command.concerns, heq] at h
    simp [service, apply, unregister, Table.get?_erase, hne]
  | pollOne n =>
    have hne : n ≠ name := fun heq => by simp [Command.concerns, heq] at h
    simp only [apply, pollOne]
    cases s.poller.services.get? n with
    | none => simp [service, called, Command.polls, hne]
    | some b => simp [service, called, Command.polls, put, Table.get?_insert, hne, Ne.symm hne]
  | pollAll => cases h

/-- What becomes of a service that is polled. -/
theorem service_apply_of_polls (s : Session) (now : Instant) (h : c.polls name = true) :
    (s.apply now c).service name = (s.service name).polled s.poller name now := by
  cases c with
  | register | unregister => cases h
  | pollOne n =>
    obtain rfl : n = name := by simpa [Command.polls] using h
    simp only [apply, pollOne]
    cases hb : s.poller.services.get? n with
    | none => simp [service, Service.polled, called, Command.polls, asks, hb]
    | some b => simp [service, Service.polled, called, Command.polls, asks, hb, put, probes]
  | pollAll =>
    have hreports := filter_name_checks s.poller (s.probes now) now none name
    simp only [apply, pollAll, pollUntil, Option.all_none, if_true, service, get?_foldl_put,
      List.filter_append, List.filter_map, Function.comp_def, hreports]
    cases hb : s.poller.services.get? name with
    | none => simp [Service.polled, called, Command.polls, asks, hb]
    | some b => simp [Service.polled, called, Command.polls, asks, hb, probes]

/-- What a command does to a service depends on nothing but the service. -/
theorem service_apply_congr (hlimit : s.poller.limit = t.poller.limit)
    (htemplate : s.poller.template = t.poller.template) (h : s.service name = t.service name)
    (now : Instant) (hc : c.concerns name = true) :
    (s.apply now c).service name = (t.apply now c).service name := by
  cases c with
  | register n probe =>
    obtain rfl : n = name := by simpa [Command.concerns] using hc
    rw [service_register, service_register, htemplate, h]
  | unregister n =>
    obtain rfl : n = name := by simpa [Command.concerns] using hc
    rw [service_unregister, service_unregister, h]
  | pollOne n =>
    have hpolls : (Command.pollOne n).polls name = true := hc
    rw [service_apply_of_polls s now hpolls, service_apply_of_polls t now hpolls, h,
      Service.polled_congr hlimit]
  | pollAll =>
    rw [service_apply_of_polls s now rfl, service_apply_of_polls t now rfl, h,
      Service.polled_congr hlimit]

/-- A service that is not registered stays as it is until it is registered. -/
theorem service_apply_of_unregistered (now : Instant) (h : s.poller.services.get? name = none)
    (hc : ∀ probe, c ≠ .register name probe) : (s.apply now c).service name = s.service name := by
  have hpolled : ∀ p, (s.service name).polled p name now = s.service name := fun p => by
    simp [Service.polled, service, h]
  cases hconcerns : c.concerns name with
  | false => exact service_apply_of_not_concerns s now hconcerns
  | true =>
    cases c with
    | register n probe =>
      obtain rfl : n = name := by simpa [Command.concerns] using hconcerns
      exact absurd rfl (hc probe)
    | unregister n =>
      obtain rfl : n = name := by simpa [Command.concerns] using hconcerns
      rw [service_unregister]
      simp [service, h]
    | pollOne n =>
      have hpolls : (Command.pollOne n).polls name = true := hconcerns
      exact (service_apply_of_polls s now hpolls).trans (hpolled _)
    | pollAll => exact (service_apply_of_polls s now rfl).trans (hpolled _)

/-- The statuses of the last poll of all services are remembered until the next. -/
theorem latest_apply (s : Session) (now : Instant) (h : c ≠ .pollAll) :
    (s.apply now c).poller.latest = s.poller.latest := by
  cases c with
  | register | unregister => rfl
  | pollOne name =>
    simp only [apply, pollOne]
    split <;> rfl
  | pollAll => exact absurd rfl h

/-- A poll of all services comes to one status for each, strictly by name. -/
theorem latest_pollAll (s : Session) (now : Instant) :
    (s.apply now .pollAll).poller.latest.Pairwise (fun x y => x.name < y.name) ∧
      ∀ name, name ∈ (s.apply now .pollAll).poller.latest.map ServiceStatus.name ↔
        name ∈ s.poller.services.keys := by
  have hlatest : (s.apply now .pollAll).poller.latest =
      (s.poller.checks (s.probes now) now none).map Check.status := rfl
  rw [hlatest]
  refine ⟨pairwise_checks _ _ _ _, fun name => ?_⟩
  rw [List.map_map, Table.mem_keys_iff, ← mem_names,
    ← map_name_checks s.poller (s.probes now) now none]
  rfl

/-- What is reported of a service that is polled, and whether it is asked. -/
theorem exists_report_apply {b : Breaker} (now : Instant)
    (hb : s.poller.services.get? name = some b) (h : c.polls name = true) :
    ∃ status, Tells s.poller.limit b (s.probes now name) now status ∧
      ((s.apply now c).service name).reports = (s.service name).reports ++ [(now, status)] ∧
      ((s.apply now c).service name).calls =
        if (b.request now).1.isOk then s.calls name ++ [now] else s.calls name := by
  refine ⟨_, tells_check s.poller name b (s.probes now name) now none, ?_⟩
  rw [service_apply_of_polls s now h, Service.polled, service, hb]
  exact ⟨rfl, rfl⟩

/-! ## A run -/

theorem run_concat (s : Session) (commands : List (Instant × Command)) (c : Instant × Command) :
    s.run (commands ++ [c]) = (s.run commands).apply c.1 c.2 := by
  rw [run, List.foldl_append]
  rfl

/-- Commands leave the limit and the template alone. -/
theorem setup_run (s : Session) (commands : List (Instant × Command)) :
    (s.run commands).poller.limit = s.poller.limit ∧
      (s.run commands).poller.template = s.poller.template := by
  induction commands using List.reverseRecOn with
  | nil => exact ⟨rfl, rfl⟩
  | append_singleton commands c ih =>
    obtain ⟨hlimit, htemplate⟩ := setup_apply (s.run commands) c.1 c.2
    rw [run_concat]
    exact ⟨hlimit.trans ih.1, htemplate.trans ih.2⟩

/-- Without a poll of all services the last statuses stay. -/
theorem latest_run (s : Session) (h : ∀ c ∈ commands, c.2 ≠ .pollAll) :
    (s.run commands).poller.latest = s.poller.latest := by
  induction commands using List.reverseRecOn with
  | nil => rfl
  | append_singleton commands c ih =>
    rw [run_concat, latest_apply _ _ (h c (by simp)), ih fun c hc => h c (by simp [hc])]

/-- A run holds of a service what the run of the commands holds that concern it. -/
theorem service_run_alone (s : Session) (commands : List (Instant × Command)) (name : String) :
    (s.run (commands.filter (·.2.concerns name))).service name =
      (s.run commands).service name := by
  induction commands using List.reverseRecOn with
  | nil => rfl
  | append_singleton commands c ih =>
    rw [List.filter_append, run_concat]
    cases hc : c.2.concerns name with
    | false =>
      rw [service_apply_of_not_concerns _ _ hc, ← ih]
      simp [hc]
    | true =>
      obtain ⟨hlimit, htemplate⟩ := setup_run s commands
      obtain ⟨hlimit', htemplate'⟩ := setup_run s (commands.filter (·.2.concerns name))
      rw [List.filter_singleton, hc, cond_true, run_concat]
      exact service_apply_congr (hlimit'.trans hlimit.symm) (htemplate'.trans htemplate.symm) ih
        c.1 hc

/-- Commands that concern one service leave every other as it was, if it was not registered. -/
theorem service_run_of_ne {n : String} (hn : s.poller.services.get? n = none)
    (h : ∀ c ∈ commands, c.2.concerns name = true) (hne : n ≠ name) :
    (s.run commands).service n = s.service n := by
  induction commands using List.reverseRecOn with
  | nil => rfl
  | append_singleton commands c ih =>
    have ih := ih fun c hc => h c (by simp [hc])
    have hconcerns := h c (by simp)
    have hunregistered : (s.run commands).poller.services.get? n = none :=
      (congrArg Service.breaker ih).trans hn
    rw [run_concat, service_apply_of_unregistered _ hunregistered, ih]
    rintro probe hregister
    rw [hregister] at hconcerns
    exact hne (by simpa [Command.concerns] using hconcerns)

/-- The run of the commands that concern a service reports of no other. -/
theorem reports_run_alone (limit : Duration) (template : Breaker.Settings)
    (commands : List (Instant × Command)) (name : String) :
    ((new limit template).run (commands.filter (·.2.concerns name))).reports =
      ((new limit template).run commands).reports.filter (·.2.name = name) := by
  have hconcern : ∀ c ∈ commands.filter (·.2.concerns name), c.2.concerns name = true :=
    fun c hc => (List.mem_filter.1 hc).2
  have halone : ∀ r ∈ ((new limit template).run (commands.filter (·.2.concerns name))).reports,
      r.2.name = name := by
    intro r hr
    by_contra hne
    rw [← mem_reports_service, service_run_of_ne rfl hconcern hne] at hr
    cases hr
  have hsame := congrArg Service.reports (service_run_alone (new limit template) commands name)
  refine Eq.trans ?_ hsame
  exact (List.filter_eq_self.2 fun r hr => decide_eq_true (halone r hr)).symm

/-- The breaker of a service has counted the calls of its probe. -/
theorem total_run (limit : Duration) (template : Breaker.Settings)
    (commands : List (Instant × Command)) (name : String) :
    (((new limit template).run commands).service name).Counted := by
  induction commands using List.reverseRecOn with
  | nil => exact fun b hb => nomatch hb
  | append_singleton commands c ih =>
    rw [run_concat]
    cases hconcerns : c.2.concerns name with
    | false => rwa [service_apply_of_not_concerns _ _ hconcerns]
    | true =>
      cases hc : c.2 with
      | register n probe =>
        obtain rfl : n = name := by simpa [hc, Command.concerns] using hconcerns
        rw [service_register]
        rintro b ⟨⟩
        rfl
      | unregister n =>
        obtain rfl : n = name := by simpa [hc, Command.concerns] using hconcerns
        rw [service_unregister]
        rintro b ⟨⟩
      | pollOne n =>
        have hpolls : (Command.pollOne n).polls name = true := by rwa [hc] at hconcerns
        rw [service_apply_of_polls _ _ hpolls]
        exact ih.polled _ _ _
      | pollAll =>
        rw [service_apply_of_polls _ _ rfl]
        exact ih.polled _ _ _

/-! ## All runs -/

/-- **Services that are polled do not interfere.** Take any run of a new poller. A poll of all
services then reports exactly one status for each that is registered, strictly by name; it ends so
in whatever order the services are collected and the checks take their steps; and its statuses are
remembered until the next such poll. What the run holds of a service is what the run of the commands
holds that concern it, in which it is the only one ever registered. A service that is polled gets
one status, which says that it is reachable exactly if it names no error, and exactly if the
breaker let the call through and the probe answered in time that all is well; if the breaker shows
as open, the probe is not called. A name that is registered, perhaps again, has a new breaker. -/
theorem services_do_not_interfere (limit : Duration) (template : Breaker.Settings)
    (commands : List (Instant × Command)) :
    let s := (new limit template).run commands
    (∀ now,
      let t := s.apply now .pollAll
      t.reports = s.reports ++ t.poller.latest.map (now, ·) ∧
      t.poller.latest.Pairwise (fun x y => x.name < y.name) ∧
      (∀ name, name ∈ t.poller.latest.map ServiceStatus.name ↔ name ∈ s.poller.services.keys) ∧
      (∀ order schedule, order.Perm s.poller.services.keys →
        (∀ name ∈ order, 4 ≤ schedule.count name) →
        (Polling.run { poller := s.poller } (s.probes now) now schedule).close order =
          (t.poller.latest, t.poller)) ∧
      ∀ more, (∀ c ∈ more, c.2 ≠ .pollAll) → (t.run more).poller.latest = t.poller.latest) ∧
    (∀ name,
      let alone := (new limit template).run (commands.filter (·.2.concerns name))
      (∀ n ≠ name, alone.poller.services.get? n = none) ∧
      alone.poller.services.get? name = s.poller.services.get? name ∧
      alone.calls name = s.calls name ∧
      alone.reports = s.reports.filter (·.2.name = name)) ∧
    (∀ name b now c, s.poller.services.get? name = some b → c.polls name = true →
      let t := s.apply now c
      b.total = (s.calls name).length ∧
      ∃ status, t.reports.filter (·.2.name = name) =
          s.reports.filter (·.2.name = name) ++ [(now, status)] ∧
        (status.isReachable = true ↔ status.error = none) ∧
        (status.isReachable = true ↔
          (b.request now).1.isOk = true ∧ AnswersWell (s.probes now name) limit) ∧
        (b.shown now = .opened → t.calls name = s.calls name ∧ status.phase = .opened) ∧
        (b.shown now ≠ .opened → t.calls name = s.calls name ++ [now])) ∧
    ∀ name probe now,
      let t := s.apply now (.register name probe)
      t.poller.services.get? name = some (.create { template with name } now) ∧
      t.calls name = [] := by
  intro s
  obtain ⟨hlimit, htemplate⟩ : s.poller.limit = limit ∧ s.poller.template = template :=
    setup_run (new limit template) commands
  refine ⟨?_, ?_, ?_, ?_⟩
  · intro now t
    obtain ⟨hsorted, hnames⟩ := latest_pollAll s now
    exact ⟨rfl, hsorted, hnames, fun order schedule => Polling.close_run, fun more =>
      latest_run t⟩
  · intro name alone
    have hservice : alone.service name = s.service name := service_run_alone _ commands name
    refine ⟨fun n hne => ?_, congrArg Service.breaker hservice, congrArg Service.calls hservice,
      reports_run_alone limit template commands name⟩
    exact congrArg Service.breaker
      (service_run_of_ne rfl (fun c hc => (List.mem_filter.1 hc).2) hne)
  · intro name b now c hb hpolls t
    obtain ⟨status, htells, hreports, hcalls⟩ := exists_report_apply now hb hpolls
    rw [hlimit] at htells
    refine ⟨total_run limit template commands name b hb, status, hreports, htells.error,
      htells.well, ?_, ?_⟩
    · intro hshown
      have hrefused : ¬ (b.request now).1.isOk = true := fun h =>
        Breaker.isOk_request_iff.1 h hshown
      exact ⟨hcalls.trans (if_neg hrefused), (htells.refused hshown).1⟩
    · intro hshown
      exact hcalls.trans (if_pos (Breaker.isOk_request_iff.2 hshown))
  · intro name probe now t
    have hservice : t.service name = _ := service_register s now name probe
    rw [htemplate] at hservice
    exact ⟨congrArg Service.breaker hservice, congrArg Service.calls hservice⟩

/-- A service that is down is asked until its breaker opens, and then no more; one that is well is
not affected. -/
theorem services_do_not_interfere_down :
    let down : Probe := fun _ => .now (.ok (.error ["connection refused"]))
    let well : Probe := fun _ => .now (.ok (.ok ()))
    let s := (new (.ofMillis 200) { failureLimit := 2 }).run
      [(0, .register "state" well), (0, .register "broker" down), (1, .pollAll), (2, .pollAll)]
    let t := s.apply 3 .pollAll
    s.calls "broker" = [1, 2] ∧ t.calls "broker" = s.calls "broker" ∧
    t.poller.latest.map (fun x => (x.name, x.isReachable)) = [("broker", false), ("state", true)] ∧
    (s.apply 4 (.pollOne "state")).reports.filter (·.2.name = "state") =
      s.reports.filter (·.2.name = "state") ++ [(4, ⟨"state", true, .closed, none⟩)] := by
  intro down well s t
  have hany : (s.poller.services.get? "broker").any (fun b => b.shown 3 = .opened) = true := by
    decide +kernel
  obtain ⟨b, hb, hshown⟩ := (Option.any_eq_true _ _).1 hany
  obtain ⟨-, -, hpolled, -⟩ := services_do_not_interfere (.ofMillis 200) { failureLimit := 2 }
    [(0, .register "state" well), (0, .register "broker" down), (1, .pollAll), (2, .pollAll)]
  obtain ⟨-, status, -, -, -, hopened, -⟩ := hpolled "broker" b 3 .pollAll hb rfl
  exact ⟨by decide +kernel, (hopened (of_decide_eq_true hshown)).1, by decide +kernel,
    by decide +kernel⟩

end Session

end AccessGate.Poller
