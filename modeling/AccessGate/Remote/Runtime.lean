import AccessGate.Duration

/-!
# What runs remote calls

An invoker stands on a runtime that is not its own. `Runtime` is what it uses of one: tasks that are
polled when they have been woken, a channel for one value between two tasks, a guard against
breakdowns, and a limit on how long something is waited for. `Runtime.Documented` is what the
documentation of such a runtime says of these, and no more than that is ever assumed. Timers fire
late by up to their granularity, and a task is polled some time after it was woken, but there is a
bound to that. `Runtime.ticking` is a runtime with timers of whole milliseconds that polls at once
what it has woken.
-/

namespace AccessGate

/-- What is thrown by something that breaks down. -/
inductive Payload
  | str (text : String)
  | string (text : String)
  | other
deriving DecidableEq, Repr

/-- The text of what is thrown, if it is one. -/
def Payload.text? : Payload → Option String
  | .str text | .string text => some text
  | .other => none

/-- What comes of polling. -/
inductive Poll (β : Type)
  | pending
  | ready (value : β)
  | unwinds (payload : Payload)
deriving DecidableEq, Repr

/-- The sender of a channel is gone and has sent nothing. -/
structure RecvError
deriving DecidableEq, Repr

/-- The time for waiting is over. -/
structure Elapsed
deriving DecidableEq, Repr

/-- What is used of a runtime. -/
structure Runtime where
  /-- A channel for one value, as its two ends have left it. -/
  Channel : Type → Type
  channel {β : Type} : Channel β
  /-- Sends a value; it comes back if the receiver is gone. -/
  send {β : Type} (value : β) (c : Channel β) : Option β × Channel β
  /-- The sender goes. -/
  dropSender {β : Type} (c : Channel β) : Channel β
  /-- The receiver goes. -/
  dropReceiver {β : Type} (c : Channel β) : Channel β
  /-- The receiver is polled. -/
  receive {β : Type} (c : Channel β) : Poll (Except RecvError β)
  /-- What comes of polling something under a guard against breakdowns. -/
  catchUnwind {β : Type} (p : Poll β) : Poll (Except Payload β)
  /-- What comes of polling something now that is waited for since `start`, no longer than a
  limit. -/
  timeout {β : Type} (start : Instant) (limit : Duration) (now : Instant) (p : Poll β) :
    Poll (Except Elapsed β)
  /-- When a timer that is set for an instant has fired. -/
  fires (deadline : Instant) : Instant
  /-- By how much timers may be late. -/
  granularity : Duration
  /-- How long after it was woken a task is polled at the latest. -/
  maxDelay : Duration
  /-- Whether the clock may go on from an instant to a later one while tasks that were or will be
  woken at some instants are not polled. -/
  Passes (wakes : List Instant) (now later : Instant) : Prop

namespace Runtime

/-- What is documented of a runtime. -/
structure Documented (rt : Runtime) : Prop where
  /-- A receiver waits while nothing was sent. -/
  receive_channel {β : Type} : rt.receive (rt.channel : rt.Channel β) = .pending
  /-- What is sent while the receiver is there does not come back; the receiver gets it. -/
  send_channel {β : Type} (value : β) :
    (rt.send value rt.channel).1 = none ∧
      rt.receive (rt.send value rt.channel).2 = .ready (.ok value)
  /-- A receiver whose sender went without sending fails. -/
  receive_dropSender {β : Type} :
    rt.receive (rt.dropSender (rt.channel : rt.Channel β)) = .ready (.error ⟨⟩)
  /-- What is sent when the receiver is gone comes back. -/
  send_dropReceiver {β : Type} (value : β) :
    (rt.send value (rt.dropReceiver rt.channel)).1 = some value
  /-- The guard lets through what did not break down. -/
  catchUnwind_pending {β : Type} : rt.catchUnwind (.pending : Poll β) = .pending
  catchUnwind_ready {β : Type} (value : β) : rt.catchUnwind (.ready value) = .ready (.ok value)
  /-- The guard catches what is thrown. -/
  catchUnwind_unwinds {β : Type} (payload : Payload) :
    rt.catchUnwind (.unwinds payload : Poll β) = .ready (.error payload)
  /-- What is waited for is looked at first: if it is ready, the time does not count. -/
  timeout_ready {β : Type} (start : Instant) (limit : Duration) (now : Instant) (value : β) :
    rt.timeout start limit now (.ready value) = .ready (.ok value)
  /-- If it is not, waiting goes on or is over. -/
  timeout_pending {β : Type} (start : Instant) (limit : Duration) (now : Instant) :
    rt.timeout start limit now (.pending : Poll β) = .pending ∨
      rt.timeout start limit now (.pending : Poll β) = .ready (.error ⟨⟩)
  /-- Waiting is not over before the limit. -/
  timeout_early {β : Type} {start : Instant} {limit : Duration} {now : Instant} :
    now < limit.after start → rt.timeout start limit now (.pending : Poll β) = .pending
  /-- Waiting is over when the timer has fired. -/
  timeout_fired {β : Type} {start : Instant} {limit : Duration} {now : Instant} :
    rt.fires (limit.after start) ≤ now →
      rt.timeout start limit now (.pending : Poll β) = .ready (.error ⟨⟩)
  /-- A timer fires late by its granularity at most. -/
  fires_le (deadline : Instant) : rt.fires deadline ≤ rt.granularity.after deadline
  /-- The clock does not go back. -/
  le_of_passes {wakes : List Instant} {now later : Instant} :
    rt.Passes wakes now later → now ≤ later
  /-- A task is polled within the bound after it was woken. There is one where the tasks are bounded
  in number and each poll in time. -/
  prompt {wakes : List Instant} {now later : Instant} :
    rt.Passes wakes now later → ∀ wake ∈ wakes, later ≤ rt.maxDelay.after wake
  /-- While no task is woken the clock goes on. -/
  passes_of_idle {wakes : List Instant} {now later : Instant} :
    now ≤ later → (∀ wake ∈ wakes, later ≤ wake) → rt.Passes wakes now later

/-- The limit of waiting is not after the firing of its timer. -/
theorem Documented.le_fires {rt : Runtime} (h : rt.Documented) (deadline : Instant) :
    deadline ≤ rt.fires deadline := by
  refine Nat.le_of_not_lt fun hearly => ?_
  have hpending : rt.timeout 0 ⟨deadline⟩ (rt.fires deadline) (.pending : Poll Unit) = .pending :=
    h.timeout_early (by simpa [Duration.after] using hearly)
  have hfired : rt.timeout 0 ⟨deadline⟩ (rt.fires deadline) (.pending : Poll Unit) =
      .ready (.error ⟨⟩) :=
    h.timeout_fired (by simp [Duration.after])
  cases hpending.symm.trans hfired

/-! ## Timers of whole milliseconds -/

/-- A channel as a slot for its value. -/
inductive Slot (β : Type)
  | empty
  | sent (value : β)
  /-- The sender is gone and has sent nothing. -/
  | abandoned
  /-- The receiver is gone. -/
  | closed
deriving DecidableEq, Repr

/-- The first whole millisecond that is not before an instant. -/
def tick (t : Instant) : Instant := (t + 999999) / 1000000 * 1000000

/-- No timer is early. -/
theorem le_tick (t : Instant) : t ≤ tick t := by
  have h (n : Nat) : n ≤ (n + 999999) / 1000000 * 1000000 := by omega
  exact h t

/-- A timer is late by a millisecond at most. -/
theorem tick_le (t : Instant) : tick t ≤ (Duration.ofMillis 1).after t := by
  have h (n : Nat) : (n + 999999) / 1000000 * 1000000 ≤ n + 1 * 1000000 := by omega
  exact h t

/-- A runtime with timers of whole milliseconds. Its clock goes on only while no task is woken. -/
def ticking : Runtime where
  Channel := Slot
  channel := .empty
  send value
    | .closed => (some value, .closed)
    | .empty | .sent _ | .abandoned => (none, .sent value)
  dropSender
    | .empty => .abandoned
    | c => c
  dropReceiver _ := .closed
  receive
    | .empty | .closed => .pending
    | .sent value => .ready (.ok value)
    | .abandoned => .ready (.error ⟨⟩)
  catchUnwind
    | .pending => .pending
    | .ready value => .ready (.ok value)
    | .unwinds payload => .ready (.error payload)
  timeout start limit now
    | .pending => if tick (limit.after start) ≤ now then .ready (.error ⟨⟩) else .pending
    | .ready value => .ready (.ok value)
    | .unwinds payload => .unwinds payload
  fires := tick
  granularity := .ofMillis 1
  maxDelay := ⟨0⟩
  Passes wakes now later := now ≤ later ∧ ∀ wake ∈ wakes, later ≤ wake

/-- A ticking runtime does what is documented. -/
theorem documented_ticking : ticking.Documented where
  receive_channel := rfl
  send_channel _ := ⟨rfl, rfl⟩
  receive_dropSender := rfl
  send_dropReceiver _ := rfl
  catchUnwind_pending := rfl
  catchUnwind_ready _ := rfl
  catchUnwind_unwinds _ := rfl
  timeout_ready _ _ _ _ := rfl
  timeout_pending start limit now := by
    by_cases h : tick (limit.after start) ≤ now
    · exact .inr (if_pos h)
    · exact .inl (if_neg h)
  timeout_early {_ start limit now} h :=
    if_neg (Nat.not_le_of_lt (Nat.lt_of_lt_of_le h (le_tick _)))
  timeout_fired h := if_pos h
  fires_le := tick_le
  le_of_passes h := h.1
  prompt h := h.2
  passes_of_idle := And.intro

end Runtime

end AccessGate
