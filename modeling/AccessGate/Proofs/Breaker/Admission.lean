import AccessGate.Breaker.Basic

/-!
# Asking a breaker

A breaker that shows as open refuses a call (`Breaker.request_of_shown`); any other lets it through
(`Breaker.exists_request_of_not_shown`). What a breaker shows is thus what it does
(`Breaker.isOk_request_iff`).
-/

namespace AccessGate.Breaker

variable {b : Breaker} {now : Instant}

/-- A breaker shows that it is open exactly when a glance refuses the call. -/
theorem shown_eq_opened_iff : b.shown now = .opened ↔ b.state.glance b.settings now = .refuse :=
  State.shown_eq_opened_iff

/-- A breaker shows as open while the reset timeout since its last failure has not passed. -/
theorem shown_eq_opened_iff_waits :
    b.shown now = .opened ↔
      b.state.phase = .opened ∧ b.state.resetElapsed b.settings now = false := by
  unfold shown State.shown
  by_cases hp : b.state.phase = .opened
  · cases b.state.resetElapsed b.settings now <;> simp [hp]
  · simp [hp]

/-- A breaker that shows as open refuses a call. -/
theorem request_of_shown (h : b.shown now = .opened) :
    b.request now =
      (.error (.circuitOpen b.settings.name), { b with rejected := b.rejected + 1 }) := by
  simp [request, State.pass, shown_eq_opened_iff.1 h, count]

/-- A breaker that does not show as open lets a call through. -/
theorem exists_request_of_not_shown (h : b.shown now ≠ .opened) :
    ∃ generation state,
      b.request now = (.ok generation, { b with state, total := b.total + 1 }) := by
  rw [Ne, shown_eq_opened_iff] at h
  cases hg : b.state.glance b.settings now with
  | pass generation => exact ⟨generation, b.state, by simp [request, State.pass, hg, count]⟩
  | refuse => exact absurd hg h
  | elapsed =>
    -- An open breaker whose timeout has elapsed is moved on, at the same instant.
    obtain ⟨hopened, helapsed⟩ :
        b.state.phase = .opened ∧ b.state.resetElapsed b.settings now = true := by
      unfold State.glance at hg
      split at hg <;> simp_all
    refine ⟨(b.state.toHalfOpen now).generation, b.state.toHalfOpen now, ?_⟩
    simp [request, State.pass, hg, State.moveOn, hopened, helapsed, count]

/-- A call is let through exactly when the breaker does not show that it is open. -/
theorem isOk_request_iff : (b.request now).1.isOk = true ↔ b.shown now ≠ .opened := by
  constructor
  · intro h hshown
    rw [request_of_shown hshown] at h
    cases h
  · intro h
    obtain ⟨generation, state, hrequest⟩ := exists_request_of_not_shown h
    rw [hrequest]
    rfl

@[simp] theorem settings_record {α : Type} (b : Breaker) (generation : Nat) (now : Instant)
    (result : Except Error α) : (b.record generation now result).settings = b.settings := by
  unfold record
  split <;> rfl

@[simp] theorem total_record {α : Type} (b : Breaker) (generation : Nat) (now : Instant)
    (result : Except Error α) : (b.record generation now result).total = b.total := by
  unfold record
  split <;> rfl

@[simp] theorem rejected_record {α : Type} (b : Breaker) (generation : Nat) (now : Instant)
    (result : Except Error α) : (b.record generation now result).rejected = b.rejected := by
  unfold record
  split <;> rfl

end AccessGate.Breaker
