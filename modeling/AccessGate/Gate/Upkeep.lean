import AccessGate.Gate.Authorize

/-!
# Looking after the gate

At the start, and again while authorization is off because the validator could not be reached, the
gate asks whether the validator is there. Only settings that ask for it let a gate serve without
authorization, and only a validator that answers ends that.
-/

namespace AccessGate.Gate

variable {σ : Type}

/-- Asks whether the validator is there: what comes of it, the validator's state, and when. -/
def probe (g : Gate) (v : Validator σ) (s : σ) (wall : WallClock) (now : Instant) :
    Except Error Unit × σ × Instant :=
  let (call, s) := v.ping s (wall.moment now)
  (g.probeInvoker.outcome call, s, (g.probeInvoker.wait call).after now)

/-- Starts the gate. If the validator cannot be reached, authorization is switched off or the start
fails, as the settings say. -/
def start (g : Gate) (v : Validator σ) (s : σ) (wall : WallClock) (now : Instant) :
    Finished σ (Except Error Unit) :=
  if !g.config.enabled then ⟨.ok (), g, s, now⟩
  else
    match g.probe v s wall now with
    | (.ok _, s, finish) => ⟨.ok (), g, s, finish⟩
    | (.error e, s, finish) =>
      if g.config.degradeOnStartupFailure then
        ⟨.ok (), { g with enabled := false, degraded := true }, s, finish⟩
      else ⟨.error e, g, s, finish⟩

/-- Asks again for a validator that could not be reached; if it answers, the breaker is closed and
authorization switched on. -/
def reprobe (g : Gate) (v : Validator σ) (s : σ) (wall : WallClock) (now : Instant) :
    Finished σ (Except Error Unit) :=
  if !g.degraded then ⟨.ok (), g, s, now⟩
  else
    match g.probe v s wall now with
    | (.error e, s, finish) => ⟨.error e, g, s, finish⟩
    | (.ok _, s, finish) =>
      ⟨.ok (), { g.resetBreaker finish with enabled := true, degraded := false }, s, finish⟩

end AccessGate.Gate
