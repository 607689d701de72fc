import AccessGate.Gate.Uninterrupted
import AccessGate.Proofs.Gate.Steps

/-!
# Room for a lifetime

The clock has room for an entry of the cache if it can hold the end of the entry's life
(`Gate.HasRoom`). A request on its own breaks off exactly where it has asked the validator and there
is no room for what the cache is to have after the answer (`Gate.BreaksOff`); everywhere else it
ends as if lifetimes always fitted (`Gate.authorize?_cases`).
-/

namespace AccessGate

namespace Instant

/-- What comes before an instant that fits the clock fits it too. -/
theorem Fits.mono {t t' : Instant} (h : Fits t') (hle : t ≤ t') : Fits t :=
  Nat.lt_of_le_of_lt (Nat.div_le_div_right hle) h

end Instant

/-! ## Keeping an entry -/

namespace Cache

variable {c : Cache} {credential scope : String} {p : Principal} {now : Instant}

/-- Keeping a principal breaks off exactly where the end of its life does not fit the clock. -/
theorem store?_eq : c.store? credential scope p now =
    if (c.settings.ttl.after now).Fits then some (c.store credential scope p now) else none := by
  rw [store?, Duration.after?]
  split <;> rfl

/-- Keeping a marker breaks off exactly where it has a lifetime whose end does not fit the clock. -/
theorem storeUnknown?_eq : c.storeUnknown? credential now =
    if c.settings.negativeTtl.isZero = false → (c.settings.negativeTtl.after now).Fits then
      some (c.storeUnknown credential now)
    else none := by
  rw [storeUnknown?, storeUnknown, Duration.after?]
  cases c.settings.negativeTtl.isZero with
  | true => rfl
  | false =>
    by_cases hfits : (c.settings.negativeTtl.after now).Fits
    · simp [hfits]
    · simp [hfits]

end Cache

namespace Gate

variable {σ : Type} {g g' : Gate} {v : Validator σ} {s : σ} {wall : WallClock} {r : Request}
  {now : Moment} {start : Instant} {reply : ValidationReply} {generation : Nat}

/-- The entry that the cache is to have after an answer, if any, has an end that fits the clock. -/
def HasRoom (g : Gate) (now : Moment) (reply : ValidationReply) : Prop :=
  match g.principalOf reply now.wall with
  | .ok _ => (g.cache.settings.ttl.after now.instant).Fits
  | .error _ => g.cache.settings.negativeTtl.isZero = false →
      (g.cache.settings.negativeTtl.after now.instant).Fits

/-- Whether there is room for an entry is told by what a gate was made with. -/
theorem hasRoom_congr (h : g'.setup = g.setup) : g'.HasRoom now reply ↔ g.HasRoom now reply := by
  have hdomain : g'.domain = g.domain := congrArg Setup.domain h
  have hlifetimes : g'.cache.settings = g.cache.settings := congrArg Setup.lifetimes h
  rw [HasRoom, HasRoom, principalOf, principalOf, hdomain, hlifetimes]

/-- Where both lifetimes end within the clock, there is room for whatever the answer is. -/
theorem hasRoom_of_fits (httl : (g.cache.settings.ttl.after now.instant).Fits)
    (hnegative : (g.cache.settings.negativeTtl.after now.instant).Fits)
    (reply : ValidationReply) : g.HasRoom now reply := by
  unfold HasRoom
  cases g.principalOf reply now.wall with
  | ok p => exact httl
  | error e => exact fun _ => hnegative

/-- With room in the clock a credential is told as if lifetimes always fitted. -/
theorem identify?_of_hasRoom (h : g.HasRoom now reply) :
    g.identify? r now reply = some (g.identify r now reply) := by
  unfold HasRoom at h
  unfold identify? identify
  cases hp : g.principalOf reply now.wall with
  | ok p =>
    simp only [hp] at h ⊢
    rw [Cache.store?_eq, if_pos h]
    rfl
  | error e =>
    simp only [hp] at h ⊢
    rw [Cache.storeUnknown?_eq, if_pos h]
    rfl

/-- Without room in the clock telling a credential breaks off. -/
theorem identify?_of_not_hasRoom (h : ¬ g.HasRoom now reply) : g.identify? r now reply = none := by
  unfold HasRoom at h
  unfold identify?
  cases hp : g.principalOf reply now.wall with
  | ok p =>
    simp only [hp] at h ⊢
    rw [Cache.store?_eq, if_neg h]
    rfl
  | error e =>
    simp only [hp] at h ⊢
    rw [Cache.storeUnknown?_eq, if_neg h]
    rfl

/-! ## A request on its own -/

/-- A request with an answer is taken to its end if there is room, and else breaks off. -/
theorem conclude?_ok (g : Gate) (r : Request) (generation : Nat) (now : Moment)
    (reply : ValidationReply) :
    (g.HasRoom now reply ∧ g.conclude? r generation now (.ok reply) =
        some (g.conclude r generation now (.ok reply))) ∨
      ¬ g.HasRoom now reply ∧ g.conclude? r generation now (.ok reply) = none := by
  have hsetup : (g.hear generation now.instant (.ok reply)).setup = g.setup := rfl
  by_cases hroom : g.HasRoom now reply
  · refine .inl ⟨hroom, ?_⟩
    rw [conclude?, conclude, identify?_of_hasRoom ((hasRoom_congr hsetup).2 hroom)]
    cases (g.hear generation now.instant (.ok reply)).identify r now reply with
    | mk principal g' => cases principal <;> rfl
  · refine .inr ⟨hroom, ?_⟩
    rw [conclude?, identify?_of_not_hasRoom (mt (hasRoom_congr hsetup).1 hroom)]
    rfl

/-- A request leaves what a gate was made with alone on its way to the validator. -/
theorem setup_approach (g : Gate) (r : Request) (now : Moment) :
    (g.approach r now).2.setup = g.setup := by
  have hsetup := World.setup_run { gate := g } (arriving r now)
  rwa [run_arriving] at hsetup

/-- A request on its own breaks off: it asks the validator, whose answer comes in time, and the
clock has no room for the entry that the cache is to have then. -/
def BreaksOff (g : Gate) (v : Validator σ) (s : σ) (wall : WallClock) (r : Request)
    (now : Instant) : Prop :=
  let call := (v.validate s r.credential (wall.moment now)).1
  ∃ generation reply, (g.approach r (wall.moment now)).1 = .asks generation ∧
    g.validateInvoker.outcome call = .ok reply ∧
    ¬ g.HasRoom (wall.moment ((g.validateInvoker.wait call).after now)) reply

/-- A request on its own breaks off, or ends as if lifetimes always fitted the clock. -/
theorem authorize?_cases (g : Gate) (v : Validator σ) (s : σ) (wall : WallClock) (r : Request)
    (now : Instant) :
    (g.BreaksOff v s wall r now ∧ g.authorize? v s wall r now = none) ∨
      ¬ g.BreaksOff v s wall r now ∧
        g.authorize? v s wall r now = some (g.authorize v s wall r now) := by
  have hsetup := g.setup_approach r (wall.moment now)
  unfold BreaksOff authorize? authorize
  cases happroach : g.approach r (wall.moment now) with
  | mk approach g' =>
    rw [happroach] at hsetup
    have hinvoker : g'.validateInvoker = g.validateInvoker :=
      congrArg (fun setup : Setup => (⟨"validate", setup.config.callTimeout⟩ : Invoker)) hsetup
    cases approach with
    | ends result =>
      refine .inr ⟨?_, rfl⟩
      rintro ⟨_, _, hasks, -⟩
      cases hasks
    | asks generation =>
      cases hcall : v.validate s r.credential (wall.moment now) with
      | mk call s' =>
        simp only [hinvoker]
        cases houtcome : g.validateInvoker.outcome call with
        | error e =>
          refine .inr ⟨?_, rfl⟩
          rintro ⟨_, _, -, hreply, -⟩
          cases hreply
        | ok reply =>
          rcases conclude?_ok g' r generation
              (wall.moment ((g.validateInvoker.wait call).after now)) reply with
            ⟨hroom, hconclude⟩ | ⟨hroom, hconclude⟩
          · refine .inr ⟨?_, by rw [hconclude]; rfl⟩
            rintro ⟨_, _, -, hreply, hnot⟩
            obtain rfl := Except.ok.inj hreply
            exact hnot ((hasRoom_congr hsetup).1 hroom)
          · refine .inl ⟨⟨generation, reply, rfl, rfl, mt (hasRoom_congr hsetup).2 hroom⟩, ?_⟩
            rw [hconclude]
            rfl

/-- With lifetimes that end within the clock at the deadline, no request on its own breaks off. -/
theorem not_breaksOff_of_fits {now : Instant}
    (httl : (g.cache.settings.ttl.after (g.config.callTimeout.after now)).Fits)
    (hnegative : (g.cache.settings.negativeTtl.after (g.config.callTimeout.after now)).Fits) :
    ¬ g.BreaksOff v s wall r now := by
  rintro ⟨_, reply, -, -, hroom⟩
  have hle : (g.validateInvoker.wait (v.validate s r.credential (wall.moment now)).1).after now ≤
      g.config.callTimeout.after now :=
    Nat.add_le_add_left (Invoker.wait_le_limit g.validateInvoker _) now
  refine hroom (hasRoom_of_fits ?_ ?_ reply)
  · exact httl.mono (Nat.add_le_add_right hle _)
  · exact hnegative.mono (Nat.add_le_add_right hle _)

end Gate

end AccessGate
