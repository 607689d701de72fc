import AccessGate.Proofs.Config.Values

/-!
# Settings come in layers

Looking at variables changes the settings of those that are set and no other
(`Config.Overrides`), up to the first whose value means nothing (`Config.Stopped`); there is no
third way to end (`Config.applyVariables_spec`). So every setting on its own is what its variable
means, or else what the file gives for it, or else its default (`Config.Layered`). The main
statement is `Config.settings_in_layers`.
-/

namespace AccessGate.Config

open Json

variable {env : Environment} {v : Variable} {vs : List Variable} {value : String} {c c₁ c' : Config}
  {file : Option File}

/-- A variable that is set has a value that means something. -/
def Parses (env : Environment) (v : Variable) : Prop :=
  ∀ value, env v.name = some value → ∃ x, v.Means value x

/-- What settings are after variables were looked at: those of variables that are set are what the
values mean, and every other is what it was. -/
structure Overrides (env : Environment) (vs : List Variable) (c c' : Config) : Prop where
  means : ∀ v ∈ vs, ∀ value, env v.name = some value → v.Means value (c'.get v)
  kept : ∀ v, (v ∈ vs → env v.name = none) → c'.get v = c.get v

/-- How looking at variables stops: at the first whose value means nothing, with an error about it,
and with what the ones before mean in place. -/
def Stopped (env : Environment) (vs : List Variable) (c : Config) (after : Overridden) : Prop :=
  ∃ before v later value reason, vs = before ++ v :: later ∧ (∀ u ∈ before, Parses env u) ∧
    env v.name = some value ∧ ¬ Parses env v ∧
    after.result = .error (.validation v.name ("'" ++ value ++ "'" ++ reason)) ∧
    Overrides env before c after.config

/-! ## Looking at variables -/

theorem Overrides.nil : Overrides env [] c c := ⟨nofun, fun _ _ => rfl⟩

/-- A variable that is not set changes nothing. -/
theorem Overrides.cons_unset (h : Overrides env vs c c') (hv : env v.name = none) :
    Overrides env (v :: vs) c c' where
  means u hu value hvalue := by
    rcases List.mem_cons.1 hu with rfl | hu
    · cases hv.symm.trans hvalue
    · exact h.means u hu value hvalue
  kept u hu := h.kept u fun hmem => hu (List.mem_cons_of_mem v hmem)

/-- A variable that is set changes its own setting, and no later one changes it back. -/
theorem Overrides.cons_set (h : Overrides env vs c₁ c') (hv : v ∉ vs)
    (hvalue : env v.name = some value) (hset : v.Sets value c c₁) :
    Overrides env (v :: vs) c c' where
  means u hu value' hvalue' := by
    rcases List.mem_cons.1 hu with rfl | hu
    · obtain rfl := Option.some.inj (hvalue.symm.trans hvalue')
      rw [h.kept u fun hmem => absurd hmem hv]
      exact hset.means
    · exact h.means u hu value' hvalue'
  kept u hu := by
    have hne : u ≠ v := by
      rintro rfl
      cases hvalue.symm.trans (hu List.mem_cons_self)
    rw [h.kept u fun hmem => hu (List.mem_cons_of_mem v hmem), hset.kept u hne]

/-- A stop comes later by a variable that parses, if settings before that variable are changed as
they are after it, and by it. -/
theorem Stopped.cons {after : Overridden} (h : Stopped env vs c₁ after) (hv : Parses env v)
    (hafter : ∀ before ⊆ vs, Overrides env before c₁ after.config →
      Overrides env (v :: before) c after.config) :
    Stopped env (v :: vs) c after := by
  obtain ⟨before, u, later, value, reason, rfl, hall, hvalue, hnot, hresult, h⟩ := h
  exact ⟨v :: before, u, later, value, reason, rfl, List.forall_mem_cons.2 ⟨hv, hall⟩, hvalue, hnot,
    hresult, hafter before (List.subset_append_left _ _) h⟩

/-- **Looking at variables.** Each that is set is put in place, or the first whose value means
nothing ends it. -/
theorem applyVariables_spec (hvs : vs.Nodup) (c : Config) :
    ((∀ v ∈ vs, Parses env v) ∧ (applyVariables env vs c).result = .ok () ∧
      Overrides env vs c (applyVariables env vs c).config) ∨
    Stopped env vs c (applyVariables env vs c) := by
  induction vs generalizing c with
  | nil => exact .inl ⟨nofun, rfl, .nil⟩
  | cons v vs ih =>
    obtain ⟨hv, hvs⟩ := List.nodup_cons.1 hvs
    rw [applyVariables]
    cases hvalue : env v.name with
    | none =>
      have hparses : Parses env v := fun value h => nomatch hvalue.symm.trans h
      rcases ih hvs c with ⟨hall, hresult, hafter⟩ | hstopped
      · exact .inl ⟨List.forall_mem_cons.2 ⟨hparses, hall⟩, hresult, hafter.cons_unset hvalue⟩
      · exact .inr (hstopped.cons hparses fun _ _ h => h.cons_unset hvalue)
    | some value =>
      dsimp only
      rcases v.apply_spec value c with ⟨c₁, happly, hset⟩ | ⟨⟨fault, happly⟩, hnot⟩
      · rw [happly]
        have hparses : Parses env v := fun value' h => by
          obtain rfl := Option.some.inj (hvalue.symm.trans h)
          exact ⟨_, hset.means⟩
        -- No variable is looked at twice, so what this one sets is still there at the end.
        rcases ih hvs c₁ with ⟨hall, hresult, hafter⟩ | hstopped
        · exact .inl ⟨List.forall_mem_cons.2 ⟨hparses, hall⟩, hresult,
            hafter.cons_set hv hvalue hset⟩
        · exact .inr (hstopped.cons hparses fun _ hsub h =>
            h.cons_set (fun hmem => hv (hsub hmem)) hvalue hset)
      · rw [happly]
        have hparses : ¬ Parses env v := fun h => by
          obtain ⟨x, hx⟩ := h value hvalue
          exact hnot x hx
        obtain ⟨reason, herror⟩ := v.error_eq value fault
        exact .inr ⟨[], v, vs, value, reason, rfl, nofun, hvalue, hparses,
          congrArg Except.error herror, .nil⟩

/-- An environment of which every variable parses is applied as a whole. -/
theorem applyEnvironment_of_parses (h : ∀ v, Parses env v) (c : Config) :
    (c.applyEnvironment env).result = .ok () ∧
      Overrides env Variable.all c (c.applyEnvironment env).config := by
  rcases applyVariables_spec (by decide : Variable.all.Nodup) c with ⟨-, h⟩ | hstopped
  · exact h
  · obtain ⟨-, v, -, -, -, -, -, -, hnot, -⟩ := hstopped
    exact absurd (h v) hnot

/-- An environment of which some variable does not parse stops at the first one. -/
theorem applyEnvironment_of_not_parses (h : ¬ ∀ v, Parses env v) (c : Config) :
    Stopped env Variable.all c (c.applyEnvironment env) := by
  rcases applyVariables_spec (by decide : Variable.all.Nodup) c with ⟨hall, -⟩ | hstopped
  · exact absurd (fun v => hall v v.mem_all) h
  · exact hstopped

/-! ## The layers of a setting -/

/-- A setting by its layers: what its variable's value means if it is set, otherwise what is given
for it, otherwise its default. -/
def Layered (env : Environment) (given : List (String × Json)) (v : Variable) (x : Setting) :
    Prop :=
  match env v.name, valueOf? given v.key with
  | some value, _ => v.Means value x
  | none, some j => v.decode j = .ok x
  | none, none => x = get {} v

variable {given : List (String × Json)} {x x' : Setting}

/-- Settings of which each is by its layers, over what a file gives. -/
def FromLayers (file : Option File) (env : Environment) (c : Config) : Prop :=
  ∃ given, Gives file given ∧ ∀ v, Layered env given v (c.get v)

/-- Where a variable is not set, a setting is that of the file. -/
theorem layered_of_unset (hv : env v.name = none) : Layered env given v x ↔ v.Filed given x := by
  rw [Layered, Variable.Filed, hv]
  cases valueOf? given v.key <;> rfl

/-- Where a variable is set, a setting is what it means. -/
theorem layered_of_set (hv : env v.name = some value) :
    Layered env given v x ↔ v.Means value x := by
  rw [Layered, hv]

/-- The layers of a setting leave no choice. -/
theorem Layered.unique (h : Layered env given v x) (h' : Layered env given v x') : x = x' := by
  cases hv : env v.name with
  | some value => exact ((layered_of_set hv).1 h).unique ((layered_of_set hv).1 h')
  | none => exact ((layered_of_unset hv).1 h).unique ((layered_of_unset hv).1 h')

/-- The layers tell every setting. -/
theorem FromLayers.unique (h : FromLayers file env c) (h' : FromLayers file env c') : c = c' := by
  obtain ⟨given, hgives, hlayered⟩ := h
  obtain ⟨given', hgives', hlayered'⟩ := h'
  obtain rfl := hgives.unique hgives'
  exact ext_get fun v => (hlayered v).unique (hlayered' v)

/-- Over settings of a file, the environment makes settings by their layers. -/
theorem Overrides.fromLayers (hbase : base file = .ok c) (h : Overrides env Variable.all c c') :
    FromLayers file env c' := by
  obtain ⟨given, hgives, hfiled⟩ := base_eq_ok_iff.1 hbase
  refine ⟨given, hgives, fun v => ?_⟩
  cases hv : env v.name with
  | some value => exact (layered_of_set hv).2 (h.means v v.mem_all value hv)
  | none =>
    rw [layered_of_unset hv, h.kept v fun _ => hv]
    exact hfiled v

/-- Loading is the file, then the environment, then the rules. -/
theorem load_eq_ok_iff :
    load file (some env) = .ok c ↔ ∃ b, base file = .ok b ∧
      (b.applyEnvironment env).result = .ok () ∧ (b.applyEnvironment env).config = c ∧
      c.validate = .ok () := by
  rw [load, bind_eq_ok_iff]
  refine exists_congr fun b => and_congr_right fun _ => ?_
  dsimp only
  cases (b.applyEnvironment env).result with
  | error e => exact iff_of_false nofun nofun
  | ok u =>
    constructor
    · intro h
      obtain ⟨c', hc', h⟩ := bind_eq_ok_iff.1 h
      obtain ⟨u', hvalid, h⟩ := bind_eq_ok_iff.1 h
      obtain rfl := Except.ok.inj h
      exact ⟨rfl, Except.ok.inj hc', hvalid⟩
    · rintro ⟨-, rfl, hvalid⟩
      exact bind_eq_ok_iff.2 ⟨_, rfl, bind_eq_ok_iff.2 ⟨(), hvalid, rfl⟩⟩

/-- **Settings come in layers, each on its own.** If every variable that is set parses, then over
the settings of a file, or the defaults without one, the environment gives settings each of which is
what its variable's value means if that is set, otherwise what the file gives for it, otherwise its
default. If one does not, then whatever the settings are, looking at the environment ends with a
validation error that names the first such variable in order, and with exactly the settings changed
whose variables are set and come before it. Settings are loaded exactly if the file can be read as
settings, every variable that is set parses, and the settings that come of it break no rule. -/
theorem settings_in_layers (file : Option File) (env : Environment) :
    (∀ c, base file = .ok c → (∀ v, Parses env v) →
      (c.applyEnvironment env).result = .ok () ∧
        FromLayers file env (c.applyEnvironment env).config) ∧
    (∀ c, ¬ (∀ v, Parses env v) → Stopped env Variable.all c (c.applyEnvironment env)) ∧
    ∀ c, load file (some env) = .ok c ↔ (∃ b, base file = .ok b) ∧ (∀ v, Parses env v) ∧
      FromLayers file env c ∧ c.validate = .ok () := by
  have hlayers (c : Config) (hbase : base file = .ok c) (hparses : ∀ v, Parses env v) :
      (c.applyEnvironment env).result = .ok () ∧
        FromLayers file env (c.applyEnvironment env).config := by
    obtain ⟨hresult, hafter⟩ := applyEnvironment_of_parses hparses c
    exact ⟨hresult, hafter.fromLayers hbase⟩
  refine ⟨hlayers, fun c hnot => applyEnvironment_of_not_parses hnot c, fun c => ?_⟩
  rw [load_eq_ok_iff]
  constructor
  · rintro ⟨b, hbase, hresult, rfl, hvalid⟩
    have hparses : ∀ v, Parses env v := by
      by_contra hnot
      obtain ⟨_, _, _, _, _, -, -, -, -, herror, -⟩ := applyEnvironment_of_not_parses hnot b
      cases hresult.symm.trans herror
    exact ⟨⟨b, hbase⟩, hparses, (hlayers b hbase hparses).2, hvalid⟩
  · rintro ⟨⟨b, hbase⟩, hparses, hc, hvalid⟩
    obtain ⟨hresult, hafter⟩ := hlayers b hbase hparses
    exact ⟨b, hbase, hresult, hafter.unique hc, hvalid⟩

/-- A file gives an endpoint and a lifetime, and a deadline is set beside a name that is cleared:
they are loaded together. With the lifetime set to a word, nothing is loaded, and the deadline has
changed before. -/
theorem settings_in_layers_deadline :
    let file : File := ⟨"auth.json",
      some "\x7b\"identity_endpoint\":\"tcp://idp:9000\",\"cache_ttl_ms\":120000\x7d".toUTF8⟩
    let env : Environment := fun name =>
      if name = "BASTION_AUTH_TIMEOUT_MS" then some " 1500 "
      else if name = "BASTION_SERVICE_NAME" then some "" else none
    let env' : Environment := fun name =>
      if name = "BASTION_CACHE_TTL_SECS" then some "five" else env name
    let c : Config := { identityEndpoint := "tcp://idp:9000", cacheTtl := .ofMillis 120000 }
    let c' : Config := { c with callTimeout := .ofMillis 1500 }
    base (some file) = .ok c ∧ load (some file) (some env) = .ok c' ∧
      FromLayers (some file) env c' ∧ Stopped env' Variable.all c (c.applyEnvironment env') ∧
      (c.applyEnvironment env').config = c' ∧ ∀ c₁, load (some file) (some env') ≠ .ok c₁ := by
  intro file env env' c c'
  have hbase : base (some file) = .ok c := by decide +kernel
  have hload : load (some file) (some env) = .ok c' := by decide +kernel
  have hresult : (c.applyEnvironment env').result ≠ .ok () := by decide +kernel
  obtain ⟨-, -, hloaded⟩ := settings_in_layers (some file) env
  obtain ⟨hlayers, hstopped, hloaded'⟩ := settings_in_layers (some file) env'
  obtain ⟨-, -, hfrom, -⟩ := (hloaded c').1 hload
  have hnot : ¬ ∀ v, Parses env' v := fun h => hresult (hlayers c hbase h).1
  exact ⟨hbase, hload, hfrom, hstopped c hnot, by decide +kernel,
    fun c₁ h => hnot ((hloaded' c₁).1 h).2.1⟩

end AccessGate.Config
