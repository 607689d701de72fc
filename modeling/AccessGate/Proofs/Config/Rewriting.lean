import AccessGate.Proofs.Config.Layers
import AccessGate.Proofs.Json.Written

/-!
# Settings that are written back

A span of time is written as its whole milliseconds without the bits beyond 64, so what is read back
is the span modulo `2 ^ 64` milliseconds (`Duration.reread`), and the settings read back are those
with every span so (`Config.ofText_text`). A file gives spans in milliseconds of 64 bits, which are
read back as they are; a variable of the environment may give one in seconds of 64 bits, which may
be a thousand times too long (`Config.Given`). So the settings that were loaded are read back
exactly when no variable gives such a span (`Config.reread_exactly`).
-/

namespace AccessGate

open Json

namespace Duration

/-- The span that is read where a span was written: its whole milliseconds, without the bits beyond
64. -/
def reread (d : Duration) : Duration := .ofMillis (d.wholeMillis % Nat.pow 2 64)

/-- A span of whole milliseconds that fit 64 bits. -/
def InMillis (d : Duration) : Prop := ∃ n < Nat.pow 2 64, d = .ofMillis n

variable {d : Duration} {n : Nat}

/-- What is read of a span that was written is its whole milliseconds, cut to 64 bits. -/
theorem ofJson_toJson (d : Duration) : ofJson d.toJson = .ok d.reread := by
  have hlt : d.wholeMillis % Nat.pow 2 64 < Nat.pow 2 64 := Nat.mod_lt _ (by decide)
  rw [ofJson, toJson, asNat64_ofNat hlt]
  rfl

/-- A span is written so that it can be read. -/
theorem readable_toJson (d : Duration) : d.toJson.Readable n :=
  readable_ofNat (Nat.mod_lt _ (by decide))

/-- A span that was read is one of milliseconds. -/
theorem inMillis_of_ofJson {j : Json} (h : ofJson j = .ok d) : d.InMillis := by
  rw [ofJson] at h
  cases hread : asNat64 "u64" j with
  | error fault =>
    rw [hread] at h
    cases h
  | ok k =>
    rw [hread] at h
    exact ⟨k, lt_of_asNat64 hread, (Except.ok.inj h).symm⟩

/-- A whole number of seconds is read back if its milliseconds fit 64 bits. -/
theorem reread_ofMillis_eq_iff : (ofMillis n).reread = ofMillis n ↔ n < Nat.pow 2 64 := by
  rw [reread, wholeMillis_ofMillis, ofMillis, ofMillis, Duration.mk.injEq, pow_two_64]
  omega

/-- A second has a thousand milliseconds. -/
theorem ofSecs_eq (n : Nat) : ofSecs n = ofMillis (n * 1000) := by
  rw [ofSecs, ofMillis, Nat.mul_assoc]

/-- A span that came in as milliseconds is read back. -/
theorem InMillis.reread_eq (h : d.InMillis) : d.reread = d := by
  obtain ⟨n, hn, rfl⟩ := h
  exact reread_ofMillis_eq_iff.2 hn

theorem InMillis.wholeMillis_lt (h : d.InMillis) : d.wholeMillis < Nat.pow 2 64 := by
  obtain ⟨n, hn, rfl⟩ := h
  rwa [wholeMillis_ofMillis]

/-- A span that was given for a variable in seconds: one of milliseconds, or the seconds of the
variable's value. -/
def InSeconds (env : Option Environment) (v : Variable) (d : Duration) : Prop :=
  d.InMillis ∨ ∃ e ∈ env, ∃ value ∈ e v.name, ∃ n, Variable.readNat value = .ok n ∧ d = .ofSecs n

variable {env : Option Environment} {v : Variable}

/-- A span that came in as seconds is read back exactly if its milliseconds have 64 bits. -/
theorem InSeconds.reread_eq_iff (h : d.InSeconds env v) :
    d.reread = d ↔ d.wholeMillis < Nat.pow 2 64 := by
  rcases h with h | ⟨-, -, -, -, n, -, rfl⟩
  · exact iff_of_true h.reread_eq h.wholeMillis_lt
  · rw [ofSecs_eq, reread_ofMillis_eq_iff, wholeMillis_ofMillis]

/-- A span that is not read back is that of a variable whose value in milliseconds exceeds 64
bits. -/
theorem InSeconds.exists_of_reread_ne (h : d.InSeconds env v) (hne : d.reread ≠ d) :
    ∃ e ∈ env, ∃ value ∈ e v.name, ∃ n, Variable.readNat value = .ok n ∧ Nat.pow 2 64 ≤ n * 1000 := by
  rcases h with h | ⟨e, he, value, hvalue, n, hread, rfl⟩
  · exact absurd h.reread_eq hne
  · rw [ofSecs_eq, Ne, reread_ofMillis_eq_iff, Nat.not_lt] at hne
    exact ⟨e, he, value, hvalue, n, hread, hne⟩

end Duration

namespace Config

/-- The settings that are read where settings were written. -/
def reread (c : Config) : Config :=
  { c with
    callTimeout := c.callTimeout.reread
    healthTimeout := c.healthTimeout.reread
    cacheTtl := c.cacheTtl.reread
    negativeCacheTtl := c.negativeCacheTtl.reread
    resetTimeout := c.resetTimeout.reread }

/-- Settings are read back but for the bits of their spans beyond 64. -/
theorem ofText_text (c : Config) (h : c.failureLimit < Nat.pow 2 64) :
    ofText c.toJson.text = .ok c.reread := by
  have hspan (key : String) (d : Duration) :
      (Field.may key Duration.ofJson).check d.toJson = .ok () := check_may d.ofJson_toJson
  have hwritten : Written 0 fields c.toJson.members :=
    .put (check_may rfl) (readable_string _) (.put (check_may rfl) (readable_bool _)
      (.put (hspan _ _) (Duration.readable_toJson _) (.put (hspan _ _) (Duration.readable_toJson _)
      (.put (hspan _ _) (Duration.readable_toJson _) (.put (hspan _ _) (Duration.readable_toJson _)
      (.put (check_may (asNat64_ofNat h _)) (readable_ofNat h)
      (.put (hspan _ _) (Duration.readable_toJson _) (.put (check_may rfl) (readable_bool _)
      (.put (check_may (asOption_ofOption_string _)) (readable_ofOption_string _) .nil)))))))))
  have hparse : parse? c.toJson.text = some c.toJson := hwritten.parse?_text (by decide)
  have hread {key : String} {d d' : Duration} (h : valueOf? c.toJson.members key = some d.toJson) :
      fieldOr c.toJson.members key d' Duration.ofJson = .ok d.reread :=
    fieldOr_of_value h d.ofJson_toJson
  rw [ofText, decodeText_of_parse? hparse]
  refine bind_eq_ok_iff.2 ⟨_, hwritten.asRecord (by decide) _ _, ?_⟩
  refine bind_eq_ok_iff.2 ⟨_, fieldOr_of_value rfl rfl, ?_⟩
  refine bind_eq_ok_iff.2 ⟨_, fieldOr_of_value rfl rfl, ?_⟩
  refine bind_eq_ok_iff.2 ⟨_, hread rfl, ?_⟩
  refine bind_eq_ok_iff.2 ⟨_, hread rfl, ?_⟩
  refine bind_eq_ok_iff.2 ⟨_, hread rfl, ?_⟩
  refine bind_eq_ok_iff.2 ⟨_, hread rfl, ?_⟩
  refine bind_eq_ok_iff.2 ⟨_, fieldOr_of_value rfl (asNat64_ofNat h _), ?_⟩
  refine bind_eq_ok_iff.2 ⟨_, hread rfl, ?_⟩
  refine bind_eq_ok_iff.2 ⟨_, fieldOr_of_value rfl rfl, ?_⟩
  refine bind_eq_ok_iff.2 ⟨_, fieldOr_of_value rfl (asOption_ofOption_string _), ?_⟩
  rfl

/-! ## What can be loaded -/

/-- Settings as a file and an environment can give them. -/
structure Given (env : Option Environment) (c : Config) : Prop where
  callTimeout : c.callTimeout.InMillis
  healthTimeout : c.healthTimeout.InMillis
  cacheTtl : c.cacheTtl.InSeconds env .cacheTtl
  negativeCacheTtl : c.negativeCacheTtl.InSeconds env .negativeCacheTtl
  resetTimeout : c.resetTimeout.InSeconds env .resetTimeout
  failureLimit : c.failureLimit < Nat.pow 2 64

variable {env : Option Environment} {e : Environment} {c c' : Config}

/-- The default settings are given. -/
theorem given_default : Given env {} where
  callTimeout := ⟨30000, by decide, rfl⟩
  healthTimeout := ⟨500, by decide, rfl⟩
  cacheTtl := .inl ⟨300000, by decide, rfl⟩
  negativeCacheTtl := .inl ⟨30000, by decide, rfl⟩
  resetTimeout := .inl ⟨30000, by decide, rfl⟩
  failureLimit := by decide

/-- Settings that were read from a value give spans in milliseconds. -/
theorem given_of_ofJson {source : Source} {j : Json} (h : ofJson source j = .ok c) :
    Given env c := by
  obtain ⟨kept, -, h⟩ := bind_eq_ok_iff.1 h
  obtain ⟨identityEndpoint, -, h⟩ := bind_eq_ok_iff.1 h
  obtain ⟨enabled, -, h⟩ := bind_eq_ok_iff.1 h
  obtain ⟨callTimeout, hcall, h⟩ := bind_eq_ok_iff.1 h
  obtain ⟨healthTimeout, hhealth, h⟩ := bind_eq_ok_iff.1 h
  obtain ⟨cacheTtl, hcache, h⟩ := bind_eq_ok_iff.1 h
  obtain ⟨negativeCacheTtl, hnegative, h⟩ := bind_eq_ok_iff.1 h
  obtain ⟨failureLimit, hlimit, h⟩ := bind_eq_ok_iff.1 h
  obtain ⟨resetTimeout, hreset, h⟩ := bind_eq_ok_iff.1 h
  obtain ⟨degrade, -, h⟩ := bind_eq_ok_iff.1 h
  obtain ⟨serviceName, -, h⟩ := bind_eq_ok_iff.1 h
  obtain rfl := Except.ok.inj h
  have hspan {key : String} {d d' : Duration} (hd : d.InMillis)
      (hread : fieldOr kept key d Duration.ofJson = .ok d') : d'.InMillis := by
    rcases read_of_fieldOr hread with rfl | ⟨j, hj⟩
    · exact hd
    · exact Duration.inMillis_of_ofJson hj
  exact {
    callTimeout := hspan ⟨30000, by decide, rfl⟩ hcall
    healthTimeout := hspan ⟨500, by decide, rfl⟩ hhealth
    cacheTtl := .inl (hspan ⟨300000, by decide, rfl⟩ hcache)
    negativeCacheTtl := .inl (hspan ⟨30000, by decide, rfl⟩ hnegative)
    resetTimeout := .inl (hspan ⟨30000, by decide, rfl⟩ hreset)
    failureLimit := by
      rcases read_of_fieldOr hlimit with rfl | ⟨j, hj⟩
      · exact Nat.lt_of_lt_of_le (Nat.lt_succ_self 3) (by decide)
      · exact lt_of_asNat64 hj }

/-- A variable gives what it sets in its own unit, and leaves the rest as it is. -/
theorem given_of_apply {v : Variable} {value : String} (hvalue : value ∈ e v.name)
    (hc : Given (some e) c) (h : v.apply value c = .ok c') : Given (some e) c' := by
  have hmillis {n : Nat} (hn : Variable.readNat value = .ok n) : (Duration.ofMillis n).InMillis :=
    ⟨n, (Variable.readNat_eq_ok_iff.1 hn).2, rfl⟩
  have hsecs {n : Nat} (hn : Variable.readNat value = .ok n) :
      (Duration.ofSecs n).InSeconds (some e) v := .inr ⟨e, rfl, value, hvalue, n, hn, rfl⟩
  cases v with
  | identityEndpoint | serviceName =>
    obtain rfl := Except.ok.inj h
    exact { hc with }
  | enabled | degradeOnStartupFailure =>
    obtain ⟨b, -, h⟩ := bind_eq_ok_iff.1 h
    obtain rfl := Except.ok.inj h
    exact { hc with }
  | callTimeout =>
    obtain ⟨n, hn, h⟩ := bind_eq_ok_iff.1 h
    obtain rfl := Except.ok.inj h
    exact { hc with callTimeout := hmillis hn }
  | healthTimeout =>
    obtain ⟨n, hn, h⟩ := bind_eq_ok_iff.1 h
    obtain rfl := Except.ok.inj h
    exact { hc with healthTimeout := hmillis hn }
  | cacheTtl =>
    obtain ⟨n, hn, h⟩ := bind_eq_ok_iff.1 h
    obtain rfl := Except.ok.inj h
    exact { hc with cacheTtl := hsecs hn }
  | negativeCacheTtl =>
    obtain ⟨n, hn, h⟩ := bind_eq_ok_iff.1 h
    obtain rfl := Except.ok.inj h
    exact { hc with negativeCacheTtl := hsecs hn }
  | failureLimit =>
    obtain ⟨n, hn, h⟩ := bind_eq_ok_iff.1 h
    obtain rfl := Except.ok.inj h
    exact { hc with failureLimit := (Variable.readNat_eq_ok_iff.1 hn).2 }
  | resetTimeout =>
    obtain ⟨n, hn, h⟩ := bind_eq_ok_iff.1 h
    obtain rfl := Except.ok.inj h
    exact { hc with resetTimeout := hsecs hn }

/-- The environment gives what its variables set; those before one that cannot be read stay. -/
theorem given_applyVariables (hc : Given (some e) c) (vs : List Variable) :
    Given (some e) (applyVariables e vs c).config := by
  induction vs generalizing c with
  | nil => exact hc
  | cons v vs ih =>
    rw [applyVariables]
    split
    · exact ih hc
    · next value hvalue =>
      split
      · next c' happly => exact ih (given_of_apply hvalue hc happly)
      · exact hc

/-- What a file gives is given. -/
theorem given_of_base {file : Option File} (h : base file = .ok c) : Given env c := by
  cases file with
  | none =>
    obtain rfl := Except.ok.inj h
    exact given_default
  | some f =>
    obtain ⟨text, -, h⟩ := bind_eq_ok_iff.1 h
    split at h
    · next c' htext =>
      obtain rfl := Except.ok.inj h
      obtain ⟨j, hj⟩ := read_of_decodeText htext
      exact given_of_ofJson hj
    · cases h

/-- Settings that were loaded come from a file and an environment, and break no rule. -/
theorem given_of_load {file : Option File} (h : load file env = .ok c) :
    Given env c ∧ c.validate = .ok () := by
  cases env with
  | none =>
    obtain ⟨c₀, hbase, h⟩ := bind_eq_ok_iff.1 h
    obtain ⟨c₁, hsame, h⟩ := bind_eq_ok_iff.1 h
    obtain ⟨u, hvalidate, h⟩ := bind_eq_ok_iff.1 h
    obtain rfl := Except.ok.inj hsame
    obtain rfl := Except.ok.inj h
    exact ⟨given_of_base hbase, hvalidate⟩
  | some e =>
    obtain ⟨c₀, hbase, -, rfl, hvalidate⟩ := load_eq_ok_iff.1 h
    exact ⟨given_applyVariables (given_of_base hbase) Variable.all, hvalidate⟩

/-! ## What survives -/

/-- Given settings are read back exactly if the three spans that came in as seconds are. -/
theorem Given.reread_eq_iff (h : Given env c) :
    c.reread = c ↔ c.cacheTtl.wholeMillis < Nat.pow 2 64 ∧ c.negativeCacheTtl.wholeMillis < Nat.pow 2 64 ∧
      c.resetTimeout.wholeMillis < Nat.pow 2 64 := by
  rw [← h.cacheTtl.reread_eq_iff, ← h.negativeCacheTtl.reread_eq_iff,
    ← h.resetTimeout.reread_eq_iff]
  have hcall := h.callTimeout.reread_eq
  have hhealth := h.healthTimeout.reread_eq
  constructor
  · intro heq
    exact ⟨congrArg Config.cacheTtl heq, congrArg Config.negativeCacheTtl heq,
      congrArg Config.resetTimeout heq⟩
  · rintro ⟨hcache, hnegative, hreset⟩
    simp only [reread, hcall, hhealth, hcache, hnegative, hreset]

/-- Settings that break no rule break none once they are read back, unless a span that must not be
zero has become zero. -/
theorem Given.validate_reread_iff (h : Given env c) (hvalid : c.validate = .ok ()) :
    c.reread.validate = .ok () ↔
      c.cacheTtl.reread.isZero = false ∧ c.resetTimeout.reread.isZero = false := by
  have hcall := h.callTimeout.reread_eq
  have hhealth := h.healthTimeout.reread_eq
  obtain ⟨hendpoint, hcall', hhealth', -, hlimit, -, hservice⟩ := validate_eq_ok_iff.1 hvalid
  rw [validate_eq_ok_iff]
  simp only [reread, hcall, hhealth]
  constructor
  · rintro ⟨-, -, -, hcache, -, hreset, -⟩
    exact ⟨hcache, hreset⟩
  · rintro ⟨hcache, hreset⟩
    exact ⟨hendpoint, hcall', hhealth', hcache, hlimit, hreset, hservice⟩

/-- **What is read back of settings that were written.** Settings that were loaded, from a file or
without, with the environment or without, are written as a text from which settings are read again,
each span of time modulo `2 ^ 64` milliseconds. They are the same settings, field by field, exactly
when the two lifetimes of the cache and the span before the breaker lets a call through need no more
bits; they are accepted again exactly when the lifetime of a principal and that span do not become
zero, so the same settings always are. Settings that are not read back have one of the three spans
from a variable of the environment, whose value in seconds needs more bits in milliseconds; whatever
a file says is read back. -/
theorem reread_exactly {file : Option File} (h : load file env = .ok c) :
    ofText c.toJson.text = .ok c.reread ∧
    (c.reread = c ↔ c.cacheTtl.wholeMillis < Nat.pow 2 64 ∧ c.negativeCacheTtl.wholeMillis < Nat.pow 2 64 ∧
      c.resetTimeout.wholeMillis < Nat.pow 2 64) ∧
    (c.reread.validate = .ok () ↔
      c.cacheTtl.reread.isZero = false ∧ c.resetTimeout.reread.isZero = false) ∧
    (c.reread = c → c.reread.validate = .ok ()) ∧
    (c.reread ≠ c → ∃ v ∈ [Variable.cacheTtl, .negativeCacheTtl, .resetTimeout], ∃ e ∈ env,
      ∃ value ∈ e v.name, ∃ n, Variable.readNat value = .ok n ∧ Nat.pow 2 64 ≤ n * 1000) := by
  obtain ⟨hgiven, hvalid⟩ := given_of_load h
  refine ⟨c.ofText_text hgiven.failureLimit, hgiven.reread_eq_iff,
    hgiven.validate_reread_iff hvalid, fun heq => ?_, fun hne => ?_⟩
  · rw [heq]
    exact hvalid
  by_cases hcache : c.cacheTtl.reread = c.cacheTtl
  · by_cases hnegative : c.negativeCacheTtl.reread = c.negativeCacheTtl
    · have hreset : c.resetTimeout.reread ≠ c.resetTimeout := fun hreset => hne <|
        hgiven.reread_eq_iff.2 ⟨hgiven.cacheTtl.reread_eq_iff.1 hcache,
          hgiven.negativeCacheTtl.reread_eq_iff.1 hnegative,
          hgiven.resetTimeout.reread_eq_iff.1 hreset⟩
      exact ⟨.resetTimeout, by simp, hgiven.resetTimeout.exists_of_reread_ne hreset⟩
    · exact ⟨.negativeCacheTtl, by simp, hgiven.negativeCacheTtl.exists_of_reread_ne hnegative⟩
  · exact ⟨.cacheTtl, by simp, hgiven.cacheTtl.exists_of_reread_ne hcache⟩

/-- A lifetime of so many seconds is still accepted once it is read back, but is a fraction of a
second; from a file the same settings are read back as they are. -/
theorem reread_exactly_shortened :
    let env : Environment := fun name =>
      if name = "BASTION_CACHE_TTL_SECS" then some "18446744073709552" else none
    let file : File := ⟨"auth.json", some "\x7b\"cache_ttl_ms\":18446744073709551615\x7d".toUTF8⟩
    let c : Config := { cacheTtl := .ofSecs 18446744073709552 }
    let c' : Config := { cacheTtl := .ofMillis 18446744073709551615 }
    load none (some env) = .ok c ∧ ofText c.toJson.text = .ok { c with cacheTtl := .ofMillis 384 } ∧
      c.reread.validate = .ok () ∧
      load (some file) none = .ok c' ∧ ofText c'.toJson.text = .ok c' := by
  intro env file c c'
  have hload : load none (some env) = .ok c := by decide +kernel
  have hload' : load (some file) none = .ok c' := by decide +kernel
  obtain ⟨hread, -, hvalid, -⟩ := reread_exactly hload
  obtain ⟨hread', hsame, -⟩ := reread_exactly hload'
  have hreread : c.reread = { c with cacheTtl := .ofMillis 384 } := by decide +kernel
  have hfits : c'.reread = c' := hsame.2 (by decide +kernel)
  rw [hreread] at hread
  rw [hfits] at hread'
  exact ⟨hload, hread, hvalid.2 (by decide +kernel), hload', hread'⟩

/-- A breaker that waits for a whole power of two of seconds is written as one that does not wait at
all, and these settings are refused. -/
theorem reset_timeout_lost :
    let env : Environment := fun name =>
      if name = "BASTION_BREAKER_RESET_SECS" then some "2305843009213693952" else none
    ∃ c c' : Config, load none (some env) = .ok c ∧ ofText c.toJson.text = .ok c' ∧ c' ≠ c ∧
      c'.validate = .error (.validation "reset_timeout" "must be greater than zero") := by
  intro env
  let c : Config := { resetTimeout := .ofSecs 2305843009213693952 }
  exact ⟨c, c.reread, by decide +kernel, c.ofText_text (by decide), by decide +kernel,
    by decide +kernel⟩

end Config

end AccessGate
