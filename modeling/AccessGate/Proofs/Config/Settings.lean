import AccessGate.Config.Load
import AccessGate.Proofs.Json.Entries

/-!
# Settings one by one

A `Config` is looked at as one value for each variable of the environment (`Config.get`), which are
all there is to it (`Config.ext_get`). A file gives a value for some of them, each under a key of
its own (`Variable.key`, `Variable.decode`), and every other setting has its default
(`Config.base_eq_ok_iff`).
-/

namespace AccessGate

open Json

/-- The value of a setting. -/
inductive Setting
  | text (s : String)
  | flag (b : Bool)
  | span (d : Duration)
  | count (n : Nat)
  | name (s : Option String)
deriving DecidableEq

namespace Config

/-- Settings break no rule exactly when none of the rules is broken. -/
theorem validate_eq_ok_iff {c : Config} :
    c.validate = .ok () ↔ Text.isBlank c.identityEndpoint = false ∧
      c.callTimeout.isZero = false ∧ c.healthTimeout.isZero = false ∧
      c.cacheTtl.isZero = false ∧ c.failureLimit ≠ 0 ∧ c.resetTimeout.isZero = false ∧
      c.serviceName.any Text.isBlank = false := by
  have hvalidate : c.validate = .ok () ↔ c.fault? = none := by
    unfold validate
    cases c.fault? <;> simp
  rw [hvalidate, fault?]
  split_ifs <;> simp_all

/-- The setting that a variable is for. -/
def get (c : Config) : Variable → Setting
  | .identityEndpoint => .text c.identityEndpoint
  | .enabled => .flag c.enabled
  | .callTimeout => .span c.callTimeout
  | .healthTimeout => .span c.healthTimeout
  | .cacheTtl => .span c.cacheTtl
  | .negativeCacheTtl => .span c.negativeCacheTtl
  | .failureLimit => .count c.failureLimit
  | .resetTimeout => .span c.resetTimeout
  | .degradeOnStartupFailure => .flag c.degradeOnStartupFailure
  | .serviceName => .name c.serviceName

variable {c c' : Config} {j : Json} {source : Source} {given : List (String × Json)}

/-- Settings are the same if each of them is. -/
theorem ext_get (h : ∀ v, c.get v = c'.get v) : c = c' := by
  obtain ⟨identityEndpoint, enabled, callTimeout, healthTimeout, cacheTtl, negativeCacheTtl,
    failureLimit, resetTimeout, degrade, serviceName⟩ := c
  obtain ⟨identityEndpoint', enabled', callTimeout', healthTimeout', cacheTtl', negativeCacheTtl',
    failureLimit', resetTimeout', degrade', serviceName'⟩ := c'
  obtain rfl := Setting.text.inj (h .identityEndpoint)
  obtain rfl := Setting.flag.inj (h .enabled)
  obtain rfl := Setting.span.inj (h .callTimeout)
  obtain rfl := Setting.span.inj (h .healthTimeout)
  obtain rfl := Setting.span.inj (h .cacheTtl)
  obtain rfl := Setting.span.inj (h .negativeCacheTtl)
  obtain rfl := Setting.count.inj (h .failureLimit)
  obtain rfl := Setting.span.inj (h .resetTimeout)
  obtain rfl := Setting.flag.inj (h .degradeOnStartupFailure)
  obtain rfl := Setting.name.inj (h .serviceName)
  rfl

end Config

/-! ## What a file gives -/

namespace Variable

/-- The key of a setting in a file. -/
def key : Variable → String
  | identityEndpoint => "identity_endpoint"
  | enabled => "enabled"
  | callTimeout => "call_timeout_ms"
  | healthTimeout => "health_timeout_ms"
  | cacheTtl => "cache_ttl_ms"
  | negativeCacheTtl => "negative_cache_ttl_ms"
  | failureLimit => "failure_limit"
  | resetTimeout => "reset_timeout_ms"
  | degradeOnStartupFailure => "degrade_on_startup_failure"
  | serviceName => "service_name"

/-- The value of a setting in a file: spans are in milliseconds, and only a name may be null. -/
def decode (v : Variable) (j : Json) : Except DecodeError Setting :=
  match v with
  | identityEndpoint => (asString j).map .text
  | enabled | degradeOnStartupFailure => (asBool j).map .flag
  | callTimeout | healthTimeout | cacheTtl | negativeCacheTtl | resetTimeout =>
    (asNat64 "u64" j).map fun n => .span (.ofMillis n)
  | failureLimit => (asNat64 "usize" j).map .count
  | serviceName => (asOption asString j).map .name

/-- The value of a setting by what a file gives: the value under its key, or the default. -/
def Filed (given : List (String × Json)) (v : Variable) (x : Setting) : Prop :=
  match valueOf? given v.key with
  | some j => v.decode j = .ok x
  | none => x = Config.get {} v

variable {v : Variable} {given : List (String × Json)}

/-- A file gives one value for a setting. -/
theorem Filed.unique {x x' : Setting} (h : v.Filed given x) (h' : v.Filed given x') : x = x' := by
  rw [Filed] at h h'
  cases hgiven : valueOf? given v.key with
  | none =>
    rw [hgiven] at h h'
    exact h.trans h'.symm
  | some j =>
    rw [hgiven] at h h'
    exact Except.ok.inj (h.symm.trans h')

/-- A field is read as the setting of a variable. -/
theorem filed_iff {α : Type} {key : String} {d a : α} {read : Json → Except DecodeError α}
    {f : α → Setting} (hf : ∀ a b, f a = f b → a = b) (hkey : v.key = key)
    (hdecode : ∀ j, v.decode j = (read j).map f) (hdefault : Config.get {} v = f d) :
    Filed given v (f a) ↔ fieldOr given key d read = .ok a := by
  rw [Filed, hkey, fieldOr_eq]
  cases valueOf? given key with
  | none =>
    rw [hdefault]
    simp only [Option.map_none, Option.getD_none, Except.ok.injEq]
    exact ⟨fun h => (hf _ _ h).symm, fun h => congrArg f h.symm⟩
  | some j =>
    simp only [hdecode, Option.map_some, Option.getD_some]
    cases read j with
    | error e => simp [Except.map]
    | ok b =>
      simp only [Except.map, Except.ok.injEq]
      exact ⟨hf _ _, congrArg f⟩

/-- A span as a setting is decoded as a span. -/
theorem decode_span {j : Json} :
    ((asNat64 "u64" j).map fun n => Setting.span (.ofMillis n)) =
      (Duration.ofJson j).map .span := by
  rw [Duration.ofJson]
  cases asNat64 "u64" j <;> rfl

end Variable

namespace Config

variable {c : Config} {j : Json} {source : Source} {text : String} {file : Option File}

/-- No field has the key of another. -/
theorem nodup_fields : (fields.map Field.key).Nodup := by decide

/-- Settings are read from a value exactly if it gives each setting once at most, and each is what
is given for it. -/
theorem ofJson_eq_ok_iff :
    ofJson source j = .ok c ↔
      ∃ given, entries? fields j = some given ∧ (given.map Prod.fst).Nodup ∧
        ∀ v, Variable.Filed given v (c.get v) := by
  have hflag (given : List (String × Json)) (d b : Bool) {v : Variable}
      (hdecode : ∀ j, v.decode j = (asBool j).map .flag) (hdefault : get {} v = .flag d) :
      v.Filed given (.flag b) ↔ fieldOr given v.key d asBool = .ok b :=
    Variable.filed_iff (fun _ _ => Setting.flag.inj) rfl hdecode hdefault
  have hspan (given : List (String × Json)) (d a : Duration) {v : Variable}
      (hdecode : ∀ j, v.decode j = (asNat64 "u64" j).map fun n => .span (.ofMillis n))
      (hdefault : get {} v = .span d) :
      v.Filed given (.span a) ↔ fieldOr given v.key d Duration.ofJson = .ok a :=
    Variable.filed_iff (fun _ _ => Setting.span.inj) rfl
      (fun j => (hdecode j).trans Variable.decode_span) hdefault
  have hidentityEndpoint (given : List (String × Json)) (s : String) :
      Variable.identityEndpoint.Filed given (.text s) ↔ _ :=
    Variable.filed_iff (fun _ _ => Setting.text.inj) rfl (fun _ => rfl) rfl
  have hfailureLimit (given : List (String × Json)) (n : Nat) :
      Variable.failureLimit.Filed given (.count n) ↔ _ :=
    Variable.filed_iff (fun _ _ => Setting.count.inj) rfl (fun _ => rfl) rfl
  have hserviceName (given : List (String × Json)) (s : Option String) :
      Variable.serviceName.Filed given (.name s) ↔ _ :=
    Variable.filed_iff (fun _ _ => Setting.name.inj) rfl (fun _ => rfl) rfl
  constructor
  · intro h
    obtain ⟨given, hrecord, h⟩ := bind_eq_ok_iff.1 h
    obtain ⟨identityEndpoint, h₁, h⟩ := bind_eq_ok_iff.1 h
    obtain ⟨enabled, h₂, h⟩ := bind_eq_ok_iff.1 h
    obtain ⟨callTimeout, h₃, h⟩ := bind_eq_ok_iff.1 h
    obtain ⟨healthTimeout, h₄, h⟩ := bind_eq_ok_iff.1 h
    obtain ⟨cacheTtl, h₅, h⟩ := bind_eq_ok_iff.1 h
    obtain ⟨negativeCacheTtl, h₆, h⟩ := bind_eq_ok_iff.1 h
    obtain ⟨failureLimit, h₇, h⟩ := bind_eq_ok_iff.1 h
    obtain ⟨resetTimeout, h₈, h⟩ := bind_eq_ok_iff.1 h
    obtain ⟨degrade, h₉, h⟩ := bind_eq_ok_iff.1 h
    obtain ⟨serviceName, h₁₀, h⟩ := bind_eq_ok_iff.1 h
    obtain rfl := Except.ok.inj h
    obtain ⟨hgiven, hcomplies⟩ := (asRecord_eq_ok_iff nodup_fields).1 hrecord
    refine ⟨given, hgiven, hcomplies.nodup, fun v => ?_⟩
    cases v with
    | identityEndpoint => exact (hidentityEndpoint _ _).2 h₁
    | enabled => exact (hflag _ _ _ (fun _ => rfl) rfl).2 h₂
    | callTimeout => exact (hspan _ _ _ (fun _ => rfl) rfl).2 h₃
    | healthTimeout => exact (hspan _ _ _ (fun _ => rfl) rfl).2 h₄
    | cacheTtl => exact (hspan _ _ _ (fun _ => rfl) rfl).2 h₅
    | negativeCacheTtl => exact (hspan _ _ _ (fun _ => rfl) rfl).2 h₆
    | failureLimit => exact (hfailureLimit _ _).2 h₇
    | resetTimeout => exact (hspan _ _ _ (fun _ => rfl) rfl).2 h₈
    | degradeOnStartupFailure => exact (hflag _ _ _ (fun _ => rfl) rfl).2 h₉
    | serviceName => exact (hserviceName _ _).2 h₁₀
  · rintro ⟨given, hgiven, hnodup, hfiled⟩
    have h₁ := (hidentityEndpoint given _).1 (hfiled .identityEndpoint)
    have h₂ := (hflag given _ _ (fun _ => rfl) rfl).1 (hfiled .enabled)
    have h₃ := (hspan given _ _ (fun _ => rfl) rfl).1 (hfiled .callTimeout)
    have h₄ := (hspan given _ _ (fun _ => rfl) rfl).1 (hfiled .healthTimeout)
    have h₅ := (hspan given _ _ (fun _ => rfl) rfl).1 (hfiled .cacheTtl)
    have h₆ := (hspan given _ _ (fun _ => rfl) rfl).1 (hfiled .negativeCacheTtl)
    have h₇ := (hfailureLimit given _).1 (hfiled .failureLimit)
    have h₈ := (hspan given _ _ (fun _ => rfl) rfl).1 (hfiled .resetTimeout)
    have h₉ := (hflag given _ _ (fun _ => rfl) rfl).1 (hfiled .degradeOnStartupFailure)
    have h₁₀ := (hserviceName given _).1 (hfiled .serviceName)
    -- A field that can be read passes its check, so the readings above make the record.
    have hcomplies : Complies fields given := by
      refine .of_fields hnodup ?_
      simp only [fields, List.forall_mem_cons]
      exact ⟨may_of_fieldOr h₁, may_of_fieldOr h₂, may_of_fieldOr h₃, may_of_fieldOr h₄,
        may_of_fieldOr h₅, may_of_fieldOr h₆, may_of_fieldOr h₇, may_of_fieldOr h₈,
        may_of_fieldOr h₉, may_of_fieldOr h₁₀, nofun⟩
    refine bind_eq_ok_iff.2 ⟨given, (asRecord_eq_ok_iff nodup_fields).2 ⟨hgiven, hcomplies⟩, ?_⟩
    refine bind_eq_ok_iff.2 ⟨_, h₁, bind_eq_ok_iff.2 ⟨_, h₂, bind_eq_ok_iff.2 ⟨_, h₃, ?_⟩⟩⟩
    refine bind_eq_ok_iff.2 ⟨_, h₄, bind_eq_ok_iff.2 ⟨_, h₅, bind_eq_ok_iff.2 ⟨_, h₆, ?_⟩⟩⟩
    refine bind_eq_ok_iff.2 ⟨_, h₇, bind_eq_ok_iff.2 ⟨_, h₈, bind_eq_ok_iff.2 ⟨_, h₉, ?_⟩⟩⟩
    exact bind_eq_ok_iff.2 ⟨_, h₁₀, rfl⟩

/-- What a file gives: the entries for settings in what is read of its text, no setting twice. No
file gives nothing. -/
def Gives (file : Option File) (given : List (String × Json)) : Prop :=
  match file with
  | none => given = []
  | some f => ∃ text j, f.read = .ok text ∧ looked? (.ofFields fields) text = some j ∧
      entries? fields j = some given ∧ (given.map Prod.fst).Nodup

/-- A file can be read as settings exactly if it gives them, and each setting is then what the file
gives for it, or its default. -/
theorem base_eq_ok_iff :
    base file = .ok c ↔ ∃ given, Gives file given ∧ ∀ v, Variable.Filed given v (c.get v) := by
  cases file with
  | none =>
    simp only [base, Gives, exists_eq_left, Except.ok.injEq]
    constructor
    · rintro rfl v
      exact rfl
    · intro h
      exact (ext_get h).symm
  | some f =>
    have hfile : base (some f) = .ok c ↔ ∃ text, f.read = .ok text ∧ ofText text = .ok c := by
      rw [base, ofFile, bind_eq_ok_iff]
      refine exists_congr fun text => and_congr_right fun _ => ?_
      cases ofText text <;> simp
    rw [hfile]
    simp only [ofText, decodeText_eq_ok_iff, ofJson_eq_ok_iff, Gives]
    constructor
    · rintro ⟨text, hread, j, hlooked, given, hgiven, hnodup, hfiled⟩
      exact ⟨given, ⟨text, j, hread, hlooked, hgiven, hnodup⟩, hfiled⟩
    · rintro ⟨given, ⟨text, j, hread, hlooked, hgiven, hnodup⟩, hfiled⟩
      exact ⟨text, hread, j, hlooked, given, hgiven, hnodup, hfiled⟩

/-- A file gives one thing. -/
theorem Gives.unique {given given' : List (String × Json)} (h : Gives file given)
    (h' : Gives file given') : given = given' := by
  cases file with
  | none => exact h.trans h'.symm
  | some f =>
    obtain ⟨text, j, hread, hlooked, hgiven, -⟩ := h
    obtain ⟨text', j', hread', hlooked', hgiven', -⟩ := h'
    obtain rfl := Except.ok.inj (hread.symm.trans hread')
    obtain rfl := Option.some.inj (hlooked.symm.trans hlooked')
    exact Option.some.inj (hgiven.symm.trans hgiven')

end Config

end AccessGate
