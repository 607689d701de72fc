import AccessGate.Config.Load
import AccessGate.Proofs.Gate.Room
import AccessGate.Proofs.Message.Agreement

/-!
# When a message is delivered

A callback runs on a message exactly once, as it came, if the message has a header, names a scope
where the operation needs one, and makes a request that is let in; else it does not run, and the
caller is told of the failure (`Gate.delivered_exactly`). Only where the request breaks off is there
no reply (`Gate.Unanswered`). All that counts of a message is its header, so two messages with one
header fare alike and leave the gate and the validator in the same state
(`Gate.effects_serve?_congr`); and all that counts of an object for its header is the last
credential and the last scope in it (`RequestHeader.parse_congr`).
-/

namespace AccessGate

open Json

/-! ## The header of an object -/

namespace RequestHeader

variable {operation message message' : String} {ms ms' : List (String × Json)}
  {header : RequestHeader}

/-- Objects with the same last credential and scope have the same header, or the same fault. -/
theorem parse_congr (hparse : Json.parse? message = some (.object ms))
    (hparse' : Json.parse? message' = some (.object ms'))
    (hcredential : (object ms).member? "credential" = (object ms').member? "credential")
    (hscope : (object ms).member? "scope" = (object ms').member? "scope") :
    parse operation message = parse operation message' := by
  have hfields (key : String) (hkey : isField fields key = true) :
      (object ms).member? key = (object ms').member? key := by
    simp only [isField, fields, Field.may, List.any_cons, List.any_nil, Bool.or_false,
      Bool.or_eq_true, beq_iff_eq] at hkey
    rcases hkey with rfl | rfl
    · exact hcredential
    · exact hscope
  have hread : ofJson .value (object ms).canonical = ofJson .value (object ms').canonical := by
    have htake := takeFields_canonical_congr [] hfields
    simp only [canonical, Json.members] at htake
    simp only [ofJson, asRecord, canonical, htake]
  simp only [parse, hparse, hparse', isObject, Bool.not_true, Bool.false_eq_true, if_false, hread]

/-- The text that a member tells which may be left out: its own, or none where there is no
member. -/
def Tells (member : Option Json) (text : String) : Prop := member.getD (.string "") = .string text

/-- Making something canonical makes no new text of it. -/
theorem canonical_eq_string {j : Json} {s : String} : j.canonical = .string s ↔ j = .string s := by
  cases j <;> simp [canonical]

/-- A field that may be left out is read from what was kept of an object as a map exactly when the
last member with its key tells the text. -/
theorem fieldOr_eq_ok_iff {fields : List Field} {kept : List (String × Json)} {key text : String}
    (hkey : isField fields key = true)
    (htake : takeFields fields [] (object ms).canonical.members = .ok kept) :
    fieldOr kept key "" asString = .ok text ↔ Tells ((object ms).member? key) text := by
  obtain ⟨rfl, -, -⟩ := takeFields_nil_eq_ok_iff.1 htake
  have hvalue : valueOf? ((object ms).canonical.members.filter fun m => isField fields m.1) key =
      ((object ms).member? key).map Json.canonical := by
    rw [valueOf?_filter hkey, valueOf?_canonical]
    rfl
  rw [fieldOr_eq, hvalue, Tells]
  cases (object ms).member? key with
  | none => simp
  | some v =>
    rw [Option.getD_some, ← canonical_eq_string]
    exact asString_eq_ok_iff

/-- The fields of a header can be taken from an object as a map when the last credential and the
last scope tell texts. -/
theorem exists_takeFields (hcredential : Tells ((object ms).member? "credential") header.credential)
    (hscope : Tells ((object ms).member? "scope") header.scope) :
    ∃ kept, takeFields fields [] (object ms).canonical.members = .ok kept := by
  have hnodup : ((object ms).canonical.members.map Prod.fst).Nodup := by
    rw [canonical]
    exact nodup_keys_sortMembers _
  refine ⟨_, takeFields_nil_eq_ok_iff.2 ⟨rfl, nodup_keys_filter _ hnodup, ?_⟩⟩
  intro m hm f hf
  have hlast : ((object ms).member? m.1).map Json.canonical = some m.2 := by
    have hvalue := (valueOf?_eq_some_iff hnodup).2 hm
    rwa [valueOf?_canonical] at hvalue
  have hstring {key text : String} (hkey : key = m.1)
      (htells : Tells ((object ms).member? key) text) : m.2 = .string text := by
    obtain ⟨v, hv, hm⟩ := Option.map_eq_some_iff.1 hlast
    rw [Tells, hkey, hv, Option.getD_some] at htells
    rw [← hm, htells, canonical]
  have hkey : f.key = m.1 := by simpa using List.find?_some hf
  have hmem := List.mem_of_find?_eq_some hf
  simp only [fields, List.mem_cons, List.not_mem_nil, or_false] at hmem
  rcases hmem with rfl | rfl
  · rw [hstring hkey hcredential]
    rfl
  · rw [hstring hkey hscope]
    rfl

/-- An object as a map has a header exactly when its last credential and its last scope tell texts;
these are the header. -/
theorem ofJson_canonical_eq_ok_iff :
    ofJson .value (object ms).canonical = .ok header ↔
      Tells ((object ms).member? "credential") header.credential ∧
        Tells ((object ms).member? "scope") header.scope := by
  have hread {kept : List (String × Json)}
      (htake : takeFields fields [] (object ms).canonical.members = .ok kept) :
      ofJson .value (object ms).canonical = ofFields kept := by
    simp only [canonical, Json.members] at htake
    rw [canonical, ofJson, asRecord, htake]
    rfl
  constructor
  · intro h
    cases htake : takeFields fields [] (object ms).canonical.members with
    | error fault =>
      simp only [canonical, Json.members] at htake
      rw [canonical, ofJson, asRecord, htake] at h
      cases h
    | ok kept =>
      rw [hread htake, ofFields] at h
      cases hc : fieldOr kept "credential" "" asString with
      | error fault => rw [hc] at h; cases h
      | ok credential =>
        cases hs : fieldOr kept "scope" "" asString with
        | error fault => rw [hc, hs] at h; cases h
        | ok scope =>
          rw [hc, hs] at h
          obtain rfl := Except.ok.inj h
          exact ⟨(fieldOr_eq_ok_iff rfl htake).1 hc, (fieldOr_eq_ok_iff rfl htake).1 hs⟩
  · rintro ⟨hcredential, hscope⟩
    obtain ⟨kept, htake⟩ := exists_takeFields hcredential hscope
    rw [hread htake, ofFields, (fieldOr_eq_ok_iff rfl htake).2 hcredential,
      (fieldOr_eq_ok_iff rfl htake).2 hscope]
    rfl

/-- A message has a header exactly when it is an object of which the last credential and the last
scope tell texts; these are the header. -/
theorem parse_eq_ok_iff :
    parse operation message = .ok header ↔
      ∃ ms, Json.parse? message = some (.object ms) ∧
        Tells ((object ms).member? "credential") header.credential ∧
        Tells ((object ms).member? "scope") header.scope := by
  constructor
  · intro h
    unfold parse at h
    cases hparse : Json.parse? message with
    | none => rw [hparse] at h; cases h
    | some j =>
      rw [hparse] at h
      cases j with
      | object ms =>
        simp only [isObject, Bool.not_true, Bool.false_eq_true, if_false] at h
        cases hread : ofJson .value (object ms).canonical with
        | error fault => rw [hread] at h; cases h
        | ok read =>
          rw [hread] at h
          obtain rfl := Except.ok.inj h
          exact ⟨ms, rfl, ofJson_canonical_eq_ok_iff.1 hread⟩
      | null | bool | number | string | array => cases h
  · rintro ⟨ms, hparse, htells⟩
    exact parse_of_ofJson hparse (ofJson_canonical_eq_ok_iff.2 htells)

end RequestHeader

/-! ## The request of a message -/

namespace Gate

variable {σ τ τ' : Type} {g : Gate} {v : Validator σ} {s : σ} {wall : WallClock}
  {operation message message' : String} {handler : Handler} {c : Callback τ} {now : Instant}
  {t : τ} {header : RequestHeader} {r : Request} {e : Error}

/-- That a header names a scope where an operation needs one. -/
def Scoped (g : Gate) (operation : String) (header : RequestHeader) : Prop :=
  header.scope ≠ "" ∨ g.requiresScope operation = false

/-- A message with a header that names a scope where it must makes the request of its header. -/
theorem requestOf_of_scoped (hheader : RequestHeader.parse operation message = .ok header)
    (hscoped : g.Scoped operation header) :
    g.requestOf operation message = .ok ⟨operation, header.credential, header.scope⟩ := by
  have hcheck : (header.scope.isEmpty && g.requiresScope operation) = false := by
    rcases hscoped with h | h <;> simp [h]
  rw [requestOf, hheader]
  simp only [bind, Except.bind, hcheck, Bool.false_eq_true, if_false]

/-- A message that names no scope where it must is malformed. -/
theorem requestOf_of_not_scoped (hheader : RequestHeader.parse operation message = .ok header)
    (hscoped : ¬ g.Scoped operation header) :
    g.requestOf operation message = .error (.malformedRequest operation "missing scope") := by
  have hcheck : (header.scope.isEmpty && g.requiresScope operation) = true := by
    simpa [Scoped] using hscoped
  rw [requestOf, hheader]
  simp only [bind, Except.bind, hcheck, if_true]

/-- A message without a header makes no request. -/
theorem requestOf_of_error (hheader : RequestHeader.parse operation message = .error e) :
    g.requestOf operation message = .error e := by
  rw [requestOf, hheader]
  rfl

/-- The request that a message makes depends on its header only. -/
theorem requestOf_congr
    (h : RequestHeader.parse operation message' = RequestHeader.parse operation message) :
    g.requestOf operation message' = g.requestOf operation message := by
  rw [requestOf, requestOf, h]

/-! ## Letting a message in -/

/-- That a message to an operation is let in: it has a header with a scope where one is needed, and
the request that it makes is granted. -/
def LetsIn (g : Gate) (v : Validator σ) (s : σ) (wall : WallClock) (operation message : String)
    (now : Instant) : Prop :=
  ∃ header done a, RequestHeader.parse operation message = .ok header ∧ g.Scoped operation header ∧
    g.authorize? v s wall ⟨operation, header.credential, header.scope⟩ now = some done ∧
    done.result = .ok a

/-- Why a message to an operation is not let in. -/
inductive Refuses (g : Gate) (v : Validator σ) (s : σ) (wall : WallClock)
    (operation message : String) (now : Instant) : Error → Prop
  /-- It has no header. -/
  | unread {e : Error} : RequestHeader.parse operation message = .error e →
    Refuses g v s wall operation message now e
  /-- It names no scope, and the operation needs one. -/
  | unscoped {header : RequestHeader} : RequestHeader.parse operation message = .ok header →
    ¬ g.Scoped operation header →
    Refuses g v s wall operation message now (.malformedRequest operation "missing scope")
  /-- The request that it makes fails. -/
  | denied {header : RequestHeader} {done : Finished σ (Except Error Authorization)} {e : Error} :
    RequestHeader.parse operation message = .ok header → g.Scoped operation header →
    g.authorize? v s wall ⟨operation, header.credential, header.scope⟩ now = some done →
    done.result = .error e → Refuses g v s wall operation message now e

/-- That a message to an operation has no reply: the request that it makes breaks off. -/
def Unanswered (g : Gate) (v : Validator σ) (s : σ) (wall : WallClock)
    (operation message : String) (now : Instant) : Prop :=
  ∃ header, RequestHeader.parse operation message = .ok header ∧ g.Scoped operation header ∧
    g.BreaksOff v s wall ⟨operation, header.credential, header.scope⟩ now

/-- A message that there is a reason not to let in is not let in. -/
theorem Refuses.not_letsIn (h : g.Refuses v s wall operation message now e) :
    ¬ g.LetsIn v s wall operation message now := by
  rintro ⟨header, done, a, hheader, hscoped, hdone, hresult⟩
  cases h with
  | unread hnone =>
    rw [hheader] at hnone
    cases hnone
  | unscoped hheader' hnot =>
    obtain rfl := Except.ok.inj (hheader.symm.trans hheader')
    exact hnot hscoped
  | denied hheader' _ hdone' hdenied =>
    obtain rfl := Except.ok.inj (hheader.symm.trans hheader')
    obtain rfl := Option.some.inj (hdone.symm.trans hdone')
    rw [hresult] at hdenied
    cases hdenied

/-- Authorizing a message breaks off, or lets it in, or gives the reason why not. -/
theorem admit?_cases (g : Gate) (v : Validator σ) (s : σ) (wall : WallClock)
    (operation message : String) (now : Instant) :
    (g.Unanswered v s wall operation message now ∧
        g.admit? v s wall operation message now = none) ∨
      ¬ g.Unanswered v s wall operation message now ∧
        ∃ done, g.admit? v s wall operation message now = some done ∧
          ((∃ a, g.LetsIn v s wall operation message now ∧ done.result = .ok a) ∨
            ∃ e, g.Refuses v s wall operation message now e ∧ done.result = .error e) := by
  cases hheader : RequestHeader.parse operation message with
  | error e =>
    refine .inr ⟨?_, ⟨.error e, g, s, now⟩, ?_, .inr ⟨e, .unread hheader, rfl⟩⟩
    · rintro ⟨header, hheader', -⟩
      cases hheader.symm.trans hheader'
    · rw [admit?, requestOf_of_error hheader]
  | ok header =>
    by_cases hscoped : g.Scoped operation header
    case neg =>
      refine .inr ⟨?_, ⟨_, g, s, now⟩, ?_, .inr ⟨_, .unscoped hheader hscoped, rfl⟩⟩
      · rintro ⟨header', hheader', hscoped', -⟩
        obtain rfl := Except.ok.inj (hheader.symm.trans hheader')
        exact hscoped hscoped'
      · rw [admit?, requestOf_of_not_scoped hheader hscoped]
    simp only [admit?, requestOf_of_scoped hheader hscoped]
    rcases g.authorize?_cases v s wall ⟨operation, header.credential, header.scope⟩ now with
      ⟨hbreaks, hnone⟩ | ⟨hends, hdone⟩
    · exact .inl ⟨⟨header, hheader, hscoped, hbreaks⟩, hnone⟩
    · refine .inr ⟨?_, _, hdone, ?_⟩
      · rintro ⟨header', hheader', -, hbreaks⟩
        obtain rfl := Except.ok.inj (hheader.symm.trans hheader')
        exact hends hbreaks
      · cases hresult :
            (g.authorize v s wall ⟨operation, header.credential, header.scope⟩ now).result with
        | ok a => exact .inl ⟨a, ⟨header, _, a, hheader, hscoped, hdone, hresult⟩, rfl⟩
        | error e => exact .inr ⟨e, .denied hheader hscoped hdone hresult, rfl⟩

/-- Whether a message is let in, and why not, depends on its header only. -/
theorem letsIn_congr
    (h : RequestHeader.parse operation message' = RequestHeader.parse operation message) :
    (g.LetsIn v s wall operation message' now ↔ g.LetsIn v s wall operation message now) ∧
      ∀ e, g.Refuses v s wall operation message' now e ↔
        g.Refuses v s wall operation message now e := by
  refine ⟨by rw [LetsIn, LetsIn, h], fun e => ⟨fun hrefused => ?_, fun hrefused => ?_⟩⟩
  · cases hrefused with
    | unread hnone => exact .unread (h.symm.trans hnone)
    | unscoped hheader hnot => exact .unscoped (h.symm.trans hheader) hnot
    | denied hheader hscoped hdone hresult =>
      exact .denied (h.symm.trans hheader) hscoped hdone hresult
  · cases hrefused with
    | unread hnone => exact .unread (h.trans hnone)
    | unscoped hheader hnot => exact .unscoped (h.trans hheader) hnot
    | denied hheader hscoped hdone hresult =>
      exact .denied (h.trans hheader) hscoped hdone hresult

/-! ## Serving -/

/-- A message that makes no request leaves everything as it is. -/
theorem serve_of_error (h : g.requestOf operation message = .error e) :
    g.serve v s wall operation handler message now = ⟨⟨.ofError e, []⟩, g, s, now⟩ := by
  rw [serve, h]
  rfl

/-- A message that makes a request does what authorizing the request does. -/
theorem serve_of_ok (h : g.requestOf operation message = .ok r) :
    g.serve v s wall operation handler message now =
      ⟨.ofResult handler message (g.authorize v s wall r now).result,
        (g.authorize v s wall r now).gate, (g.authorize v s wall r now).remote,
        (g.authorize v s wall r now).finish⟩ := by
  rw [serve, h]

/-- A message has no reply exactly where authorizing it breaks off. -/
theorem serve?_eq_none_iff :
    g.serve? v s wall operation c message now t = none ↔
      g.admit? v s wall operation message now = none := by
  rw [serve?]
  cases g.admit? v s wall operation message now <;> simp

/-- Where authorizing a message ends, so does serving it, with the answer to the result. -/
theorem serve?_of_admit? {done : Finished σ (Except Error Authorization)}
    (h : g.admit? v s wall operation message now = some done) :
    g.serve? v s wall operation c message now t =
      some ⟨answer c message t done.result, done.gate, done.remote, done.finish⟩ := by
  rw [serve?, h]
  rfl

/-- A message that has a reply was let in, and the callback was run on it, or there is the reason why
not. -/
theorem serve?_cases {done : Finished σ (Reply × τ)}
    (h : g.serve? v s wall operation c message now t = some done) :
    (g.LetsIn v s wall operation message now ∧ done.result = c.run message t) ∨
      ∃ e, g.Refuses v s wall operation message now e ∧ done.result = (.ofError e, t) := by
  rcases g.admit?_cases v s wall operation message now with
    ⟨-, hnone⟩ | ⟨-, admitted, hdone, hanswer⟩
  · rw [serve?_eq_none_iff.2 hnone] at h
    cases h
  obtain rfl := Option.some.inj ((serve?_of_admit? hdone).symm.trans h)
  rcases hanswer with ⟨a, hin, hresult⟩ | ⟨e, hrefused, hresult⟩
  · exact .inl ⟨hin, by rw [hresult, answer]⟩
  · exact .inr ⟨e, hrefused, by rw [hresult, answer]⟩

/-- Where a message to a handler has a reply, it is served as if lifetimes always fitted the
clock. -/
theorem serve_of_serve? {done : Finished σ (Reply × List String)}
    (h : g.serve? v s wall operation handler.noting message now [] = some done) :
    g.serve v s wall operation handler message now =
      ⟨⟨done.result.1, done.result.2⟩, done.gate, done.remote, done.finish⟩ := by
  cases hr : g.requestOf operation message with
  | error e =>
    have hrequest : g.admit? v s wall operation message now = some ⟨.error e, g, s, now⟩ := by
      rw [admit?, hr]
    obtain rfl := Option.some.inj ((serve?_of_admit? hrequest).symm.trans h)
    exact serve_of_error hr
  | ok r =>
    have hrequest : g.admit? v s wall operation message now = g.authorize? v s wall r now := by
      rw [admit?, hr]
    rcases g.authorize?_cases v s wall r now with ⟨-, hnone⟩ | ⟨-, hdone⟩
    · rw [serve?_eq_none_iff.2 (hrequest.trans hnone)] at h
      cases h
    · obtain rfl := Option.some.inj ((serve?_of_admit? (hrequest.trans hdone)).symm.trans h)
      exact serve_of_ok hr

/-- What serving a message does beside the reply. -/
def Finished.effects {α : Type} (f : Finished σ α) : Gate × σ × Instant :=
  (f.gate, f.remote, f.finish)

/-- What serving a message does beside the reply depends on its header only. -/
theorem effects_serve?_congr (c' : Callback τ') (t' : τ')
    (h : RequestHeader.parse operation message' = RequestHeader.parse operation message) :
    (g.serve? v s wall operation c' message' now t').map Finished.effects =
      (g.serve? v s wall operation c message now t).map Finished.effects := by
  have hrequest : g.admit? v s wall operation message' now =
      g.admit? v s wall operation message now := by
    rw [admit?, admit?, requestOf_congr h]
  rw [serve?, serve?, hrequest]
  cases g.admit? v s wall operation message now <;> rfl

/-- **A message is delivered exactly when it is let in.** Take any gate, validator, operation and
message, and any callback with what it works on; the callback comes back, with a reply or a failure.
There is no reply exactly where the request of the message breaks off for want of room in the clock,
which it never does with lifetimes that end within the clock at the deadline. Otherwise, if the
message is let in, the callback is run once, on the message as it came: what it works on is left as
that run leaves it, and the reply is the callback's, or tells of its failure. If the message is not
let in, what the callback works on is left alone, and the reply tells why. So a handler has noted
the message, once, exactly if it was let in, and is served as if lifetimes always fitted the clock.
A message has a header exactly when it is an object of
which the last credential and the last scope tell texts. Another message with the same header is let
in or refused alike and with the same effects, whatever else there is in it, and so are two objects
with the same last credential and the same last scope. -/
theorem delivered_exactly (g : Gate) (v : Validator σ) (s : σ) (wall : WallClock)
    (operation : String) (c : Callback τ) (message : String) (now : Instant) (t : τ) :
    (g.serve? v s wall operation c message now t = none ↔
      g.Unanswered v s wall operation message now) ∧
    ((g.cache.settings.ttl.after (g.config.callTimeout.after now)).Fits →
      (g.cache.settings.negativeTtl.after (g.config.callTimeout.after now)).Fits →
      ∃ done, g.serve? v s wall operation c message now t = some done) ∧
    (∀ done, g.serve? v s wall operation c message now t = some done →
      (g.LetsIn v s wall operation message now →
        (∀ reply t', c message t = (.ok reply, t') → done.result = (reply, t')) ∧
        ∀ e t', c message t = (.error e, t') → done.result = (.ofError e, t')) ∧
      (¬ g.LetsIn v s wall operation message now →
        ∃ e, g.Refuses v s wall operation message now e ∧ done.result = (.ofError e, t))) ∧
    (∀ (handler : Handler) done,
      g.serve? v s wall operation handler.noting message now [] = some done →
      (done.result.2 = [message] ↔ g.LetsIn v s wall operation message now) ∧
        (done.result.2 = [] ↔ ¬ g.LetsIn v s wall operation message now) ∧
        g.serve v s wall operation handler message now =
          ⟨⟨done.result.1, done.result.2⟩, done.gate, done.remote, done.finish⟩) ∧
    (∀ header, RequestHeader.parse operation message = .ok header ↔
      ∃ ms, Json.parse? message = some (.object ms) ∧
        RequestHeader.Tells ((object ms).member? "credential") header.credential ∧
        RequestHeader.Tells ((object ms).member? "scope") header.scope) ∧
    ∀ {τ' : Type} (c' : Callback τ') (t' : τ') message',
      RequestHeader.parse operation message' = RequestHeader.parse operation message ∨
        (∃ ms ms', Json.parse? message = some (.object ms) ∧
          Json.parse? message' = some (.object ms') ∧
          (object ms').member? "credential" = (object ms).member? "credential" ∧
          (object ms').member? "scope" = (object ms).member? "scope") →
      (g.serve? v s wall operation c' message' now t').map Finished.effects =
          (g.serve? v s wall operation c message now t).map Finished.effects ∧
        (g.LetsIn v s wall operation message' now ↔ g.LetsIn v s wall operation message now) ∧
        ∀ e, g.Refuses v s wall operation message' now e ↔
          g.Refuses v s wall operation message now e := by
  have hcases := g.admit?_cases v s wall operation message now
  refine ⟨serve?_eq_none_iff.trans ?_, fun httl hnegative => ?_, fun done hserved => ?_,
    fun handler done hserved => ?_, fun header => RequestHeader.parse_eq_ok_iff, ?_⟩
  · rcases hcases with ⟨hbreaks, hnone⟩ | ⟨hends, done, hdone, -⟩
    · exact iff_of_true hnone hbreaks
    · exact iff_of_false (by rw [hdone]; exact Option.some_ne_none _) hends
  · rcases hcases with ⟨⟨header, -, -, hbreaks⟩, -⟩ | ⟨-, done, hdone, -⟩
    · exact absurd hbreaks (not_breaksOff_of_fits httl hnegative)
    · exact ⟨_, serve?_of_admit? hdone⟩
  · rcases serve?_cases hserved with ⟨hin, hresult⟩ | ⟨e, hrefused, hresult⟩
    · refine ⟨fun _ => ⟨fun reply t' hran => ?_, fun e t' hran => ?_⟩, absurd hin⟩
      · rw [hresult, Callback.run, hran]
      · rw [hresult, Callback.run, hran]
    · exact ⟨fun hin => absurd hin hrefused.not_letsIn, fun _ => ⟨e, hrefused, hresult⟩⟩
  · refine and_assoc.1 ⟨?_, serve_of_serve? hserved⟩
    rcases serve?_cases hserved with ⟨hin, hresult⟩ | ⟨e, hrefused, hresult⟩
    · simp [hresult, hin]
    · simp [hresult, hrefused.not_letsIn]
  · rintro τ' c' t' message' (hsame | ⟨ms, ms', hparse, hparse', hcredential, hscope⟩)
    · exact ⟨effects_serve?_congr c' t' hsame, letsIn_congr hsame⟩
    · have hsame : RequestHeader.parse operation message' = RequestHeader.parse operation message :=
        RequestHeader.parse_congr hparse' hparse hcredential hscope
      exact ⟨effects_serve?_congr c' t' hsame, letsIn_congr hsame⟩

/-- A message that names the service which owns the scope is refused like one that does not. Where
it is let in, the callback runs once on it: one that answers with the message has it in the reply,
and of one that fails the reply tells no more than that. -/
theorem delivered_exactly_forged_service :
    let plain := "\x7b\"credential\":\"t\",\"scope\":\"org.x\"\x7d"
    let forged := "\x7b\"service\":\"svc\",\"scope\":\"org.x\",\"credential\":\"t\"\x7d"
    let v : Validator Unit :=
      { endpoint := "v"
        validate := fun _ _ _ => (.now (.ok {
          valid := true, principalId := some "u", permissions := ["state:data:read"] }), ())
        ping := fun _ _ => (.now (.ok ()), ()) }
    let wall : WallClock := fun _ => ⟨0, 0⟩
    let echo : Callback Nat := fun message n => (.ok (.ok (some (.string message))), n + 1)
    let failing : Callback Nat := fun _ n => (.error (.network "10.0.0.7:443" "refused"), n + 1)
    ∃ g, Gate.build {} { ownership := Ownership.register {} "org.x" "svc" } 0 = .ok g ∧
      g.ownership.isOwner "org.x" "svc" = true ∧
      RequestHeader.parse "set" forged = RequestHeader.parse "set" plain ∧
      (∃ e, g.Refuses v () wall "set" plain 0 e ∧
        (g.serve? v () wall "set" echo forged 0 0).map (·.result) = some (.ofError e, 0)) ∧
      g.LetsIn v () wall "get" forged 0 ∧
      (g.serve? v () wall "get" echo forged 0 0).map (·.result) =
        some (.ok (some (.string forged)), 1) ∧
      (g.serve? v () wall "get" failing forged 0 0).map (·.result) =
        some (.ofError (.network "10.0.0.7:443" "refused"), 1) := by
  intro plain forged v wall echo failing
  let handler : Handler := fun _ => .ok (.ok none)
  obtain ⟨g, hbuild, howner, hset, hget⟩ :
      ∃ g, Gate.build {} { ownership := Ownership.register {} "org.x" "svc" } 0 = .ok g ∧
        g.ownership.isOwner "org.x" "svc" = true ∧
        (g.serve? v () wall "set" handler.noting forged 0 []).map (·.result.2) = some [] ∧
        (g.serve? v () wall "get" handler.noting forged 0 []).map (·.result.2) = some [forged] :=
    ⟨_, rfl, by decide +kernel, by decide +kernel, by decide +kernel⟩
  have hsame : RequestHeader.parse "set" forged = RequestHeader.parse "set" plain := by
    decide +kernel
  have hserved {operation : String} {noted : List String} {c : Callback Nat}
      (h : (g.serve? v () wall operation handler.noting forged 0 []).map (·.result.2) =
        some noted) : ∃ done, g.serve? v () wall operation c forged 0 0 = some done := by
    refine Option.ne_none_iff_exists'.1 fun hnone => ?_
    rw [serve?_eq_none_iff.2 (serve?_eq_none_iff.1 hnone)] at h
    cases h
  refine ⟨g, hbuild, howner, hsame, ?_, ?_⟩
  · obtain ⟨done, hdone⟩ := hserved hset (c := echo)
    obtain ⟨noting, hnoting, hnoted⟩ := Option.map_eq_some_iff.1 hset
    obtain ⟨-, -, hanswer, hnotes, -⟩ := g.delivered_exactly v () wall "set" echo forged 0 0
    obtain ⟨e, hrefused, hresult⟩ :=
      (hanswer done hdone).2 ((hnotes handler noting hnoting).2.1.1 hnoted)
    obtain ⟨-, -, -, -, -, hcongr⟩ := g.delivered_exactly v () wall "set" echo plain 0 0
    obtain ⟨-, -, hrefuses⟩ := hcongr echo 0 forged (.inl hsame)
    exact ⟨e, (hrefuses e).1 hrefused, by rw [hdone, Option.map_some, hresult]⟩
  · obtain ⟨noting, hnoting, hnoted⟩ := Option.map_eq_some_iff.1 hget
    obtain ⟨-, -, hecho, hnotes, -⟩ := g.delivered_exactly v () wall "get" echo forged 0 0
    obtain ⟨-, -, hfailing, -⟩ := g.delivered_exactly v () wall "get" failing forged 0 0
    have hin : g.LetsIn v () wall "get" forged 0 := (hnotes handler noting hnoting).1.1 hnoted
    obtain ⟨echoed, hechoed⟩ := hserved hget (c := echo)
    obtain ⟨failed, hfailed⟩ := hserved hget (c := failing)
    refine ⟨hin, ?_, ?_⟩
    · rw [hechoed, Option.map_some, ((hecho echoed hechoed).1 hin).1 _ _ rfl]
    · rw [hfailed, Option.map_some, ((hfailing failed hfailed).1 hin).2 _ _ rfl]

end Gate

/-- With a lifetime of almost `2 ^ 64` seconds the settings are accepted, and the first message that
the validator vouches for has no reply, whatever the callback is. -/
theorem Config.message_unanswered :
    let env : Environment := fun name =>
      if name = "BASTION_CACHE_TTL_SECS" then some "18446744073709551615" else none
    let config : Config := { cacheTtl := .ofSecs 18446744073709551615 }
    let v : Validator Unit :=
      { endpoint := "v"
        validate := fun _ _ _ => (.now (.ok {
          valid := true, principalId := some "u", permissions := ["state:data:read"] }), ())
        ping := fun _ _ => (.now (.ok ()), ()) }
    let message := "\x7b\"credential\":\"tok\",\"scope\":\"org.x\"\x7d"
    load none (some env) = .ok config ∧
      ∃ g, Gate.build config {} 0 = .ok g ∧
        ∀ {τ : Type} (c : Callback τ) (t : τ),
          g.serve? v () (fun _ => ⟨0, 0⟩) "get" c message 0 t = none := by
  intro env config v message
  have hload : load none (some env) = .ok config := by decide +kernel
  have hvalid : config.validate = .ok () := by decide +kernel
  obtain ⟨g, hg⟩ : ∃ g, Gate.build config {} 0 = .ok g := by
    rw [Gate.build, hvalid]
    exact ⟨_, rfl⟩
  have hbroken : ((Gate.build config {} 0).toOption.map
      fun g => (g.admit? v () (fun _ => ⟨0, 0⟩) "get" message 0).isNone) = some true := by
    decide +kernel
  rw [hg] at hbroken
  have hnone := Option.isNone_iff_eq_none.1 (Option.some.inj hbroken)
  exact ⟨hload, g, hg, fun c t => Gate.serve?_eq_none_iff.2 hnone⟩

end AccessGate
