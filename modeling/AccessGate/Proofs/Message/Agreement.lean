import AccessGate.Gate.Callback
import AccessGate.Message.Envelope
import AccessGate.Proofs.Json.Fields

/-!
# The gate and the handler read the same header

The gate looks at the header of a message as a map, where the last of members with one key counts;
the handler reads its envelope from the members as they were written. A member that the two could
read differently is one that is there twice, and an envelope with a header field that is there twice
cannot be read at all. So whatever envelope a handler reads has the header that the gate saw
(`Envelope.parse_of_decode`), and whoever is handed a message was let in under the header that its
envelope has (`Envelope.header_agreement`).
-/

namespace AccessGate

open Json

namespace RequestHeader

/-- What passes the check of a header field is a string, the same as a map. -/
theorem canonical_of_check {f : Field} (hf : f ∈ fields) {v : Json} (h : f.check v = .ok ()) :
    v.canonical = v := by
  have hstring : ∃ s, asString v = .ok s := by
    cases hv : asString v with
    | ok s => exact ⟨s, rfl⟩
    | error fault =>
      simp only [fields, List.mem_cons, List.not_mem_nil, or_false] at hf
      rcases hf with rfl | rfl <;>
      · simp only [Field.may, hv] at h
        cases h
  obtain ⟨s, hs⟩ := hstring
  rw [asString_eq_ok_iff.1 hs, canonical]

/-- A header that can be read from the members of an object as they were written is the header of
the object as a map. -/
theorem ofJson_canonical {ms kept : List (String × Json)} {header : RequestHeader}
    (htake : takeFields fields [] ms = .ok kept) (hread : ofFields kept = .ok header) :
    ofJson .value (Json.object ms).canonical = .ok header := by
  obtain ⟨kept', htake', hsame⟩ := takeFields_canonical (fun f hf v => canonical_of_check hf) htake
  have hcredential := fieldOr_congr "" asString (hsame "credential" rfl)
  have hscope := fieldOr_congr "" asString (hsame "scope" rfl)
  have hread' : ofFields kept' = .ok header := by
    rw [ofFields, hcredential, hscope]
    exact hread
  rw [canonical, Json.members] at htake'
  rw [canonical, ofJson, asRecord, htake']
  exact hread'

/-- A message that is an object has the header of the object as a map. -/
theorem parse_of_ofJson {operation message : String} {ms : List (String × Json)}
    {header : RequestHeader} (hparse : Json.parse? message = some (.object ms))
    (hread : ofJson .value (Json.object ms).canonical = .ok header) :
    parse operation message = .ok header := by
  simp only [parse, hparse, isObject, Bool.not_true, Bool.false_eq_true, if_false, hread]

end RequestHeader

namespace Envelope

variable {β : Type} {format : BodyFormat β} {operation message : String} {e : Envelope β}

/-- An envelope is read from an object, and its header from the members that are header fields. -/
theorem header_of_decode (h : decode format operation message = .ok e) :
    ∃ ms kept, Json.parse? message = some (.object ms) ∧
      takeFields RequestHeader.fields [] ms = .ok kept ∧
      RequestHeader.ofFields kept = .ok e.header := by
  unfold decode at h
  cases hparse : Json.parse? message with
  | none => rw [hparse] at h; cases h
  | some j =>
    rw [hparse] at h
    cases j with
    | object ms =>
      simp only [ofJson] at h
      cases htake : takeFields RequestHeader.fields [] ms with
      | error fault => rw [htake] at h; cases h
      | ok kept =>
        rw [htake] at h
        simp only [bind, Except.bind] at h
        cases hheader : RequestHeader.ofFields kept with
        | error fault => rw [hheader] at h; cases h
        | ok header =>
          rw [hheader] at h
          cases hbody : format.read (ms.filter fun m => !isHeaderKey m.1) with
          | error fault => simp only [hbody] at h; cases h
          | ok body =>
            simp only [hbody] at h
            obtain rfl := Except.ok.inj h
            exact ⟨ms, kept, rfl, htake, hheader⟩
    | null | bool | number | string | array => cases h

/-- The header of an envelope is the header of its message. -/
theorem parse_of_decode (h : decode format operation message = .ok e) :
    RequestHeader.parse operation message = .ok e.header := by
  obtain ⟨ms, kept, hparse, htake, hread⟩ := header_of_decode h
  exact RequestHeader.parse_of_ofJson hparse (RequestHeader.ofJson_canonical htake hread)

end Envelope

namespace Gate

variable {σ : Type} {g : Gate} {v : Validator σ} {s : σ} {wall : WallClock}
  {operation message m : String} {handler : Handler} {now : Instant} {header : RequestHeader}
  {r : Request}

/-- The request that a message makes has the credential and the scope of its header. -/
theorem requestOf_eq_ok (hheader : RequestHeader.parse operation message = .ok header)
    (h : g.requestOf operation message = .ok r) :
    r = ⟨operation, header.credential, header.scope⟩ := by
  unfold requestOf at h
  rw [hheader] at h
  simp only [bind, Except.bind] at h
  split at h
  · cases h
  · exact (Except.ok.inj h).symm

/-- A handler is handed the message as it came, and only when the request that it makes is let
in. -/
theorem of_mem_handed (h : m ∈ (g.serve v s wall operation handler message now).result.handed) :
    m = message ∧ ∃ r a, g.requestOf operation message = .ok r ∧
      (g.authorize v s wall r now).result = .ok a := by
  unfold serve at h
  cases hr : g.requestOf operation message with
  | error fault => rw [hr] at h; cases h
  | ok r =>
    rw [hr] at h
    simp only at h
    cases hresult : (g.authorize v s wall r now).result with
    | error fault => rw [hresult] at h; cases h
    | ok a =>
      rw [hresult, Served.ofResult_ok] at h
      exact ⟨List.mem_singleton.1 h, r, a, rfl, hresult⟩

end Gate

/-- **The gate and the handler read the same header.** Whatever the body is, the header of an
envelope read from a message is the one that the gate reads from it. So when a handler that is
handed a message reads an envelope from it, the gate has let the request in under the credential and
scope of that envelope. -/
theorem Envelope.header_agreement {β : Type} (format : BodyFormat β) (operation : String) :
    (∀ message e, decode format operation message = .ok e →
      RequestHeader.parse operation message = .ok e.header) ∧
    ∀ {σ : Type} (g : Gate) (v : Validator σ) (s : σ) (wall : WallClock) (handler : Handler)
      (message : String) (now : Instant),
      ∀ m ∈ (g.serve v s wall operation handler message now).result.handed,
        ∀ e, decode format operation m = .ok e →
          g.requestOf operation message = .ok ⟨operation, e.header.credential, e.header.scope⟩ ∧
          ∃ a, (g.authorize v s wall ⟨operation, e.header.credential, e.header.scope⟩ now).result =
            .ok a := by
  refine ⟨fun message e h => parse_of_decode h, ?_⟩
  intro σ g v s wall handler message now m hm e he
  obtain ⟨rfl, r, a, hrequest, hresult⟩ := Gate.of_mem_handed hm
  obtain rfl := Gate.requestOf_eq_ok (parse_of_decode he) hrequest
  exact ⟨hrequest, a, hresult⟩

/-- A message in which a member beside the header is there twice is let in under its header, and
read by the handler with the same. -/
theorem Envelope.header_agreement_keyed :
    let message := "\x7b\"x\":1,\"credential\":\"t\",\"scope\":\"s\",\"x\":[],\"key\":\"k\"\x7d"
    let v : Validator Unit :=
      { endpoint := "v"
        validate := fun _ _ _ => (.now (.ok {
          valid := true, principalId := some "u", permissions := ["state:data:read"] }), ())
        ping := fun _ _ => (.now (.ok ()), ()) }
    let wall : WallClock := fun _ => ⟨0, 0⟩
    decode .keyed "get" message = .ok ⟨⟨"t", "s"⟩, ⟨"k", none⟩⟩ ∧
      RequestHeader.parse "get" message = .ok ⟨"t", "s"⟩ ∧
      ∃ g, Gate.build {} {} 0 = .ok g ∧
        message ∈ (g.serve v () wall "get" (fun _ => .ok (.ok none)) message 0).result.handed ∧
        ∃ a, (g.authorize v () wall ⟨"get", "t", "s"⟩ 0).result = .ok a := by
  intro message v wall
  have hdecode : decode .keyed "get" message = .ok ⟨⟨"t", "s"⟩, ⟨"k", none⟩⟩ := by decide +kernel
  have hserve (g : Gate) (hbuild : Gate.build {} {} 0 = .ok g)
      (hm : message ∈ (g.serve v () wall "get" (fun _ => .ok (.ok none)) message 0).result.handed) :
      ∃ g, Gate.build {} {} 0 = .ok g ∧
        message ∈ (g.serve v () wall "get" (fun _ => .ok (.ok none)) message 0).result.handed ∧
        ∃ a, (g.authorize v () wall ⟨"get", "t", "s"⟩ 0).result = .ok a :=
    ⟨g, hbuild, hm,
      ((header_agreement .keyed "get").2 g v () wall _ message 0 message hm _ hdecode).2⟩
  exact ⟨hdecode, (header_agreement .keyed "get").1 _ _ hdecode, hserve _ rfl (by decide +kernel)⟩

end AccessGate
