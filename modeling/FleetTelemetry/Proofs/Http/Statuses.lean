import FleetTelemetry.Http.Fetch
import FleetTelemetry.Proofs.Outcomes
import FleetTelemetry.Proofs.Snapshot.Payload

/-!
# Statuses and snapshots

A fetch was meant to take snapshots from successes only and to tell every other status. What it does
depends on other ranges instead: the statuses from 400 to 599 are told, and every other answer that
the client hands on and that has a body can become a snapshot.
-/

namespace FleetTelemetry

open Snapshot

private theorem SchemaMode.fetched_payload (mode : SchemaMode) (s : Snapshot) :
    mode.fetched s.payload.toUTF8.toList = .ok s := by
  cases mode with
  | lenient => simp only [fetched, decode, decodeLenient_payload]
  | strict => simp only [fetched, decode, decodeStrict_payload]

private theorem SchemaMode.fetched_ne_status (mode : SchemaMode) (body : Json.Bytes) (code : Nat) :
    mode.fetched body ≠ .error (.status code) := by
  intro h
  unfold fetched at h
  split at h
  · cases h
  · cases h

private theorem SchemaMode.fetched_nil (mode : SchemaMode) (s : Snapshot) :
    mode.fetched [] ≠ .ok s := by
  have hlenient : decodeLenient [] = .error .endInValue := by cbv
  have hstrict : decodeStrict [] = .error (.json .endInValue) := by cbv
  intro h
  cases mode with
  | lenient => simp [fetched, decode, hlenient] at h
  | strict => simp [fetched, decode, hstrict] at h

namespace Http

/-- The statuses of success are those of two hundred. -/
def isSuccess (code : Nat) : Bool :=
  200 ≤ code && code ≤ 299

/-- What a fetch was meant to make of an answer that came as a whole. -/
def Response.intended (mode : SchemaMode) (response : Response) : Fetched :=
  if isSuccess response.status then mode.fetched response.received
  else .error (.status response.status)

section

variable {mode : SchemaMode} {response : Response}

private theorem isHandedOn_of_isErrorStatus {code : Nat} (h : isErrorStatus code = true) :
    isHandedOn code = true := by
  simp only [isErrorStatus, Bool.and_eq_true, decide_eq_true_eq] at h
  simp only [isHandedOn, Bool.or_eq_true, Bool.and_eq_true, decide_eq_true_eq]
  omega

private theorem isHandedOn_of_isSuccess {code : Nat} (h : isSuccess code = true) :
    isHandedOn code = true := by
  simp only [isSuccess, Bool.and_eq_true, decide_eq_true_eq] at h
  simp only [isHandedOn, Bool.or_eq_true, Bool.and_eq_true, decide_eq_true_eq]
  omega

private theorem isSuccess_of_isErrorStatus {code : Nat} (h : isErrorStatus code = true) :
    isSuccess code = false := by
  simp only [isErrorStatus, Bool.and_eq_true, decide_eq_true_eq] at h
  simp only [isSuccess, Bool.and_eq_false_iff, decide_eq_false_iff_not]
  omega

private theorem fetched_eq_bind (h : isHandedOn response.status = true) :
    response.fetched mode = (response.withoutError.mapError ClientError.toFetchError).bind
      fun accepted => (accepted.content.mapError ClientError.toFetchError).bind mode.fetched := by
  rw [Response.fetched, Response.handedOn, if_pos h]
  rfl

private theorem fetched_of_not_isHandedOn (h : isHandedOn response.status = false) :
    response.fetched mode = .error (.transport "connection closed") := by
  rw [Response.fetched, Response.handedOn, h]
  rfl

private theorem fetched_of_isErrorStatus (h : isErrorStatus response.status = true) :
    response.fetched mode = .error (.status response.status) := by
  have hrefused : response.withoutError = .error (.status response.status) := by
    simp [Response.withoutError, h]
  rw [fetched_eq_bind (isHandedOn_of_isErrorStatus h), hrefused]
  rfl

private theorem fetched_of_content {body : Json.Bytes} (hhanded : isHandedOn response.status = true)
    (h : isErrorStatus response.status = false) (hcontent : response.content = .ok body) :
    response.fetched mode = mode.fetched body := by
  have haccepted : response.withoutError = .ok response := by simp [Response.withoutError, h]
  rw [fetched_eq_bind hhanded, haccepted]
  change (response.content.mapError ClientError.toFetchError).bind mode.fetched = _
  rw [hcontent]
  rfl

private theorem fetched_of_complete (hhanded : isHandedOn response.status = true)
    (h : isErrorStatus response.status = false) (hwhole : response.missing = 0) :
    response.fetched mode = mode.fetched response.received :=
  fetched_of_content hhanded h (by simp [Response.content, hwhole])

private theorem fetched_of_isBodyless (hhanded : isHandedOn response.status = true)
    (h : isErrorStatus response.status = false) (hnone : isBodyless response.status = true) :
    response.fetched mode = mode.fetched [] :=
  fetched_of_content hhanded h (by simp [Response.content, Response.received, hnone])

private theorem fetched_eq_intended_iff (hwhole : response.missing = 0) :
    response.fetched mode = response.intended mode ↔
      isSuccess response.status = true ∨ isErrorStatus response.status = true := by
  cases herror : isErrorStatus response.status with
  | true =>
    have hfailure := isSuccess_of_isErrorStatus herror
    simp [fetched_of_isErrorStatus herror, Response.intended, hfailure]
  | false =>
    cases hsuccess : isSuccess response.status with
    | true =>
      have hdecoded : response.fetched mode = mode.fetched response.received :=
        fetched_of_complete (isHandedOn_of_isSuccess hsuccess) herror hwhole
      simp [hdecoded, Response.intended, hsuccess]
    | false =>
      -- no other outcome tells a status
      cases hhanded : isHandedOn response.status with
      | true =>
        have hne := mode.fetched_ne_status response.received response.status
        simp [fetched_of_complete hhanded herror hwhole, Response.intended, hsuccess, hne]
      | false => simp [fetched_of_not_isHandedOn hhanded, Response.intended, hsuccess]

private theorem status_of_fetched_ok {s : Snapshot} (h : response.fetched mode = .ok s) :
    isHandedOn response.status = true ∧ isErrorStatus response.status = false ∧
      isBodyless response.status = false := by
  cases hhanded : isHandedOn response.status with
  | false =>
    rw [fetched_of_not_isHandedOn hhanded] at h
    cases h
  | true =>
    cases herror : isErrorStatus response.status with
    | true =>
      rw [fetched_of_isErrorStatus herror] at h
      cases h
    | false =>
      cases hnone : isBodyless response.status with
      | true =>
        rw [fetched_of_isBodyless hhanded herror hnone] at h
        exact absurd h (mode.fetched_nil s)
      | false => exact ⟨rfl, rfl, rfl⟩

end

/-- An answer with a status from 400 to 599 is an error of this status, whatever its body. Every
other answer that the client hands on and that came as a whole is decoded, so a fetch does as
intended exactly for these statuses and for those of success: a status from 300 to 399 or above 599
is not told. Each snapshot can come with each status of an answer that is handed on, is no error and
has a body, and with no other status. -/
theorem fetched_by_status (mode : SchemaMode) (status : Nat) :
    (∀ body : Json.Bytes,
      let response : Response := { status, body }
      (isErrorStatus status = true → response.fetched mode = .error (.status status)) ∧
      (isErrorStatus status = false → isHandedOn status = true →
        response.fetched mode = mode.fetched response.received) ∧
      (isHandedOn status = false →
        response.fetched mode = .error (.transport "connection closed")) ∧
      (response.fetched mode = response.intended mode ↔
        isSuccess status = true ∨ isErrorStatus status = true)) ∧
    ∀ s : Snapshot, (∃ response : Response,
        response.status = status ∧ response.fetched mode = .ok s) ↔
      isHandedOn status = true ∧ isErrorStatus status = false ∧ isBodyless status = false := by
  constructor
  · intro body response
    have hwhole : response.missing = 0 := rfl
    refine ⟨fun h => ?_, fun h hhanded => ?_, fun h => ?_, ?_⟩
    · have hstatus : isErrorStatus response.status = true := h
      exact fetched_of_isErrorStatus hstatus
    · have hstatus : isErrorStatus response.status = false := h
      exact fetched_of_complete hhanded hstatus hwhole
    · have hstatus : isHandedOn response.status = false := h
      exact fetched_of_not_isHandedOn hstatus
    · exact fetched_eq_intended_iff hwhole
  · intro s
    constructor
    · rintro ⟨response, rfl, h⟩
      exact status_of_fetched_ok h
    · rintro ⟨hhanded, herror, hbody⟩
      let response : Response := { status, body := s.payload.toUTF8.toList }
      have hreceived : response.received = s.payload.toUTF8.toList := by
        simp [response, Response.received, hbody]
      refine ⟨response, rfl, ?_⟩
      rw [fetched_of_complete hhanded herror rfl, hreceived, mode.fetched_payload]

/-- The payload of an idle node that has used some gas. -/
def gasPayload : String :=
  "\x7b\"generated_transactions\":0,\"confirmed_transactions\":0,\"chain_depth\":0," ++
  "\"token\":false,\"propose_block\":0,\"sign_block\":0,\"submit_block\":0," ++
  "\"propose_latency\":0,\"sign_latency\":0,\"submit_latency\":0,\"gas\":3," ++
  "\"propose_num\":0,\"sign_num\":0,\"submit_num\":0\x7d"

private theorem gasPayload_eq : gasPayload = ({ gas := 3 } : Snapshot).payload := by
  decide +kernel

/-- An answer that offers several addresses is no success and becomes a snapshot. -/
theorem multiple_choices_become_snapshot :
    let response : Response := { status := 300, body := gasPayload.toUTF8.toList }
    isSuccess response.status = false ∧ response.fetched .lenient = .ok { gas := 3 } ∧
      response.intended .lenient = .error (.status 300) := by
  intro response
  have hbody : response.received = ({ gas := 3 } : Snapshot).payload.toUTF8.toList :=
    congrArg (fun text : String => text.toUTF8.toList) gasPayload_eq
  refine ⟨rfl, ?_, rfl⟩
  rw [fetched_of_complete rfl rfl rfl, hbody, SchemaMode.fetched_payload]

end Http

end FleetTelemetry
