import Depot.Proofs.FailedRequest

/-! Bodies beyond the limit. An endpoint that reads a body sees its size before anything in it, so a
body that is too large is refused and reaches neither the registry nor the task queue. The refusal
is an error like others where a form or JSON is read; where a manifest is read it is bare text. -/
namespace Depot

variable {σ υ : Type}

def tooLargeResponse : Response :=
  .failure 413 "BODY_TOO_LARGE" "request body exceeds the size limit"

theorem GatewayError.bodyTooLarge_response (words : Malformed → String) :
    bodyTooLarge.response words = tooLargeResponse := by
  have written : Response.error 413 "BODY_TOO_LARGE" "request body exceeds the size limit" =
      tooLargeResponse := by decide +kernel
  exact written

theorem Body.read_tooLarge {body : Body} {ceiling : Nat} (beyond : ceiling < body.bytes.size) :
    body.read (some ceiling) = .error .tooLarge := by
  simp [Body.read, beyond]

/-- The endpoint reads bodies, and the request says that its body is of the kind. -/
def Endpoint.Reads (request : Request) : Endpoint → Prop
  | .upload => (request.mediaType?.bind MediaType.formBoundary?).isSome = true
  | .delete | .addTag | .removeTag => request.mediaType?.any MediaType.isJson = true
  | .submit => True
  | .ready | .get | .exists | .list | .download _ _ _ => False

namespace Request

variable {request : Request} {limits : Limits} {ceiling : Nat}
  (limit : limits.maxBodySize = some ceiling) (beyond : ceiling < request.body.bytes.size)
include limit beyond

theorem json_tooLarge {ε α : Type} (isJson : request.mediaType?.any MediaType.isJson = true)
    (value : Json.Decoder ε α) : request.json limits value = .error .bodyTooLarge := by
  simp only [json, isJson, if_true, limit, Body.read_tooLarge beyond, GatewayError.ofBody]

theorem form_tooLarge (isForm : (request.mediaType?.bind MediaType.formBoundary?).isSome = true) :
    request.form limits = .ok (.failing (.body .tooLarge)) := by
  obtain ⟨boundary, found⟩ := Option.isSome_iff_exists.mp isForm
  simp only [form, found, limit, Body.read_tooLarge beyond]

end Request

/-- A form that fails when its first part is asked for is no upload. -/
theorem uploadForm_failing (r : Registry σ υ) (limits : Limits) (error : FormError) (s : σ) :
    uploadForm r limits (.failing error) s = (.error (.ofForm error), s) := rfl

namespace Gateway

variable {g : Gateway σ υ} {request : Request} {ceiling : Nat} {endpoint : Endpoint}

theorem run_tooLarge (limit : g.limits.maxBodySize = some ceiling)
    (beyond : ceiling < request.body.bytes.size) (reads : endpoint.Reads request)
    (words : Malformed → String) (state : GatewayState σ) :
    respond words (g.run endpoint request state) =
      (if endpoint = .submit then .plain 413 (g.wording.body request .tooLarge)
        else tooLargeResponse, state) := by
  rw [← GatewayError.bodyTooLarge_response words]
  cases endpoint with
  | upload =>
    simp only [run, read, Request.form_tooLarge limit beyond reads, Except.map, act, perform,
      uploadForm_failing]
    rfl
  | delete => simp only [run, read, Request.json_tooLarge limit beyond reads]; rfl
  | addTag => simp only [run, read, Request.json_tooLarge limit beyond reads]; rfl
  | removeTag => simp only [run, read, Request.json_tooLarge limit beyond reads]; rfl
  | submit => simp only [run, read, readManifest, limit, Body.read_tooLarge beyond]; rfl
  | ready | get | «exists» | list | download => exact reads.elim

/-- No endpoint that reads a body is asked for headers alone. -/
theorem reads_with_body {route : Route} {method : Method}
    (allowed : route.endpoint? method = some endpoint) (reads : endpoint.Reads request) :
    method ≠ .head := by
  rintro rfl
  cases route <;> simp only [Route.endpoint?, Option.some.injEq, reduceCtorEq] at allowed <;>
    exact (allowed ▸ reads).elim

/-- A body beyond the limit is refused wherever a body is read, and nothing changes. The refusal
says so in a code of its own, but for manifests, where it is bare text, whatever that says. -/
theorem oversized_body_refused {route : Route} (limit : g.limits.maxBodySize = some ceiling)
    (beyond : ceiling < request.body.bytes.size) (found : Route.ofPath? request.path = some route)
    (allowed : route.endpoint? request.method = some endpoint) (reads : endpoint.Reads request)
    (state : GatewayState σ) :
    let response := (g.answer request state).1
    (g.answer request state).2 = state ∧ response.status = 413 ∧
      (endpoint ≠ .submit → response = tooLargeResponse) ∧
      (endpoint = .submit → ∃ text, response = .plain 413 text) := by
  have withBody : request.method ≠ .head := reads_with_body allowed reads
  simp only [answer, found, allowed, run_tooLarge limit beyond reads, if_neg withBody]
  by_cases submits : endpoint = .submit
  · rw [if_pos submits]
    exact ⟨trivial, rfl, fun other => absurd submits other, fun _ => ⟨_, rfl⟩⟩
  · rw [if_neg submits]
    exact ⟨trivial, rfl, fun _ => rfl, fun submitted => absurd submitted submits⟩

def narrowGateway : Gateway Store Upload where
  registry := Store.registry
  wording := { (default : Wording) with
    body := fun _ _ => "Failed to buffer the request body: length limit exceeded" }
  limits := { maxBodySize := some 4 }

def longTagRemoval : Request where
  method := .delete
  target := "/artifacts/tags"
  contentType := some "application/problem+json; charset=utf-8"
  body := { bytes := "12345".toUTF8, breaks := true }

theorem long_tag_removal_refused :
    4 < longTagRemoval.body.bytes.size ∧ Endpoint.removeTag.Reads longTagRemoval ∧
    (narrowGateway.answer longTagRemoval toolState).1 = tooLargeResponse ∧
    (narrowGateway.answer longTagRemoval toolState).2 = toolState := by
  have beyond : 4 < longTagRemoval.body.bytes.size := by decide
  have found : Route.ofPath? longTagRemoval.path = some .artifactTags := by decide +kernel
  have reads : Endpoint.removeTag.Reads longTagRemoval := by
    show (longTagRemoval.mediaType?.any MediaType.isJson) = true
    decide +kernel
  have allowed : Route.artifactTags.endpoint? longTagRemoval.method = some .removeTag := rfl
  obtain ⟨unchanged, _, refused, _⟩ :=
    oversized_body_refused (g := narrowGateway) rfl beyond found allowed reads toolState
  exact ⟨beyond, reads, refused (by decide), unchanged⟩

def longManifest : Request where
  method := .post
  target := "/manifests"
  body := { bytes := "12345".toUTF8 }

/-- Who posts a manifest that is too long is not told so as everywhere else. -/
theorem long_manifest_gets_bare_text :
    narrowGateway.limits.maxBodySize = some 4 ∧ 4 < longManifest.body.bytes.size ∧
    Route.ofPath? longManifest.path = some .manifests ∧
    (∃ text, (narrowGateway.answer longManifest toolState).1 = .plain 413 text) ∧
    (narrowGateway.answer longManifest toolState).1 ≠ tooLargeResponse := by
  have response : (narrowGateway.answer longManifest toolState).1 =
      .plain 413 (narrowGateway.wording.body longManifest .tooLarge) := by decide +kernel
  refine ⟨rfl, by decide, by decide +kernel, ⟨_, response⟩, ?_⟩
  rw [response]
  decide +kernel

end Gateway

end Depot
