import Depot.Proofs.FailedRequest

/-! Two registries in step. One does what the other does, or fails for an internal reason, call by
call. Then so do all requests: what goes wrong behind the gateway is told to nobody, and is answered
in one way. -/
namespace Depot

variable {σ υ α ε τ : Type}

/-- What a call may give in place of another: the same, or a failure for an internal reason. If the
failures are `paired`, the other call fails for such a reason too, and leaves the same behind. -/
def Matches (internal : ε → Prop) (paired : Prop) (result other : Except ε α × τ) : Prop :=
  result = other ∨ ∃ error t, result = (.error error, t) ∧ internal error ∧
    (paired → ∃ error', other = (.error error', t) ∧ internal error')

section Rule

variable {ε' β ρ : Type} {internal : ε → Prop} {internal' : ε' → Prop} {paired : Prop}
  {next next' : Except ε α × τ → Except ε' β × ρ}

/-- What matches still does after a next step that passes errors on, internal ones as internal ones,
and leaves the same behind whatever they say. A function that goes by cases on what a call gives is
such a step, once the call is generalised. -/
theorem Matches.onward
    (stops : ∀ t, ∃ u, ∀ error, ∃ told, next (.error error, t) = (.error told, u) ∧
      next' (.error error, t) = (.error told, u) ∧ (internal error → internal' told))
    (goes : ∀ a t, Matches internal' paired (next (.ok a, t)) (next' (.ok a, t)))
    (result other : Except ε α × τ) (matched : Matches internal paired result other) :
    Matches internal' paired (next result) (next' other) := by
  rcases matched with rfl | ⟨error, t, rfl, isInternal, both⟩
  · rcases result with ⟨error | a, t⟩
    · obtain ⟨u, stopped⟩ := stops t
      obtain ⟨told, same, same', _⟩ := stopped error
      exact .inl (same.trans same'.symm)
    · exact goes a t
  · obtain ⟨u, stopped⟩ := stops t
    obtain ⟨told, same, _, isInternal'⟩ := stopped error
    refine .inr ⟨told, u, same, isInternal' isInternal, fun paired => ?_⟩
    obtain ⟨error', rfl, otherInternal⟩ := both paired
    obtain ⟨told', _, same', otherInternal'⟩ := stopped error'
    exact ⟨told', same', otherInternal' otherInternal⟩

end Rule

def RegistryError.IsInternal (error : RegistryError) : Prop := error.kind.isClientFault = false

def GatewayError.IsInternal (error : GatewayError) : Prop :=
  ∃ context cause, error = .transportFailure context cause

theorem RegistryError.IsInternal.ofRegistry {error : RegistryError} (internal : error.IsInternal)
    (context : String) : (GatewayError.ofRegistry context error).IsInternal := by
  unfold IsInternal at internal
  cases kind : error.kind <;> simp_all [GatewayError.ofRegistry, GatewayError.IsInternal,
    RegistryErrorKind.isClientFault]

def internalResponse : Response := .failure 500 "INTERNAL" "internal server error"

theorem GatewayError.IsInternal.response {error : GatewayError} (internal : error.IsInternal)
    (words : Malformed → String) : error.response words = internalResponse := by
  obtain ⟨context, cause, rfl⟩ := internal
  have same : Response.error 500 "INTERNAL" "internal server error" = internalResponse := by
    decide +kernel
  exact same

/-- A registry whose calls match those of another. A pull may also break off after it was opened,
for whatever reason. -/
structure Registry.InStep (paired : Prop) (r r' : Registry σ υ) : Prop where
  openUpload (s : σ) : Matches RegistryError.IsInternal paired (r.openUpload s) (r'.openUpload s)
  send (frame : UploadFrame) (u : υ) (s : σ) :
    Matches RegistryError.IsInternal paired (r.send frame u s) (r'.send frame u s)
  close (u : υ) (s : σ) : Matches RegistryError.IsInternal paired (r.close u s) (r'.close u s)
  cancel (u : υ) (s : σ) : r.cancel u s = r'.cancel u s
  pull (id : Identifier) (s : σ) :
    Matches RegistryError.IsInternal paired (r.pull id s) (r'.pull id s) ∨
      ∃ stream t, r.pull id s = (.ok stream, t) ∧ Fails stream.assemble ∧
        (paired → ∃ stream', r'.pull id s = (.ok stream', t) ∧ Fails stream'.assemble)
  get (id : Identifier) (s : σ) :
    Matches RegistryError.IsInternal paired (r.get id s) (r'.get id s)
  query (q : ArtifactQuery) (s : σ) :
    Matches RegistryError.IsInternal paired (r.query q s) (r'.query q s)
  delete (id : Identifier) (s : σ) :
    Matches RegistryError.IsInternal paired (r.delete id s) (r'.delete id s)
  addTag (request : TagRequest) (s : σ) :
    Matches RegistryError.IsInternal paired (r.addTag request s) (r'.addTag request s)
  removeTag (request : TagRequest) (s : σ) :
    Matches RegistryError.IsInternal paired (r.removeTag request s) (r'.removeTag request s)

section Transfers

variable {paired : Prop} {r r' : Registry σ υ} (inStep : r.InStep paired r')
include inStep

namespace UploadSession

theorem fail_inStep (session : UploadSession υ) (s : σ) : session.fail r s = session.fail r' s := by
  simp only [fail, inStep.cancel]

theorem abort_inStep (session : UploadSession υ) (s : σ) :
    session.abort r s = session.abort r' s := by
  simp only [abort, fail_inStep inStep]

theorem send_inStep (session : UploadSession υ) (frame : UploadFrame) (context : String) (s : σ) :
    Matches GatewayError.IsInternal paired (session.send r frame context s)
      (session.send r' frame context s) := by
  unfold send
  simp only [fail_inStep inStep]
  cases session.stream with
  | none => exact .inl rfl
  | some u =>
    have sent := inStep.send frame u s
    simp only
    generalize r.send frame u s = result at sent ⊢
    generalize r'.send frame u s = other at sent ⊢
    revert result other
    refine Matches.onward ?_ fun _ _ => .inl rfl
    exact fun t => ⟨_, fun error => ⟨_, rfl, rfl, fun internal => internal.ofRegistry _⟩⟩

theorem begin_inStep (frameSize : Nat) (metadata : UploadMetadata) (s : σ) :
    Matches GatewayError.IsInternal paired (begin r frameSize metadata s)
      (begin r' frameSize metadata s) := by
  have opened := inStep.openUpload s
  unfold begin
  generalize r.openUpload s = result at opened ⊢
  generalize r'.openUpload s = other at opened ⊢
  revert result other
  refine Matches.onward ?_ fun stream t => ?_
  · exact fun t => ⟨t, fun error => ⟨_, rfl, rfl, fun internal => internal.ofRegistry _⟩⟩
  let session : UploadSession υ := { stream := some stream, state := .streamOpen, frameSize }
  have sent := send_inStep inStep session (.metadata metadata) "sending upload metadata" t
  simp only [session] at sent ⊢
  generalize send r _ _ _ t = result at sent ⊢
  generalize send r' _ _ _ t = other at sent ⊢
  revert result other
  refine Matches.onward ?_ fun _ _ => .inl rfl
  exact fun t => ⟨t.2, fun error => ⟨error, rfl, rfl, id⟩⟩

theorem sendFrames_inStep (frames : List ByteArray) (session : UploadSession υ) (s : σ) :
    Matches GatewayError.IsInternal paired (sendFrames r frames session s)
      (sendFrames r' frames session s) := by
  induction frames generalizing session s with
  | nil => exact .inl rfl
  | cons frame frames ih =>
    have sent := send_inStep inStep session (.content frame) "sending content frame" s
    unfold sendFrames
    generalize session.send r (.content frame) _ s = result at sent ⊢
    generalize session.send r' (.content frame) _ s = other at sent ⊢
    revert result other
    refine Matches.onward ?_ fun _ t => ?_
    · exact fun t => ⟨t, fun error => ⟨error, rfl, rfl, id⟩⟩
    · exact ih _ t.2

theorem relay_inStep (session : UploadSession υ) (reader : Reader) (s : σ) :
    Matches GatewayError.IsInternal paired (session.relay r reader s)
      (session.relay r' reader s) := by
  unfold relay
  rcases Framing.ofReader session.frameSize .empty reader with ⟨frames, ending⟩
  have sent := sendFrames_inStep inStep frames { session with state := .transferring } s
  simp only
  generalize sendFrames r frames _ s = result at sent ⊢
  generalize sendFrames r' frames _ s = other at sent ⊢
  revert result other
  refine Matches.onward ?_ fun _ t => ?_
  · exact fun t => ⟨t, fun error => ⟨error, rfl, rfl, id⟩⟩
  · cases ending with
    | broken error => exact .inl (by simp only [fail_inStep inStep])
    | clean rest =>
      have last := sendFrames_inStep inStep (if rest.isEmpty then [] else [rest]) t.1 t.2
      simp only
      generalize sendFrames r _ t.1 t.2 = result at last ⊢
      generalize sendFrames r' _ t.1 t.2 = other at last ⊢
      revert result other
      refine Matches.onward ?_ fun _ _ => .inl rfl
      exact fun t => ⟨t, fun error => ⟨error, rfl, rfl, id⟩⟩

theorem commit_inStep (session : UploadSession υ) (s : σ) :
    Matches GatewayError.IsInternal paired (session.commit r s) (session.commit r' s) := by
  unfold commit
  cases session.stream with
  | none => exact .inl rfl
  | some u =>
    have closed := inStep.close u s
    simp only [inStep.cancel]
    generalize r.close u s = result at closed ⊢
    generalize r'.close u s = other at closed ⊢
    revert result other
    refine Matches.onward ?_ fun _ _ => .inl rfl
    exact fun t => ⟨_, fun error => ⟨_, rfl, rfl, fun internal => internal.ofRegistry _⟩⟩

theorem finishForm_inStep (session : UploadSession υ) (payload : Part) (rest : List Part)
    (ending : Except FormError Unit) (s : σ) :
    Matches GatewayError.IsInternal paired (session.finishForm r payload rest ending s)
      (session.finishForm r' payload rest ending s) := by
  have relayed := relay_inStep inStep session payload.content s
  unfold finishForm
  simp only [abort_inStep inStep]
  generalize session.relay r payload.content s = result at relayed ⊢
  generalize session.relay r' payload.content s = other at relayed ⊢
  revert result other
  refine Matches.onward ?_ fun _ t => ?_
  · exact fun t => ⟨_, fun error => ⟨error, rfl, rfl, id⟩⟩
  · cases Form.trailingError? ending rest with
    | some error => exact .inl rfl
    | none => exact commit_inStep inStep t.1 t.2

end UploadSession

theorem uploadForm_inStep (limits : Limits) (form : Form) (s : σ) :
    Matches GatewayError.IsInternal paired (uploadForm r limits form s)
      (uploadForm r' limits form s) := by
  unfold uploadForm
  split
  · exact .inl rfl
  next draft payload rest _ =>
    split
    · exact .inl rfl
    next metadata _ =>
      have begun := UploadSession.begin_inStep inStep (frameSize limits.chunkSize) metadata s
      generalize UploadSession.begin r _ metadata s = result at begun ⊢
      generalize UploadSession.begin r' _ metadata s = other at begun ⊢
      revert result other
      refine Matches.onward ?_ fun session t => ?_
      · exact fun t => ⟨t, fun error => ⟨error, rfl, rfl, id⟩⟩
      · exact session.finishForm_inStep inStep payload rest form.ending t

theorem download_inStep (id : Identifier) (s : σ) :
    Matches GatewayError.IsInternal paired (download r id s) (download r' id s) := by
  have got := inStep.get id s
  unfold download
  generalize r.get id s = result at got ⊢
  generalize r'.get id s = other at got ⊢
  revert result other
  refine Matches.onward ?_ fun artifact t => ?_
  · exact fun t => ⟨t, fun error => ⟨_, rfl, rfl, fun internal => internal.ofRegistry _⟩⟩
  · simp only
    rcases inStep.pull id t with pulled | ⟨stream, u, opened, ⟨error, broken⟩, other⟩
    · generalize r.pull id t = result at pulled ⊢
      generalize r'.pull id t = other at pulled ⊢
      revert result other
      refine Matches.onward ?_ fun _ _ => .inl rfl
      exact fun t => ⟨t, fun error => ⟨_, rfl, rfl, fun internal => internal.ofRegistry _⟩⟩
    · -- An error among the frames is a failure of transport, of whatever kind it is.
      let told (error : RegistryError) : GatewayError :=
        .transportFailure "receiving content frame" (.registry error)
      simp only [opened, broken]
      refine .inr ⟨told error, u, rfl, ⟨_, _, rfl⟩, fun both => ?_⟩
      obtain ⟨stream', opened', error', broken'⟩ := other both
      exact ⟨told error', by simp only [opened', broken', told], ⟨_, _, rfl⟩⟩

end Transfers

namespace Gateway

section Endpoints

variable {paired : Prop}

theorem call_inStep {asked asked' : Call σ α} {s : σ}
    (matched : Matches RegistryError.IsInternal paired (asked s) (asked' s)) (context : String) :
    Matches GatewayError.IsInternal paired (call context asked s) (call context asked' s) := by
  unfold call
  generalize asked s = result at matched ⊢
  generalize asked' s = other at matched ⊢
  revert result other
  refine Matches.onward ?_ fun _ _ => .inl rfl
  exact fun t => ⟨t, fun error => ⟨_, rfl, rfl, fun internal => internal.ofRegistry _⟩⟩

theorem present_inStep {result other : Except GatewayError α × σ}
    (matched : Matches GatewayError.IsInternal paired result other) (respond : α → Response) :
    Matches GatewayError.IsInternal paired (present respond result) (present respond other) := by
  refine Matches.onward ?_ (fun _ _ => .inl rfl) result other matched
  exact fun t => ⟨t, fun error => ⟨error, rfl, rfl, id⟩⟩

variable {g : Gateway σ υ} {r' : Registry σ υ} (inStep : g.registry.InStep paired r')
include inStep

theorem perform_inStep (operation : Operation) (s : σ) :
    Matches GatewayError.IsInternal paired (g.perform operation s)
      ({ g with registry := r' }.perform operation s) := by
  cases operation with
  | get id => exact present_inStep (call_inStep (inStep.get id s) _) _
  | «exists» id => exact present_inStep (call_inStep (inStep.get id s) _) _
  | list query => exact present_inStep (call_inStep (inStep.query query s) _) _
  | delete id => exact present_inStep (call_inStep (inStep.delete id s) _) _
  | addTag request => exact present_inStep (call_inStep (inStep.addTag request s) _) _
  | removeTag request => exact present_inStep (call_inStep (inStep.removeTag request s) _) _
  | upload form => exact present_inStep (uploadForm_inStep inStep g.limits form s) _
  | download id => exact present_inStep (download_inStep inStep id s) _

theorem act_inStep (plan : Plan) (state : GatewayState σ) :
    Matches GatewayError.IsInternal paired (g.act plan state)
      ({ g with registry := r' }.act plan state) := by
  cases plan with
  | answer response => exact .inl rfl
  | enqueue task => exact .inl rfl
  | operate operation =>
    have performed := perform_inStep inStep operation state.registry
    simp only [act]
    generalize g.perform operation state.registry = result at performed ⊢
    generalize perform _ operation state.registry = other at performed ⊢
    revert result other
    refine Matches.onward ?_ fun _ _ => .inl rfl
    exact fun t => ⟨{ state with registry := t }, fun error => ⟨error, rfl, rfl, id⟩⟩

/-- What a request asks for is read before the registry is called. -/
theorem run_inStep (endpoint : Endpoint) (request : Request) (state : GatewayState σ) :
    Matches GatewayError.IsInternal paired (g.run endpoint request state)
      ({ g with registry := r' }.run endpoint request state) := by
  have sameInput : { g with registry := r' }.read endpoint request = g.read endpoint request := rfl
  unfold run
  rw [sameInput]
  split
  · exact .inl rfl
  · exact act_inStep inStep _ state

end Endpoints

def internalAnswer (request : Request) : Response :=
  if request.method = .head then internalResponse.withoutBody else internalResponse

theorem respond_inStep {paired : Prop} {answer other : Answer σ}
    (matched : Matches GatewayError.IsInternal paired answer other) (words : Malformed → String) :
    respond words answer = respond words other ∨
      (respond words answer).1 = internalResponse ∧
        (paired → respond words answer = respond words other) := by
  rcases matched with rfl | ⟨error, t, rfl, internal, both⟩
  · exact .inl rfl
  · refine .inr ⟨internal.response words, fun paired => ?_⟩
    obtain ⟨error', rfl, internal'⟩ := both paired
    simp only [respond, internal.response, internal'.response]

theorem answer_inStep {paired : Prop} {g : Gateway σ υ} {r' : Registry σ υ}
    (inStep : g.registry.InStep paired r') (request : Request) (state : GatewayState σ) :
    g.answer request state = { g with registry := r' }.answer request state ∨
      (g.answer request state).1 = internalAnswer request ∧
        (paired → g.answer request state = { g with registry := r' }.answer request state) := by
  unfold answer
  cases Route.ofPath? request.path with
  | none => exact .inl rfl
  | some route =>
    cases allowed : route.endpoint? request.method with
    | none => exact .inl (by simp only [allowed])
    | some endpoint =>
      simp only [allowed]
      have ran := run_inStep inStep endpoint request state
      rcases respond_inStep ran (g.wording.malformed request) with same | ⟨told, both⟩
      · exact .inl (by rw [same])
      · refine .inr ⟨by rw [told, internalAnswer], fun paired => by rw [both paired]⟩

end Gateway

end Depot
