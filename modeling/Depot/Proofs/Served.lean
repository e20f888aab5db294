import Depot.Proofs.FormAcceptance

/-! What requests keep. A gateway reaches its registry through calls only, so what no call breaks
holds of the registry's state behind every request, whatever it asks for and wherever it fails. -/
namespace Depot

variable {σ υ α : Type} {property : σ → Prop}

def Call.Keeps (property : σ → Prop) (call : Call σ α) : Prop :=
  ∀ s, property s → property (call s).2

structure Registry.Keeps (r : Registry σ υ) (property : σ → Prop) : Prop where
  openUpload : r.openUpload.Keeps property
  send (frame : UploadFrame) (u : υ) (s : σ) (valid : property s) : property (r.send frame u s).2.2
  close (u : υ) (s : σ) (valid : property s) : property (r.close u s).2.2
  cancel (u : υ) (s : σ) (valid : property s) : property (r.cancel u s)
  pull (id : Identifier) : (r.pull id).Keeps property
  get (id : Identifier) : (r.get id).Keeps property
  query (q : ArtifactQuery) : (r.query q).Keeps property
  delete (id : Identifier) : (r.delete id).Keeps property
  addTag (request : TagRequest) : (r.addTag request).Keeps property
  removeTag (request : TagRequest) : (r.removeTag request).Keeps property

section Transfers

variable {r : Registry σ υ} (keeps : r.Keeps property) {s : σ}
include keeps

namespace UploadSession

variable (session : UploadSession υ)

theorem fail_keeps (valid : property s) : property (session.fail r s).2 := by
  unfold fail
  cases session.stream with
  | none => exact valid
  | some stream => exact keeps.cancel stream s valid

theorem send_keeps (frame : UploadFrame) (context : String) (valid : property s) :
    property (session.send r frame context s).2.2 := by
  unfold send
  split
  · exact fail_keeps keeps session valid
  next stream _ =>
    have sent := keeps.send frame stream s valid
    split
    next answered => rwa [answered] at sent
    next answered =>
      rw [answered] at sent
      exact fail_keeps keeps _ sent

theorem begin_keeps (frameSize : Nat) (metadata : UploadMetadata) (valid : property s) :
    property (begin r frameSize metadata s).2 := by
  have opened := keeps.openUpload s valid
  unfold begin
  split
  next answered => rwa [answered] at opened
  next stream t answered =>
    rw [answered] at opened
    let session : UploadSession υ := { stream := some stream, state := .streamOpen, frameSize }
    have sent := send_keeps keeps session (.metadata metadata) "sending upload metadata" opened
    simp only
    split
    next begun => rwa [begun] at sent
    next begun => rwa [begun] at sent

theorem sendFrames_keeps (frames : List ByteArray) (valid : property s) :
    property (sendFrames r frames session s).2.2 := by
  induction frames generalizing session s with
  | nil => exact valid
  | cons frame frames ih =>
    have sent := send_keeps keeps session (.content frame) "sending content frame" valid
    unfold sendFrames
    split
    next answered => rwa [answered] at sent
    next answered =>
      rw [answered] at sent
      exact ih _ sent

theorem relay_keeps (reader : Reader) (valid : property s) :
    property (session.relay r reader s).2.2 := by
  unfold relay
  rcases Framing.ofReader session.frameSize .empty reader with ⟨frames, ending⟩
  have sent := sendFrames_keeps keeps { session with state := .transferring } frames valid
  simp only
  split
  next answered => rwa [answered] at sent
  next after t answered =>
    rw [answered] at sent
    cases ending with
    | broken error => exact fail_keeps keeps after sent
    | clean rest =>
      have last := sendFrames_keeps keeps after (if rest.isEmpty then [] else [rest]) sent
      simp only
      split
      next sentLast => rwa [sentLast] at last
      next sentLast => rwa [sentLast] at last

theorem commit_keeps (valid : property s) : property (session.commit r s).2 := by
  unfold commit
  split
  · exact valid
  next stream _ =>
    have closed := keeps.close stream s valid
    split
    next answered =>
      rw [answered] at closed
      exact keeps.cancel _ _ closed
    next answered =>
      rw [answered] at closed
      exact keeps.cancel _ _ closed

theorem finishForm_keeps (payload : Part) (rest : List Part) (ending : Except FormError Unit)
    (valid : property s) : property (session.finishForm r payload rest ending s).2 := by
  have relayed := relay_keeps keeps session payload.content valid
  unfold finishForm
  split
  next answered =>
    rw [answered] at relayed
    exact fail_keeps keeps _ relayed
  next answered =>
    rw [answered] at relayed
    split
    · exact fail_keeps keeps _ relayed
    · exact commit_keeps keeps _ relayed

end UploadSession

theorem uploadForm_keeps (limits : Limits) (form : Form) (valid : property s) :
    property (uploadForm r limits form s).2 := by
  unfold uploadForm
  split
  · exact valid
  next draft payload rest _ =>
    split
    · exact valid
    next metadata _ =>
      have begun := UploadSession.begin_keeps keeps (frameSize limits.chunkSize) metadata valid
      split
      next answered => rwa [answered] at begun
      next session t answered =>
        rw [answered] at begun
        exact session.finishForm_keeps keeps payload rest form.ending begun

theorem download_keeps (id : Identifier) (valid : property s) :
    property (download r id s).2 := by
  have looked := keeps.get id s valid
  unfold download
  split
  next got => rwa [got] at looked
  next t got =>
    rw [got] at looked
    have pulled := keeps.pull id t looked
    split
    next opened => rwa [opened] at pulled
    next opened =>
      rw [opened] at pulled
      split <;> exact pulled

end Transfers

namespace Gateway

/-! ### What an endpoint asks for -/

section Plans

variable {g : Gateway σ υ} {endpoint : Endpoint} {request : Request}

theorem exists_of_map {ε α β : Type} {f : α → β} {input : Except ε α} {b : β}
    (mapped : input.map f = .ok b) : ∃ a, input = .ok a ∧ f a = b := by
  cases input with
  | error error => contradiction
  | ok a => exact ⟨a, rfl, Except.ok.inj mapped⟩

theorem exists_of_bind {ε α β : Type} {next : α → Except ε β} {input : Except ε α} {b : β}
    (bound : (input >>= next) = .ok b) : ∃ a, input = .ok a ∧ next a = .ok b := by
  cases input with
  | error error => contradiction
  | ok a => exact ⟨a, rfl, bound⟩

/-- What each endpoint may plan. Only one takes forms, and only manifests ask for tasks. -/
inductive Plans (g : Gateway σ υ) (request : Request) : Endpoint → Plan → Prop where
  | answer (endpoint : Endpoint) (response : Response) : Plans g request endpoint (.answer response)
  | get (id : Identifier) : Plans g request .get (.operate (.get id))
  | «exists» (id : Identifier) : Plans g request .exists (.operate (.exists id))
  | list (query : ArtifactQuery) : Plans g request .list (.operate (.list query))
  | delete (id : Identifier) : Plans g request .delete (.operate (.delete id))
  | addTag (body : TagRequest) : Plans g request .addTag (.operate (.addTag body))
  | removeTag (body : TagRequest) : Plans g request .removeTag (.operate (.removeTag body))
  | upload {form : Form} (formed : request.form g.limits = .ok form) :
      Plans g request .upload (.operate (.upload form))
  | download (source author name : String) (id : Identifier) :
      Plans g request (.download source author name) (.operate (.download id))
  | enqueue {text : List UInt8} {task : TaskRequest}
      (asked : Manifest.task text g.limits.manifestInputMax = .ok task) :
      Plans g request .submit (.enqueue task)

theorem readDownload_plans {source author name : String} {plan : Plan}
    (planned : g.readDownload source author name request = .ok plan) :
    Plans g request (.download source author name) plan := by
  unfold readDownload at planned
  split at planned
  · obtain ⟨id, _, rfl⟩ := exists_of_map planned
    exact .download source author name id
  · obtain rfl := Except.ok.inj planned
    exact .answer _ _

theorem readManifest_plans {plan : Plan} (planned : g.readManifest request = .ok plan) :
    Plans g request .submit plan := by
  unfold readManifest at planned
  split at planned
  · obtain rfl := Except.ok.inj planned
    exact .answer _ _
  · obtain ⟨task, asked, rfl⟩ := exists_of_map planned
    exact .enqueue asked

theorem read_plans {plan : Plan} (planned : g.read endpoint request = .ok plan) :
    Plans g request endpoint plan := by
  cases endpoint with
  | ready =>
    obtain rfl := Except.ok.inj planned
    exact .answer _ _
  | get =>
    obtain ⟨id, _, rfl⟩ := exists_of_map planned
    exact .get id
  | «exists» =>
    obtain ⟨id, _, rfl⟩ := exists_of_map planned
    exact .exists id
  | upload =>
    obtain ⟨form, formed, rfl⟩ := exists_of_map planned
    exact .upload formed
  | list =>
    obtain ⟨query, _, rfl⟩ := exists_of_map planned
    exact .list query
  | delete =>
    obtain ⟨_, _, named⟩ := exists_of_bind planned
    obtain ⟨id, _, rfl⟩ := exists_of_map named
    exact .delete id
  | addTag =>
    obtain ⟨body, _, required⟩ := exists_of_bind planned
    obtain ⟨_, _, rfl⟩ := exists_of_map required
    exact .addTag body
  | removeTag =>
    obtain ⟨body, _, required⟩ := exists_of_bind planned
    obtain ⟨_, _, rfl⟩ := exists_of_map required
    exact .removeTag body
  | download source author name => exact readDownload_plans planned
  | submit => exact readManifest_plans planned

end Plans

def Leaves (property : σ → Prop) (answer : Answer σ) : Prop := property answer.2.registry

section Keeps

variable {g : Gateway σ υ} (keeps : g.registry.Keeps property) {state : GatewayState σ}

theorem enqueue_keeps (task : TaskRequest) (valid : property state.registry) :
    Leaves property (enqueue task state) := by
  unfold enqueue
  split <;> exact valid

include keeps

theorem perform_keeps (operation : Operation) {s : σ} (valid : property s) :
    property (g.perform operation s).2 := by
  cases operation with
  | get id => exact keeps.get id s valid
  | «exists» id => exact keeps.get id s valid
  | list query => exact keeps.query query s valid
  | delete id => exact keeps.delete id s valid
  | addTag request => exact keeps.addTag request s valid
  | removeTag request => exact keeps.removeTag request s valid
  | upload form => exact uploadForm_keeps keeps g.limits form valid
  | download id => exact download_keeps keeps id valid

theorem act_keeps (plan : Plan) (valid : property state.registry) :
    Leaves property (g.act plan state) := by
  cases plan with
  | answer response => exact valid
  | operate operation => exact perform_keeps keeps operation valid
  | enqueue task => exact enqueue_keeps task valid

theorem run_keeps (endpoint : Endpoint) (request : Request) (valid : property state.registry) :
    Leaves property (g.run endpoint request state) := by
  rcases run_cases g endpoint request state with ⟨error, refused⟩ | ⟨plan, _, acted⟩
  · rwa [refused]
  · rw [acted]
    exact act_keeps keeps plan valid

theorem answer_keeps (request : Request) (valid : property state.registry) :
    property (g.answer request state).2.registry := by
  rcases answer_cases g request state with unasked | ⟨_, endpoint, _, _, _, ran⟩
  · rwa [unasked]
  · rw [ran]
    exact run_keeps keeps endpoint request valid

end Keeps

end Gateway

namespace Store

/-- What no step of a client breaks is broken by no call. -/
theorem keeps_of_effects {property : Store → Prop}
    (kept : ∀ s step t, property s → Traffic.Effect s step t → property t) :
    registry.Keeps property where
  openUpload _ valid := valid
  send _ _ _ valid := valid
  close u s valid := kept s (.close 0) _ valid (Traffic.close_effect u s _)
  cancel u s valid := kept s (.drop 0) _ valid (Traffic.cancel_effect u s _)
  pull id s valid := kept s (.pull id) _ valid (.pulled id)
  get _ _ valid := valid
  query _ _ valid := valid
  delete id s valid := kept s (.delete id) _ valid (.deleted id rfl)
  addTag r s valid := kept s (.addTag r) _ valid (.tagged r)
  removeTag r s valid := kept s (.removeTag r) _ valid (.untagged r)

end Store

namespace Gateway

/-- The states that a gateway over a store comes to by requests, and by forms that arrive in pieces.
Requests that are answered at the same time, or other clients, may call the store in between. -/
inductive Served (wording : Wording) (limits : Limits) : GatewayState Store → Prop where
  | start (tasks : TaskQueue) : Served wording limits { registry := {}, tasks }
  | request {state : GatewayState Store} (served : Served wording limits state)
      (request : Request) : Served wording limits ((ofStore wording limits).answer request state).2
  | form {state : GatewayState Store} (served : Served wording limits state) (form : Form) :
      Served wording limits ((ofStore wording limits).upload form state).2
  | between {state : GatewayState Store} (served : Served wording limits state)
      {step : Traffic.Step} {s : Store} (effect : Traffic.Effect state.registry step s) :
      Served wording limits { state with registry := s }

variable {wording : Wording} {limits : Limits} {state : GatewayState Store}

theorem Served.invariant (served : Served wording limits state) {property : Store → Prop}
    (kept : ∀ s step t, property s → Traffic.Effect s step t → property t) (empty : property {}) :
    property state.registry := by
  have keeps : (ofStore wording limits).registry.Keeps property := Store.keeps_of_effects kept
  induction served with
  | start tasks => exact empty
  | request _ request ih => exact answer_keeps keeps request ih
  | form _ form ih => exact act_keeps keeps (.operate (.upload form)) ih
  | between _ effect ih => exact kept _ _ _ ih effect

theorem Served.sound (served : Served wording limits state) :
    Versions.Sound state.registry.versions := by
  let property (s : Store) : Prop := Versions.Sound s.versions
  have kept (s : Store) (step : Traffic.Step) (t : Store) (sound : property s)
      (effect : Traffic.Effect s step t) : property t := effect.sound sound
  exact served.invariant kept .nil

end Gateway

end Depot
