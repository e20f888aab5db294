import Depot.Gateway.Basic
import Depot.Proofs.Fidelity
import Depot.Proofs.Session

/-! A request that fails changes nothing durable, whatever it asks for and wherever it fails, also
when the registry is reached through a connection that breaks. It may leave one entry in the log:
an upload that was cancelled, or a pull that broke off and is counted. -/
namespace Depot

variable {σ υ α : Type}

/-- An error as the client gets it. Code and message stand in the text as they are. -/
def Response.failure (status : Nat) (code message : String) : Response where
  status := status
  contentType := some "application/json"
  body := ("\x7b\"error\":\x7b\"code\":\"" ++ code ++ "\",\"message\":\"" ++ message ++
    "\"\x7d\x7d").toUTF8

def Version.uncounted (v : Version) : Version := { v with pulls := 0 }

def Store.durable (s : Store) : List Version := s.versions.map Version.uncounted

def Store.pulled (s : Store) (id : Identifier) (v : Version) : Store :=
  { s with
    versions := Versions.update s.versions v.name v.hash fun v => { v with pulls := v.pulls + 1 }
  }.log (.pull id ((Framing.cut maxFrameSize v.content).map ByteArray.size))

/-- What a failed request leaves of the store behind a registry. -/
inductive Residue (r : Registry σ υ) (view : σ → Store) (s : σ) : Store → Prop where
  | nothing : Residue r view s (view s)
  | cancelledUpload {after : Store} (cancelled : (view s).Cancelled after) : Residue r view s after
  /-- The pull was opened and gave an error among its frames. -/
  | brokenPull {t : σ} {id : Identifier} {v : Version} {stream : PullStream}
      (same : view t = view s) (opened : (r.pull id t).1 = .ok stream)
      (broken : Fails stream.assemble) (found : Versions.resolve (view s).versions id = some v) :
      Residue r view s ((view s).pulled id v)

namespace Residue

variable {r : Registry σ υ} {view : σ → Store} {s t : σ} {after : Store}

theorem unchanged (same : view t = view s) : Residue r view s (view t) := same ▸ .nothing

/-- What did not show before does not count. -/
theorem trans (same : view t = view s) (residue : Residue r view t after) :
    Residue r view s after := by
  cases residue with
  | nothing => exact .unchanged same
  | cancelledUpload cancelled => exact .cancelledUpload (same ▸ cancelled)
  | brokenPull sameBefore opened broken found =>
    rw [same] at sameBefore found ⊢
    exact .brokenPull sameBefore opened broken found

theorem durable (residue : Residue r view s after) : after.durable = (view s).durable := by
  cases residue with
  | nothing => rfl
  | cancelledUpload cancelled =>
    obtain ⟨name, sizes, rfl⟩ := cancelled
    rfl
  | brokenPull =>
    simp only [Store.durable, Store.pulled, Store.log, Versions.update, List.map_map]
    refine List.map_congr_left fun v _ => ?_
    simp only [Function.comp_apply]
    split <;> rfl

theorem transfers (residue : Residue r view s after) :
    ∃ entries, after.transfers = (view s).transfers ++ entries ∧ entries.length ≤ 1 := by
  cases residue with
  | nothing => exact ⟨[], (List.append_nil _).symm, Nat.zero_le 1⟩
  | cancelledUpload cancelled =>
    obtain ⟨name, sizes, rfl⟩ := cancelled
    exact ⟨_, rfl, Nat.le_refl 1⟩
  | brokenPull => exact ⟨_, rfl, Nat.le_refl 1⟩

end Residue

/-! ### Calls that are refused -/

namespace Store

variable {s : Store}

theorem delete_refused {id : Identifier} (refused : Fails (s.delete id).1) :
    (s.delete id).2 = s := by
  unfold delete at refused ⊢
  split
  · rfl
  next v found => simp [found] at refused

theorem addTag_refused {r : TagRequest} (refused : Fails (s.addTag r).1) :
    (s.addTag r).2 = s := by
  unfold addTag at refused ⊢
  split
  · rfl
  next nonempty =>
    split
    · rfl
    next v found => simp [nonempty, found] at refused

theorem removeTag_refused {r : TagRequest} (refused : Fails (s.removeTag r).1) :
    (s.removeTag r).2 = s := by
  unfold removeTag at refused ⊢
  split
  · rfl
  next v found =>
    split
    next carried => simp [found, carried] at refused
    · rfl

end Store

theorem TaskQueue.enqueue_refused {q : TaskQueue} {task : TaskRequest} {error : QueueError}
    {after : TaskQueue} (refused : q.enqueue task = (.error error, after)) : after = q := by
  unfold enqueue at refused
  split at refused
  · split at refused
    · exact (Prod.mk.inj refused).2.symm
    · simp at refused
  · simp at refused

/-- What is refused in front of a store or by it reaches nothing. -/
theorem Passes.clean {view : σ → Store} {s : σ} {own : Except RegistryError α × Store}
    {result : Except RegistryError α × σ} (passes : Passes view s own result)
    (refused : Fails own.1 → own.2 = view s) (failed : Fails result.1) :
    view result.2 = view s := by
  rcases passes with ⟨_, kept⟩ | ⟨answered, kept⟩
  · exact kept
  · exact kept.trans (refused (answered ▸ failed))

section Forwards

variable {r : Registry σ υ} {view : σ → Store} {handle : υ → Upload}

/-- Looking up shows nowhere. -/
theorem forwarded_get (forwards : r.Forwards Store.registry view handle) (id : Identifier) (s : σ) :
    view (r.get id s).2 = view s := by
  rcases forwards.get id s with ⟨_, kept⟩ | ⟨_, kept⟩
  · exact kept
  · exact kept

/-- A pull that shows has found a version, whatever becomes of its frames. -/
theorem forwarded_pull (forwards : r.Forwards Store.registry view handle) (id : Identifier) (s : σ) :
    view (r.pull id s).2 = view s ∨
      ¬ Fails (r.pull id s).1 ∧ ∃ v, Versions.resolve (view s).versions id = some v ∧
        view (r.pull id s).2 = (view s).pulled id v := by
  cases resolved : Versions.resolve (view s).versions id with
  | none =>
    have own : Store.registry.pull id (view s) = (.error (Store.notFound id.text), view s) := by
      simp only [Store.registry, (Store.misses_of_resolve resolved).pull, Except.map]
    rcases forwards.pull id s with (⟨_, kept⟩ | ⟨_, kept⟩) | ⟨_, _, found, _⟩
    · exact .inl kept
    · exact .inl (kept.trans (by rw [own]))
    · rw [own] at found
      contradiction
  | some v =>
    have own : Store.registry.pull id (view s) =
        (.ok ((Framing.cut maxFrameSize v.content).map .ok), (view s).pulled id v) := by
      simp only [Store.registry, (Store.acts_of_resolve resolved).pull, Except.map, Store.pulled]
    rcases forwards.pull id s with (⟨_, kept⟩ | ⟨answered, kept⟩) | ⟨_, _, _, opened, _, kept⟩
    · exact .inl kept
    · exact .inr ⟨by simp [answered, own], v, rfl, kept.trans (by rw [own])⟩
    · exact .inr ⟨by simp [opened], v, rfl, kept.trans (by rw [own])⟩

/-- A download fails before its pull opens, or because it broke off. -/
theorem download_residue (forwards : r.Forwards Store.registry view handle) (id : Identifier)
    {s : σ} (failed : Fails (download r id s).1) : Residue r view s (view (download r id s).2) := by
  have looked := forwarded_get forwards id s
  unfold download at failed ⊢
  rcases got : r.get id s with ⟨_ | record, t⟩
  · exact .unchanged (by simpa [got] using looked)
  · have same : view t = view s := by simpa [got] using looked
    have counted := forwarded_pull forwards id t
    simp only [got] at failed ⊢
    rcases opened : r.pull id t with ⟨_ | stream, u⟩
    · simp only [opened, fails_error, not_true_eq_false, false_and, or_false] at counted
      exact .unchanged (counted.trans same)
    · simp only [opened] at counted failed ⊢
      cases assembled : stream.assemble with
      | ok content => simp [assembled] at failed
      | error error =>
        refine Residue.trans same ?_
        rcases counted with kept | ⟨_, v, found, kept⟩
        · exact .unchanged kept
        · have broken : Fails stream.assemble := ⟨error, assembled⟩
          simp only [kept]
          exact .brokenPull rfl (by rw [opened]) broken found

end Forwards

namespace UploadSession

variable {r : Registry σ υ} {view : σ → Store} {handle : υ → Upload} {session : UploadSession υ}
  {metadata : UploadMetadata}

/-- A form that is not committed is given up, wherever it fails behind the start of its payload. -/
theorem finishForm_cancels (forwards : r.Forwards Store.registry view handle)
    (going : session.IsGoing handle metadata) (payload : Part) (rest : List Part)
    (ending : Except FormError Unit) {s : σ}
    (failed : Fails (session.finishForm r payload rest ending s).1) :
    (view s).Cancelled (view (session.finishForm r payload rest ending s).2) := by
  have settled := relay_settles forwards going payload.content s
  have ended := relay_ends r session payload.content s
  unfold finishForm at failed ⊢
  rcases relayed : session.relay r payload.content s with ⟨_ | _, after, t⟩
  · simp only [relayed, Settles, Ends] at settled ended
    simp only [abort_dead r ended.2.1]
    exact settled
  · simp only [relayed, Settles] at settled failed ⊢
    obtain ⟨going, same⟩ := settled
    rw [← same]
    cases trailing : Form.trailingError? ending rest with
    | some error => exact abort_going forwards going t
    | none =>
      simp only [trailing] at failed ⊢
      have settled := commit_settles forwards going t
      rcases committed : after.commit r t with ⟨_ | _, u⟩
      · rwa [committed] at settled
      · simp [committed] at failed

end UploadSession

theorem uploadForm_residue {r : Registry σ υ} {view : σ → Store} {handle : υ → Upload}
    (forwards : r.Forwards Store.registry view handle) (limits : Limits) (form : Form) {s : σ}
    (failed : Fails (uploadForm r limits form s).1) :
    Residue r view s (view (uploadForm r limits form s).2) := by
  unfold uploadForm at failed ⊢
  split
  · exact .nothing
  next draft payload rest collected =>
    split
    · exact .nothing
    next metadata finished =>
      have started := UploadSession.begin_settles forwards (frameSize limits.chunkSize) metadata s
      simp only [collected, finished] at failed
      rcases begun : UploadSession.begin r (frameSize limits.chunkSize) metadata s with
        ⟨_ | session, t⟩
      · rw [begun] at started
        by_cases opened : Fails (r.openUpload s).1
        · exact .unchanged (started.1 opened)
        · exact .cancelledUpload (started.2 opened)
      · rw [begun] at started
        obtain ⟨_, going, _, same⟩ := started
        simp only [begun] at failed
        exact .trans same
          (.cancelledUpload (session.finishForm_cancels forwards going payload rest form.ending failed))

namespace Gateway

/-! ### How requests are answered -/

/-- A request is refused for what it asks, or what it asks for is done. -/
theorem run_cases (g : Gateway σ υ) (endpoint : Endpoint) (request : Request)
    (state : GatewayState σ) :
    (∃ error, g.run endpoint request state = (.error error, state)) ∨
      ∃ plan, g.read endpoint request = .ok plan ∧
        g.run endpoint request state = g.act plan state := by
  unfold run
  cases planned : g.read endpoint request with
  | error error => exact .inl ⟨error, rfl⟩
  | ok plan => exact .inr ⟨plan, rfl, rfl⟩

theorem answer_run (g : Gateway σ υ) (state : GatewayState σ) {request : Request} {route : Route}
    {endpoint : Endpoint} (found : Route.ofPath? request.path = some route)
    (allowed : route.endpoint? request.method = some endpoint) :
    (g.answer request state).1.status =
        (respond (g.wording.malformed request) (g.run endpoint request state)).1.status ∧
      (g.answer request state).2 = (g.run endpoint request state).2 := by
  simp only [answer, found, allowed]
  rcases g.run endpoint request state with ⟨_ | _, after⟩
  · simp only [respond]
    split <;> exact ⟨rfl, trivial⟩
  · simp only [respond]
    split <;> exact ⟨rfl, trivial⟩

/-- A request that comes to no endpoint changes nothing. -/
theorem answer_cases (g : Gateway σ υ) (request : Request) (state : GatewayState σ) :
    (g.answer request state).2 = state ∨
      ∃ route endpoint, Route.ofPath? request.path = some route ∧
        route.endpoint? request.method = some endpoint ∧
        (g.answer request state).1.status =
          (respond (g.wording.malformed request) (g.run endpoint request state)).1.status ∧
        (g.answer request state).2 = (g.run endpoint request state).2 := by
  cases found : Route.ofPath? request.path with
  | none => exact .inl (by simp only [answer, found])
  | some route =>
    cases allowed : route.endpoint? request.method with
    | none => exact .inl (by simp only [answer, found, allowed])
    | some endpoint => exact .inr ⟨route, endpoint, rfl, allowed, answer_run g state found allowed⟩

/-! ### What failures leave -/

variable {r : Registry σ υ} {view : σ → Store} {handle : υ → Upload} {state : GatewayState σ}

structure Untouched (r : Registry σ υ) (view : σ → Store) (before after : GatewayState σ) :
    Prop where
  tasks : after.tasks = before.tasks
  versions : (view after.registry).durable = (view before.registry).durable
  entries : ∃ entries, (view after.registry).transfers =
    (view before.registry).transfers ++ entries ∧ entries.length ≤ 1
  residue : Residue r view before.registry (view after.registry)

theorem untouched {before after : GatewayState σ} (tasks : after.tasks = before.tasks)
    (residue : Residue r view before.registry (view after.registry)) :
    Untouched r view before after := ⟨tasks, residue.durable, residue.transfers, residue⟩

def Spares (r : Registry σ υ) (view : σ → Store) (words : Malformed → String)
    (state : GatewayState σ) (answer : Answer σ) : Prop :=
  400 ≤ (respond words answer).1.status → Untouched r view state answer.2

variable {g : Gateway σ υ} {words : Malformed → String} {s : σ} {operation : Operation}

theorem Spares.unchanged (result : Except GatewayError Response) :
    Spares r view words state (result, state) := fun _ => untouched rfl .nothing

theorem Spares.succeeded {response : Response} (fine : response.status < 400)
    (after : GatewayState σ) : Spares r view words state (.ok response, after) :=
  fun failure => absurd fine (Nat.not_lt.mpr failure)

@[simp] theorem fails_call (context : String) (asked : Call σ α) (s : σ) :
    Fails (call context asked s).1 ↔ Fails (asked s).1 := fails_mapError _ _

@[simp] theorem fails_present (respond : α → Response) (result : Except GatewayError α × σ) :
    Fails (present respond result).1 ↔ Fails result.1 := fails_map _ _

theorem present_fine {respond : α → Response} {result : Except GatewayError α × σ}
    (fine : ∀ a, (respond a).status < 400) {response : Response}
    (answered : (present respond result).1 = .ok response) : response.status < 400 := by
  rcases result with ⟨error | a, s⟩
  · contradiction
  · exact Except.ok.inj answered ▸ fine a

/-- What an operation responds is no failure. -/
theorem perform_fine {response : Response} (answered : (g.perform operation s).1 = .ok response) :
    response.status < 400 := by
  have ok : 200 < 400 := by decide
  have created : 201 < 400 := by decide
  cases operation with
  | get | «exists» | list | delete | removeTag | download =>
    exact present_fine (fun _ => ok) answered
  | addTag | upload => exact present_fine (fun _ => created) answered

theorem perform_residue (forwards : g.registry.Forwards Store.registry view handle)
    (failed : Fails (g.perform operation s).1) :
    Residue g.registry view s (view (g.perform operation s).2) := by
  cases operation with
  | get id => exact .unchanged (forwarded_get forwards id s)
  | «exists» id => exact .unchanged (forwarded_get forwards id s)
  | list query =>
    have refused : Fails (g.registry.query query s).1 := by simpa [perform] using failed
    exact .unchanged ((forwards.query query s).clean (fun _ => rfl) refused)
  | delete id =>
    have refused : Fails (g.registry.delete id s).1 := by simpa [perform] using failed
    exact .unchanged ((forwards.delete id s).clean Store.delete_refused refused)
  | addTag request =>
    have refused : Fails (g.registry.addTag request s).1 := by simpa [perform] using failed
    exact .unchanged ((forwards.addTag request s).clean Store.addTag_refused refused)
  | removeTag request =>
    have refused : Fails (g.registry.removeTag request s).1 := by simpa [perform] using failed
    exact .unchanged ((forwards.removeTag request s).clean Store.removeTag_refused refused)
  | upload form => exact uploadForm_residue forwards g.limits form ((fails_present _ _).mp failed)
  | download id => exact download_residue forwards id ((fails_present _ _).mp failed)

theorem enqueue_spares (task : TaskRequest) : Spares r view words state (enqueue task state) := by
  unfold enqueue
  rcases enqueued : state.tasks.enqueue task with ⟨_ | _, tasks⟩
  · exact fun _ => untouched (TaskQueue.enqueue_refused enqueued) .nothing
  · exact .succeeded (by decide : 201 < 400) _

theorem act_spares (forwards : g.registry.Forwards Store.registry view handle) (plan : Plan) :
    Spares g.registry view words state (g.act plan state) := by
  cases plan with
  | answer response => exact .unchanged _
  | enqueue task => exact enqueue_spares task
  | operate operation =>
    have residue (failed : Fails (g.perform operation state.registry).1) :=
      perform_residue forwards failed
    rcases performed : g.perform operation state.registry with ⟨error | response, s⟩ <;>
      simp only [act, performed]
    · rw [performed] at residue
      exact fun _ => untouched rfl (residue (fails_error error))
    · exact .succeeded (perform_fine (congrArg Prod.fst performed)) _

theorem run_spares (forwards : g.registry.Forwards Store.registry view handle)
    (endpoint : Endpoint) (request : Request) :
    Spares g.registry view words state (g.run endpoint request state) := by
  rcases run_cases g endpoint request state with ⟨error, refused⟩ | ⟨plan, _, acted⟩
  · rw [refused]
    exact .unchanged _
  · rw [acted]
    exact act_spares forwards plan

theorem answer_untouched (forwards : g.registry.Forwards Store.registry view handle)
    (request : Request) (state : GatewayState σ)
    (failure : 400 ≤ (g.answer request state).1.status) :
    Untouched g.registry view state (g.answer request state).2 := by
  rcases answer_cases g request state with
    unasked | ⟨_, endpoint, _, _, sameStatus, sameState⟩
  · rw [unasked]
    exact untouched rfl .nothing
  · rw [sameState]
    exact run_spares forwards endpoint request (sameStatus ▸ failure)

/-- Whatever is requested and whatever breaks on the way to the store: a failure leaves the task
queue and all versions as they were, and in the log at most one upload that was cancelled or one
pull that broke off. Only such a pull is counted, on its version. So does an upload whose form
arrives in pieces and breaks anywhere among them. -/
theorem failed_request_changes_nothing {g : Gateway σ υ}
    (forwards : g.registry.Forwards Store.registry view handle) (state : GatewayState σ) :
    (∀ request, 400 ≤ (g.answer request state).1.status →
      Untouched g.registry view state (g.answer request state).2) ∧
    ∀ words form, 400 ≤ (respond words (g.upload form state)).1.status →
      Untouched g.registry view state (g.upload form state).2 :=
  ⟨fun request failure => answer_untouched forwards request state failure,
    fun _ form failure => act_spares forwards (.operate (.upload form)) failure⟩

def pullsBreak : Faults where
  pullAfter := some (1, { kind := .transport, registry := "flaky", cause := "stream reset" })

def flakyGateway : Gateway Store (Upload × Nat) where
  registry := Store.registry.withFaults pullsBreak
  wording := default

def toolDownload : Request where
  method := .get
  target := "/artifacts/git/alice/tool/download?identifier=v1"

def toolState : GatewayState Store where
  registry := { versions := [Traffic.firstTool], clock := ⟨1, 0⟩ }
  tasks := { ids := default }

theorem broken_download_changes_nothing :
    (flakyGateway.answer toolDownload toolState).1.status = 500 ∧
    (flakyGateway.answer toolDownload toolState).2.registry.durable =
      toolState.registry.durable ∧
    (flakyGateway.answer toolDownload toolState).2.registry ≠ toolState.registry := by
  have failure : (flakyGateway.answer toolDownload toolState).1.status = 500 := by decide +kernel
  have forwards : flakyGateway.registry.Forwards Store.registry id Prod.fst :=
    Store.registry.withFaults_forwards pullsBreak
  have failing : 400 ≤ (flakyGateway.answer toolDownload toolState).1.status := by
    rw [failure]
    decide
  have untouched := (failed_request_changes_nothing forwards toolState).1 toolDownload failing
  exact ⟨failure, untouched.versions, by decide +kernel⟩

end Gateway

end Depot
