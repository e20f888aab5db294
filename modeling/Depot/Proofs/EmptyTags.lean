import Depot.Proofs.Served
import Depot.Proofs.TransferLog

/-! Empty tags. No identifier names the empty tag, and whoever asks for it to be put on a version is
refused by the store and by the gateway. Uploads are not asked: what a metadata frame or a form
lists is put on the version that is committed. So a version carries the empty tag only since an
upload that lists it, and every such upload puts it there. -/
namespace Depot

theorem Identifier.tag_nonempty (id : Identifier) : id.reference ≠ .tag "" := by
  intro same
  exact id.reference_ne (by rw [same, Reference.raw])

namespace Versions

variable {versions : List Version} {name : QualifiedName} {hash : String}

def EmptyTagged (versions : List Version) (name : QualifiedName) (hash : String) : Prop :=
  ∃ v ∈ versions, v.name = name ∧ v.hash = hash ∧ "" ∈ v.tags

theorem EmptyTagged.of_map {change : Version → Version} (keeping : Version.Keeping change)
    (none_added : ∀ v, "" ∈ (change v).tags → "" ∈ v.tags)
    (tagged : EmptyTagged (versions.map change) name hash) : EmptyTagged versions name hash := by
  obtain ⟨_, member, rfl, rfl, carried⟩ := tagged
  obtain ⟨v, old, rfl⟩ := List.mem_map.mp member
  exact ⟨v, old, (keeping.name v).symm, (keeping.hash v).symm, none_added v carried⟩

theorem EmptyTagged.of_update {other : QualifiedName} {key : String} {change : Version → Version}
    (keeping : Version.Keeping change) (none_added : ∀ v, "" ∈ (change v).tags → "" ∈ v.tags)
    (tagged : EmptyTagged (update versions other key change) name hash) :
    EmptyTagged versions name hash := by
  apply tagged.of_map (keeping.onKey other key)
  intro v carried
  split at carried
  · exact none_added v carried
  · exact carried

end Versions

open Versions (EmptyTagged)

namespace Store

/-- Every empty tag of the later store is in the earlier one. -/
def NoneAdded (before after : Store) : Prop :=
  ∀ name hash, EmptyTagged after.versions name hash → EmptyTagged before.versions name hash

theorem NoneAdded.trans {s t u : Store} (first : NoneAdded s t) (second : NoneAdded t u) :
    NoneAdded s u := fun name hash tagged => first name hash (second name hash tagged)

theorem noneAdded_self (s : Store) : NoneAdded s s := fun _ _ tagged => tagged

theorem noneAdded_of_durable {s t : Store} (same : t.durable = s.durable) : NoneAdded s t := by
  rintro name hash ⟨v, member, rfl, rfl, carried⟩
  have kept : v.uncounted ∈ s.durable := same ▸ List.mem_map_of_mem member
  obtain ⟨w, old, equal⟩ := List.mem_map.mp kept
  have sameName : w.uncounted.name = v.uncounted.name := congrArg Version.name equal
  have sameHash : w.uncounted.hash = v.uncounted.hash := congrArg Version.hash equal
  have sameTags : w.uncounted.tags = v.uncounted.tags := congrArg Version.tags equal
  simp only [Version.uncounted] at sameName sameHash sameTags
  exact ⟨w, old, sameName, sameHash, sameTags ▸ carried⟩

variable (s : Store)

theorem pull_noneAdded (id : Identifier) : NoneAdded s (s.pull id).2 := by
  unfold pull
  split
  · exact noneAdded_self s
  · exact fun _ _ tagged => tagged.of_update Version.keeping_pulled fun _ carried => carried

theorem delete_noneAdded (id : Identifier) : NoneAdded s (s.delete id).2 := by
  unfold delete
  split
  · exact noneAdded_self s
  · rintro name hash ⟨v, member, kept⟩
    exact ⟨v, (Versions.mem_erase.mp member).1, kept⟩

/-- The empty tag itself is refused here. -/
theorem addTag_noneAdded (r : TagRequest) : NoneAdded s (s.addTag r).2 := by
  unfold addTag
  split
  · exact noneAdded_self s
  next nonempty =>
    split
    · exact noneAdded_self s
    · intro _ _ tagged
      apply tagged.of_map (Version.keeping_retagged r.name r.versionHash r.tag)
      intro v carried
      rwa [Version.mem_retagged, if_neg fun same => nonempty same.2.symm] at carried

theorem removeTag_noneAdded (r : TagRequest) : NoneAdded s (s.removeTag r).2 := by
  unfold removeTag
  split
  · exact noneAdded_self s
  · split
    · intro _ _ tagged
      exact tagged.of_update (Version.keeping_untagged r.tag) fun _ carried =>
        List.mem_of_mem_erase carried
    · exact noneAdded_self s

theorem cancel_noneAdded (u : Upload) : NoneAdded s (u.cancel s) := by
  unfold Upload.cancel
  split <;> exact noneAdded_self s

/-- A commit puts the empty tag on its own version only, and only if it was listed. -/
theorem commit_emptyTagged {metadata : UploadMetadata} {content : ByteArray}
    {name : QualifiedName} {hash : String}
    (tagged : EmptyTagged (s.commit metadata content).2.versions name hash) :
    EmptyTagged s.versions name hash ∨
      "" ∈ metadata.tags ∧ metadata.name = name ∧ Sha256.hex content = hash := by
  obtain ⟨_, member, rfl, rfl, carried⟩ := tagged
  simp only [commit, Versions.retagAll_eq_map] at member
  obtain ⟨v, stored, rfl⟩ := List.mem_map.mp member
  rw [Version.retaggedAll_name, Version.retaggedAll_hash]
  rw [Version.mem_retaggedAll] at carried
  split at carried
  next listed => exact .inr ⟨listed.2, listed.1.symm, carried.symm⟩
  next =>
    unfold addContent at stored
    split at stored
    · exact .inl ⟨v, stored, rfl, rfl, carried⟩
    · rcases (Versions.mem_insert _ _ _).mp stored with rfl | old
      · simp [freshVersion] at carried
      · exact .inl ⟨v, old, rfl, rfl, carried⟩

theorem commit_tags_empty {metadata : UploadMetadata} (listed : "" ∈ metadata.tags)
    (content : ByteArray) :
    EmptyTagged (s.commit metadata content).2.versions metadata.name (Sha256.hex content) := by
  obtain ⟨v, stored, named, hashed⟩ :=
    s.addContent_present metadata.name (Sha256.hex content) content
  simp only [commit, Versions.retagAll_eq_map]
  refine ⟨_, List.mem_map_of_mem stored, ?_, ?_, ?_⟩
  · rw [Version.retaggedAll_name, named]
  · rw [Version.retaggedAll_hash, hashed]
  · rw [Version.mem_retaggedAll, if_pos ⟨named, listed⟩, hashed]

end Store

/-! ### Requests -/

section Registries

variable {σ υ : Type}

/-- The registry, but that no upload can be closed. -/
def Registry.withoutCommits (r : Registry σ υ) : Registry σ υ :=
  { r with close := fun u s =>
      (.error { kind := .other, registry := r.label, cause := "closed for uploads" }, u, s) }

theorem Gateway.perform_withoutCommits (g : Gateway σ υ) {operation : Operation}
    (other : ∀ form, operation ≠ .upload form) (s : σ) :
    g.perform operation s =
      { g with registry := g.registry.withoutCommits }.perform operation s := by
  cases operation with
  | upload form => exact absurd rfl (other form)
  | get | «exists» | list | delete | addTag | removeTag | download => rfl

/-- Only an upload ever closes anything. -/
theorem Gateway.run_withoutCommits (g : Gateway σ υ) {endpoint : Endpoint}
    (other : endpoint ≠ .upload) (request : Request) (state : GatewayState σ) :
    g.run endpoint request state =
      { g with registry := g.registry.withoutCommits }.run endpoint request state := by
  have same : { g with registry := g.registry.withoutCommits }.read endpoint request =
      g.read endpoint request := rfl
  simp only [run, same]
  cases planned : g.read endpoint request with
  | error error => rfl
  | ok plan =>
    cases plan with
    | answer | enqueue => rfl
    | operate operation =>
      have calls (form : Form) : operation ≠ .upload form := by
        rintro rfl
        cases read_plans planned
        exact other rfl
      simp only [act, perform_withoutCommits g calls]

theorem UploadSession.finishForm_complete {r : Registry σ υ} {session : UploadSession υ}
    {payload : Part} {rest : List Part} {ending : Except FormError Unit} {s : σ}
    (done : ¬ Fails (session.finishForm r payload rest ending s).1) :
    rest = [] ∧ ending = .ok () := by
  unfold finishForm at done
  split at done
  · simp at done
  · split at done
    · simp at done
    next complete =>
      cases rest with
      | cons part rest => simp [Form.trailingError?] at complete
      | nil =>
        cases ending with
        | error error => simp [Form.trailingError?] at complete
        | ok => exact ⟨rfl, rfl⟩

/-- A form that is accepted was whole and described an upload. -/
theorem uploadForm_described {r : Registry σ υ} {limits : Limits} {form : Form} {s : σ}
    (whole : form.IsWhole) (done : ¬ Fails (uploadForm r limits form s).1) :
    form.ending = .ok () ∧ ∃ front payload metadata,
      Form.CutAt form.parts front payload [] ∧ Describes limits front metadata := by
  unfold uploadForm at done
  split at done
  · simp at done
  next draft payload rest collected =>
    split at done
    · simp at done
    next metadata finished =>
      split at done
      · simp at done
      · obtain ⟨rfl, ended⟩ := UploadSession.finishForm_complete done
        obtain ⟨front, cut, describes⟩ :=
          (MetadataDraft.collect_iff form.ending (whole ended)).mp ⟨draft, collected, finished⟩
        exact ⟨ended, front, payload, metadata, cut, describes⟩

end Registries

/-- The request posts a form that describes this upload and is complete. -/
def Request.Uploads (request : Request) (limits : Limits) (metadata : UploadMetadata)
    (content : ByteArray) : Prop :=
  ∃ parts front payload, request.Posts limits parts ∧ Form.CutAt parts front payload [] ∧
    Describes limits front metadata ∧ payload.bytes = content

namespace Store

theorem withoutCommits_keeps (s : Store) : registry.withoutCommits.Keeps (NoneAdded s) where
  openUpload _ kept := kept
  send _ _ _ kept := kept
  close _ _ kept := kept
  cancel u t kept := kept.trans (t.cancel_noneAdded u)
  pull id t kept := kept.trans (t.pull_noneAdded id)
  get _ _ kept := kept
  query _ _ kept := kept
  delete id t kept := kept.trans (t.delete_noneAdded id)
  addTag r t kept := kept.trans (t.addTag_noneAdded r)
  removeTag r t kept := kept.trans (t.removeTag_noneAdded r)

end Store

namespace Gateway

variable {wording : Wording} {limits : Limits} {state : GatewayState Store} {request : Request}
  {name : QualifiedName} {hash : String}

theorem run_noneAdded {endpoint : Endpoint} (other : endpoint ≠ .upload) :
    state.registry.NoneAdded ((ofStore wording limits).run endpoint request state).2.registry := by
  rw [run_withoutCommits (ofStore wording limits) other]
  exact run_keeps (Store.withoutCommits_keeps state.registry) endpoint request
    (Store.noneAdded_self _)

theorem upload_refused_noneAdded {form : Form}
    (refused : Fails (uploadForm Store.registry limits form state.registry).1) :
    state.registry.NoneAdded ((ofStore wording limits).upload form state).2.registry := by
  have residue := uploadForm_residue Store.registry.forwards_self limits form refused
  simp only [upload, act, perform, present, ofStore]
  rcases uploaded : uploadForm Store.registry limits form state.registry with ⟨_ | _, s⟩
  · rw [uploaded] at residue
    exact Store.noneAdded_of_durable residue.durable
  · simp [uploaded] at refused

theorem route_of_upload {route : Route} {method : Method}
    (allowed : route.endpoint? method = some .upload) : route = .artifacts ∧ method = .post := by
  cases route <;> cases method <;> simp_all [Route.endpoint?]

def ListsEmptyTag (request : Request) (limits : Limits) (name : QualifiedName) (hash : String) :
    Prop :=
  ∃ metadata content, request.Uploads limits metadata content ∧
    "" ∈ metadata.tags ∧ metadata.name = name ∧ Sha256.hex content = hash

theorem upload_emptyTagged {form : Form} (path : Route.ofPath? request.path = some .artifacts)
    (method : request.method = .post) (read : request.form limits = .ok form)
    (tagged : EmptyTagged ((ofStore wording limits).upload form state).2.registry.versions
      name hash) :
    EmptyTagged state.registry.versions name hash ∨ ListsEmptyTag request limits name hash := by
  -- What is refused adds nothing; what is accepted was whole and described an upload.
  by_cases refused : Fails (uploadForm Store.registry limits form state.registry).1
  · exact .inl (upload_refused_noneAdded refused name hash tagged)
  · obtain ⟨ended, front, payload, metadata, cut, describes⟩ :=
      uploadForm_described (Request.form_whole read) refused
    obtain ⟨parts, ending⟩ := form
    obtain rfl : ending = .ok () := ended
    have posts : request.Posts limits parts := ⟨path, method, read⟩
    have uploads : request.Uploads limits metadata payload.bytes :=
      ⟨parts, front, payload, posts, cut, describes, rfl⟩
    simp only [upload, act, perform, present, ofStore,
      uploadForm_committed posts.clean cut describes, Store.log] at tagged
    rcases Store.commit_emptyTagged _ tagged with before | listed
    · exact .inl before
    · exact .inr ⟨metadata, payload.bytes, uploads, listed⟩

/-- A request gives a version the empty tag only by an upload that lists it. -/
theorem answer_emptyTagged
    (tagged : EmptyTagged ((ofStore wording limits).answer request state).2.registry.versions
      name hash) :
    EmptyTagged state.registry.versions name hash ∨ ListsEmptyTag request limits name hash := by
  rcases answer_cases (ofStore wording limits) request state with
    unasked | ⟨route, endpoint, found, allowed, _, ran⟩
  · rw [unasked] at tagged
    exact .inl tagged
  · rw [ran] at tagged
    by_cases uploads : endpoint = .upload
    · subst uploads
      obtain ⟨rfl, posted⟩ := route_of_upload allowed
      rcases run_cases (ofStore wording limits) .upload request state with
        ⟨error, refused⟩ | ⟨plan, planned, acted⟩
      · rw [refused] at tagged
        exact .inl tagged
      · rw [acted] at tagged
        cases read_plans planned with
        | answer _ response => exact .inl tagged
        | upload formed => exact upload_emptyTagged found posted formed tagged
    · exact .inl (run_noneAdded uploads name hash tagged)

theorem answer_uploads {metadata : UploadMetadata} {content : ByteArray}
    (uploads : request.Uploads limits metadata content) (listed : "" ∈ metadata.tags) :
    EmptyTagged ((ofStore wording limits).answer request state).2.registry.versions metadata.name
      (Sha256.hex content) := by
  obtain ⟨parts, front, payload, posts, cut, describes, rfl⟩ := uploads
  rw [answer_committed posts state cut describes]
  exact state.registry.commit_tags_empty listed payload.bytes

/-- The endpoints for tags refuse the empty tag before they ask the registry. -/
theorem answer_empty_newTag (wording : Wording) (state : GatewayState Store) {body : TagRequest}
    (path : Route.ofPath? request.path = some .artifactTags) (method : request.method = .post)
    (decoded : request.json limits (TagRequest.decoder "newTag") = .ok body)
    (empty : body.tag = "") : (ofStore wording limits).answer request state =
      ((GatewayError.malformedRequest (.emptyTag "newTag")).response (wording.malformed request),
        state) := by
  have allowed : Route.artifactTags.endpoint? .post = some .addTag := rfl
  have refused : (ofStore wording limits).read .addTag request =
      .error (.malformedRequest (.emptyTag "newTag")) := by
    simp only [read, ofStore, decoded, bind, Except.bind, requireTag, empty, if_true, Except.map]
  simp only [answer, path, method, allowed, run, refused, respond, reduceCtorEq, if_false]
  rfl

end Gateway

/-! ### Requests and clients of the store -/

def Traffic.State.sent? (w : Traffic.State) (i : Nat) : Option (UploadMetadata × ByteArray) :=
  match w.handles i with
  | .held u => u.metadata.map fun metadata => (metadata, u.content)
  | _ => none

inductive Event where
  | call (step : Traffic.Step)
  | request (request : Request)

structure Service where
  clients : Traffic.State
  tasks : TaskQueue

namespace Service

def start (tasks : TaskQueue) : Service := ⟨Traffic.start, tasks⟩

def versions (w : Service) : List Version := w.clients.store.versions

def next (wording : Wording) (limits : Limits) (w : Service) : Event → Service
  | .call step => { w with clients := (w.clients.step step).2 }
  | .request request =>
    let state := ((Gateway.ofStore wording limits).answer request ⟨w.clients.store, w.tasks⟩).2
    ⟨w.clients.setStore state.registry, state.tasks⟩

def after (wording : Wording) (limits : Limits) (w : Service) (events : List Event) : Service :=
  events.foldl (next wording limits) w

def Commits (limits : Limits) (w : Service) (metadata : UploadMetadata) (content : ByteArray) :
    Event → Prop
  | .call (.close i) => w.clients.isGoing i = true ∧ w.clients.sent? i = some (metadata, content)
  | .call _ => False
  | .request request => request.Uploads limits metadata content

variable {wording : Wording} {limits : Limits} {w : Service} {name : QualifiedName} {hash : String}
  {metadata : UploadMetadata} {content : ByteArray}

theorem close_commits {i : Nat} (commits : w.Commits limits metadata content (.call (.close i))) :
    (w.next wording limits (.call (.close i))).versions =
      (w.clients.store.commit metadata content).2.versions := by
  obtain ⟨going, sent⟩ := commits
  obtain ⟨u, handle, unfinished⟩ := Traffic.State.held_of_going going
  obtain ⟨named, rfl⟩ : u.metadata = some metadata ∧ u.content = content := by
    simpa [Traffic.State.sent?, handle] using sent
  simp [next, versions, Traffic.State.step, handle, Upload.Ready.close ⟨unfinished, named⟩,
    Store.log]

/-- A close that commits nothing leaves all versions as they are. -/
theorem close_idle {i : Nat}
    (idle : ¬ ∃ metadata content, w.Commits limits metadata content (.call (.close i))) :
    (w.next wording limits (.call (.close i))).versions = w.versions := by
  cases handle : w.clients.handles i with
  | unused => simp [next, versions, Traffic.State.step, handle]
  | dropped => simp [next, versions, Traffic.State.step, handle]
  | held u =>
    cases finished : u.finished with
    | true => simp [next, versions, Traffic.State.step, handle, Upload.close_finished finished]
    | false =>
      cases named : u.metadata with
      | none =>
        simp [next, versions, Traffic.State.step, handle, Upload.close_unnamed finished named,
          Store.log]
      | some metadata =>
        refine absurd ⟨metadata, u.content, ?_, ?_⟩ idle
        · simp [Traffic.State.isGoing, handle, finished]
        · simp [Traffic.State.sent?, handle, named]

theorem call_noneAdded {step : Traffic.Step} (other : ∀ i, step ≠ .close i) :
    w.clients.store.NoneAdded (w.clients.step step).2.store := by
  cases step with
  | openUpload i => simp only [Traffic.State.step]; split <;> exact Store.noneAdded_self _
  | send i frame => simp only [Traffic.State.step]; split <;> exact Store.noneAdded_self _
  | close i => exact absurd rfl (other i)
  | drop i =>
    simp only [Traffic.State.step]
    split
    · exact Store.cancel_noneAdded _ _
    · exact Store.noneAdded_self _
  | pull id => exact Store.pull_noneAdded _ id
  | get id => exact Store.noneAdded_self _
  | query q => exact Store.noneAdded_self _
  | delete id => exact Store.delete_noneAdded _ id
  | addTag r => exact Store.addTag_noneAdded _ r
  | removeTag r => exact Store.removeTag_noneAdded _ r
  | clock now => exact Store.noneAdded_self _

/-- What one event adds. -/
theorem next_emptyTagged {event : Event}
    (tagged : EmptyTagged (w.next wording limits event).versions name hash) :
    EmptyTagged w.versions name hash ∨ ∃ metadata content, w.Commits limits metadata content event ∧
      "" ∈ metadata.tags ∧ metadata.name = name ∧ Sha256.hex content = hash := by
  cases event with
  | request request => exact Gateway.answer_emptyTagged tagged
  | call step =>
    by_cases closes : ∃ i, step = .close i
    · obtain ⟨i, rfl⟩ := closes
      by_cases commits : ∃ metadata content, w.Commits limits metadata content (.call (.close i))
      · obtain ⟨metadata, content, commits⟩ := commits
        rw [close_commits commits] at tagged
        rcases Store.commit_emptyTagged _ tagged with before | listed
        · exact .inl before
        · exact .inr ⟨metadata, content, commits, listed⟩
      · rw [close_idle commits] at tagged
        exact .inl tagged
    · exact .inl (call_noneAdded (fun i same => closes ⟨i, same⟩) name hash tagged)

/-- What a run adds comes from one event of it. -/
theorem after_emptyTagged {events : List Event}
    (tagged : EmptyTagged (w.after wording limits events).versions name hash) :
    EmptyTagged w.versions name hash ∨ ∃ front event back metadata content,
      events = front ++ event :: back ∧
      (w.after wording limits front).Commits limits metadata content event ∧
      "" ∈ metadata.tags ∧ metadata.name = name ∧ Sha256.hex content = hash := by
  induction events generalizing w with
  | nil => exact .inl tagged
  | cons event events ih =>
    rcases ih tagged with earlier | ⟨front, later, back, metadata, content, rfl, origin⟩
    · rcases next_emptyTagged earlier with before | ⟨metadata, content, origin⟩
      · exact .inl before
      · exact .inr ⟨[], event, events, metadata, content, rfl, origin⟩
    · exact .inr ⟨event :: front, later, back, metadata, content, rfl, origin⟩

theorem commits_emptyTagged {event : Event} (commits : w.Commits limits metadata content event)
    (listed : "" ∈ metadata.tags) :
    EmptyTagged (w.next wording limits event).versions metadata.name (Sha256.hex content) := by
  cases event with
  | request request => exact Gateway.answer_uploads commits listed
  | call step =>
    cases step with
    | close i =>
      rw [close_commits commits]
      exact Store.commit_tags_empty _ listed content
    | openUpload | send | drop | pull | get | query | delete | addTag | removeTag | clock =>
      exact commits.elim

/-- In every run of requests and of other clients' calls, a version carries the empty tag only since
an upload of its content under its name, which listed it; and every such upload puts it there. To
ask for it is refused: the store answers that the request is invalid, the gateway says so before it
asks the store. No identifier finds a version by it. -/
theorem empty_tags_are_uploaded (wording : Wording) (limits : Limits) (tasks : TaskQueue)
    (events : List Event) :
    let w := (start tasks).after wording limits events
    (∀ v ∈ w.versions, "" ∈ v.tags → ∃ front event back metadata content,
      events = front ++ event :: back ∧
      ((start tasks).after wording limits front).Commits limits metadata content event ∧
      "" ∈ metadata.tags ∧ metadata.name = v.name ∧ Sha256.hex content = v.hash) ∧
    (∀ event metadata content, w.Commits limits metadata content event → "" ∈ metadata.tags →
      ∃ v ∈ (w.next wording limits event).versions,
        v.name = metadata.name ∧ v.hash = Sha256.hex content ∧ "" ∈ v.tags) ∧
    (∀ r : TagRequest, r.tag = "" →
      w.next wording limits (.call (.addTag r)) = w ∧
      (w.clients.step (.addTag r)).1 = .done (.error Store.Refusal.emptyTag.error)) ∧
    (∀ request r, Route.ofPath? request.path = some .artifactTags → request.method = .post →
      request.json limits (TagRequest.decoder "newTag") = .ok r → r.tag = "" →
      w.next wording limits (.request request) = w ∧
      ((Gateway.ofStore wording limits).answer request ⟨w.clients.store, w.tasks⟩).1 =
        (GatewayError.malformedRequest (.emptyTag "newTag")).response
          (wording.malformed request)) ∧
    ∀ id : Identifier, id.reference ≠ .tag "" := by
  intro w
  refine ⟨fun v stored carried => ?_, fun event metadata content commits listed => ?_,
    fun r empty => ?_, fun request r path method decoded empty => ?_, Identifier.tag_nonempty⟩
  · have tagged : EmptyTagged w.versions v.name v.hash := ⟨v, stored, rfl, rfl, carried⟩
    rcases after_emptyTagged tagged with ⟨_, impossible, _⟩ | origin
    · simp [start, Traffic.start, versions] at impossible
    · exact origin
  · exact commits_emptyTagged commits listed
  · have refused : w.clients.store.addTag r =
        (.error Store.Refusal.emptyTag.error, w.clients.store) := by
      simp [Store.addTag, empty]
    simp [next, Traffic.State.step, refused, Traffic.State.setStore_self]
  · have refused := Gateway.answer_empty_newTag wording ⟨w.clients.store, w.tasks⟩ path method
      decoded empty
    simp [next, refused, Traffic.State.setStore_self]

def emptyTagRun : List Traffic.Step := [
  .openUpload 0,
  .send 0 (.metadata ⟨Traffic.toolName, ["", "v1"]⟩),
  .send 0 (.content "abc".toUTF8),
  .close 0]

/-- A part for a tag has no content. -/
def emptyTagForm : Request where
  method := .post
  target := "/artifacts"
  contentType := some "multipart/form-data; boundary=x"
  body := { bytes := (
    "--x\r\ncontent-disposition:name=source\r\n\r\ngit\r\n" ++
    "--x\r\ncontent-disposition:name=author\r\n\r\nalice\r\n" ++
    "--x\r\ncontent-disposition:name=name\r\n\r\ntool\r\n" ++
    "--x\r\ncontent-disposition:name=tag\r\n\r\n\r\n" ++
    "--x\r\ncontent-disposition:name=file\r\n\r\nabc\r\n--x--").toUTF8 }

def afterEvents (events : List Event) : Service :=
  (start { ids := default }).after default {} events

theorem empty_tag_was_uploaded : ∃ front event back metadata content,
    emptyTagRun.map .call = front ++ event :: back ∧
      (afterEvents front).Commits {} metadata content event ∧ "" ∈ metadata.tags ∧
      metadata.name = Traffic.toolName ∧ Sha256.hex content = Traffic.firstTool.hash := by
  let tool : Version := { Traffic.firstTool with tags := ["", "v1"], pulls := 0 }
  have stored : tool ∈ (afterEvents (emptyTagRun.map .call)).versions := by decide +kernel
  have law := empty_tags_are_uploaded default {} { ids := default } (emptyTagRun.map .call)
  exact law.1 tool stored (by decide)

/-- A frame and a form both bring the empty tag into the store. -/
theorem uploads_store_empty_tags :
    (∃ v ∈ (afterEvents (emptyTagRun.map .call)).versions, "" ∈ v.tags) ∧
    (∃ v ∈ (afterEvents [.request emptyTagForm]).versions, "" ∈ v.tags) := by
  decide +kernel

end Service

end Depot
