import Depot.Proofs.FailedRequest
import Depot.Proofs.FormMetadata

/-! Which upload forms are accepted. The registry is called only for a form whose parts in front of
the first payload describe an artifact, and commits only if nothing follows that payload. -/
namespace Depot

open Form (CutAt)

deriving instance DecidableEq for Form

namespace Form

/-- A form that comes to its end has no part that breaks. -/
def IsWhole (form : Form) : Prop :=
  form.ending = .ok () → ∀ part ∈ form.parts, part.content.failure? = none

theorem failing_whole (error : FormError) : (failing error).IsWhole := fun ended => by
  simp [failing] at ended

theorem partsFrom_whole (body delimiter : ByteArray) (fuel start : Nat) :
    (partsFrom body delimiter fuel start).IsWhole := by
  induction fuel generalizing start with
  | zero => exact failing_whole _
  | succ fuel ih =>
    simp only [partsFrom]
    split
    · exact fun _ => by simp
    · split
      · exact failing_whole _
      · split
        · exact failing_whole _
        · split
          · exact failing_whole _
          · split
            · exact fun ended => by simp at ended
            next headersEnd _ _ _ _ contentEnd _ =>
              intro ended
              exact List.forall_mem_cons.mpr ⟨rfl, ih (contentEnd + 2) ended⟩

theorem parse_whole (boundary : String) (body : ByteArray) : (parse boundary body).IsWhole := by
  simp only [parse]
  split
  · exact failing_whole _
  · exact partsFrom_whole _ _ _ _

end Form

/-- The request posts a form of these parts, and the whole of it arrives. -/
structure Request.Posts (request : Request) (limits : Limits) (parts : List Part) : Prop where
  path : Route.ofPath? request.path = some .artifacts
  method : request.method = .post
  form : request.form limits = .ok { parts }

theorem Request.form_whole {request : Request} {limits : Limits} {form : Form}
    (read : request.form limits = .ok form) : form.IsWhole := by
  unfold Request.form at read
  split at read
  · contradiction
  · split at read
    · obtain rfl := Except.ok.inj read
      exact Form.failing_whole _
    · obtain rfl := Except.ok.inj read
      exact Form.parse_whole _ _

theorem Request.Posts.clean {request : Request} {limits : Limits} {parts : List Part}
    (posts : request.Posts limits parts) : ∀ part ∈ parts, part.content.failure? = none :=
  Request.form_whole posts.form rfl

/-! ### Forms over any registry -/

section Forms

variable {σ υ : Type} (r : Registry σ υ) (form : Form) {limits : Limits} {front rest : List Part}
  {payload : Part} {metadata : UploadMetadata}

/-- A form that does not describe an upload reaches no registry. -/
theorem uploadForm_refused (clean : ∀ part ∈ form.parts, part.content.failure? = none)
    (undescribed : ¬ ∃ front payload rest metadata,
      CutAt form.parts front payload rest ∧ Describes limits front metadata) (s : σ) :
    ∃ error, uploadForm r limits form s = (.error error, s) := by
  unfold uploadForm
  split
  next error _ => exact ⟨error, rfl⟩
  next draft payload rest collected =>
    split
    next error _ => exact ⟨error, rfl⟩
    next metadata finished =>
      obtain ⟨front, described⟩ :=
        (MetadataDraft.collect_iff form.ending clean).mp ⟨draft, collected, finished⟩
      exact absurd ⟨front, payload, rest, metadata, described⟩ undescribed

/-- The payload of a form that describes an upload is relayed to it. -/
theorem uploadForm_begun (clean : ∀ part ∈ form.parts, part.content.failure? = none)
    (cut : CutAt form.parts front payload rest) (describes : Describes limits front metadata)
    {session : UploadSession υ} {s t : σ}
    (begun : UploadSession.begin r (frameSize limits.chunkSize) metadata s = (.ok session, t)) :
    uploadForm r limits form s = session.finishForm r payload rest form.ending t := by
  obtain ⟨draft, collected, finished⟩ :=
    (MetadataDraft.collect_iff form.ending clean).mpr ⟨front, cut, describes⟩
  simp only [uploadForm, collected, finished, begun]

end Forms

/-! ### Forms posted to a gateway over the store -/

section Posted

variable {limits : Limits} {parts front rest : List Part} {payload : Part}
  {metadata : UploadMetadata}

theorem uploadForm_committed (clean : ∀ part ∈ parts, part.content.failure? = none)
    (cut : CutAt parts front payload []) (describes : Describes limits front metadata) (s : Store) :
    uploadForm Store.registry limits { parts } s =
      (.ok (s.commit metadata payload.bytes).1, (s.commit metadata payload.bytes).2.log
        (.upload (some metadata.name)
          ((Framing.cut (frameSize limits.chunkSize) payload.bytes).map ByteArray.size)
          .committed)) := by
  have cleanPayload : payload.content.failure? = none := clean payload (by simp [cut.whole])
  have begun := UploadSession.begin_opened (frameSize limits.chunkSize) metadata s
  rw [uploadForm_begun Store.registry { parts } clean cut describes begun]
  -- Without anything behind the payload this is an upload like any other.
  have whole := upload_clean limits.chunkSize metadata cleanPayload s
  simp only [upload, begun] at whole
  exact whole

theorem uploadForm_trailing (clean : ∀ part ∈ parts, part.content.failure? = none)
    {trailing : Part} (cut : CutAt parts front payload (trailing :: rest))
    (describes : Describes limits front metadata) (s : Store) :
    (uploadForm Store.registry limits { parts } s).1 =
        .error (.unexpectedField .afterPayload trailing.name) ∧
      s.Cancelled (uploadForm Store.registry limits { parts } s).2 := by
  have cleanPayload : payload.content.failure? = none := clean payload (by simp [cut.whole])
  have begun := UploadSession.begin_opened (frameSize limits.chunkSize) metadata s
  rw [uploadForm_begun Store.registry { parts } clean cut describes begun]
  let session := UploadSession.opened (frameSize limits.chunkSize) metadata
  have held : session.stream = some { metadata := some metadata } := rfl
  have relayed := UploadSession.relay_ready held ⟨rfl, rfl⟩ (frameSize_pos limits.chunkSize)
    (frameSize_le limits.chunkSize) cleanPayload s
  simp only [UploadSession.finishForm, session, relayed, Form.trailingError?]
  exact ⟨trivial, UploadSession.abort_going Store.registry.forwards_self
    ⟨_, rfl, ⟨rfl, rfl⟩⟩ s⟩

end Posted

theorem GatewayError.not_created (words : Malformed → String) (error : GatewayError) :
    (error.response words).status ≠ 201 := by
  have failing := error.failing words
  omega

namespace Gateway

def ofStore (wording : Wording) (limits : Limits) : Gateway Store Upload :=
  { registry := Store.registry, wording, limits }

variable {wording : Wording} {limits : Limits} {request : Request} {parts front rest : List Part}
  {payload : Part} {metadata : UploadMetadata}

theorem answer_posted {σ υ : Type} (g : Gateway σ υ) (posts : request.Posts g.limits parts)
    (state : GatewayState σ) :
    g.answer request state = respond (g.wording.malformed request) (g.upload { parts } state) := by
  have allowed : Route.artifacts.endpoint? .post = some .upload := rfl
  simp only [answer, posts.path, posts.method, allowed, run, read, posts.form, Except.map, upload,
    reduceCtorEq, if_false]

section Answers

variable (posts : request.Posts limits parts) (state : GatewayState Store)
include posts

theorem answer_refused (undescribed : ¬ ∃ front payload rest metadata,
      CutAt parts front payload rest ∧ Describes limits front metadata) :
    ∃ error : GatewayError, (ofStore wording limits).answer request state =
      (error.response (wording.malformed request), state) := by
  obtain ⟨error, refused⟩ :=
    uploadForm_refused Store.registry { parts } posts.clean undescribed state.registry
  refine ⟨error, ?_⟩
  rw [answer_posted (ofStore wording limits) posts]
  simp only [upload, act, perform, present, ofStore, refused, Except.map, respond]

theorem answer_committed (cut : CutAt parts front payload [])
    (describes : Describes limits front metadata) :
    (ofStore wording limits).answer request state =
      (.json 201 (state.registry.commit metadata payload.bytes).1.toJson,
        { state with
          registry := (state.registry.commit metadata payload.bytes).2.log
            (.upload (some metadata.name)
              ((Framing.cut (frameSize limits.chunkSize) payload.bytes).map ByteArray.size)
              .committed) }) := by
  rw [answer_posted (ofStore wording limits) posts]
  simp only [upload, act, perform, present, ofStore,
    uploadForm_committed posts.clean cut describes, Except.map, respond]

theorem answer_trailing {trailing : Part} (cut : CutAt parts front payload (trailing :: rest))
    (describes : Describes limits front metadata) :
    ((ofStore wording limits).answer request state).1 =
        (GatewayError.unexpectedField .afterPayload trailing.name).response
          (wording.malformed request) ∧
      state.registry.Cancelled ((ofStore wording limits).answer request state).2.registry := by
  have ⟨refused, cancelled⟩ := uploadForm_trailing posts.clean cut describes state.registry
  rw [answer_posted (ofStore wording limits) posts]
  simp only [upload, act, perform, present, ofStore]
  rcases uploaded : uploadForm Store.registry limits { parts } state.registry with ⟨answer, s⟩
  rw [uploaded] at refused cancelled
  simp only at refused
  subst refused
  exact ⟨rfl, cancelled⟩

theorem answer_created_iff : ((ofStore wording limits).answer request state).1.status = 201 ↔
    ∃ front payload metadata, CutAt parts front payload [] ∧ Describes limits front metadata := by
  constructor
  · intro created
    by_cases described : ∃ front payload rest metadata,
      CutAt parts front payload rest ∧ Describes limits front metadata
    · obtain ⟨front, payload, rest, metadata, cut, describes⟩ := described
      cases rest with
      | nil => exact ⟨front, payload, metadata, cut, describes⟩
      | cons trailing rest =>
        rw [(answer_trailing posts state cut describes).1] at created
        exact absurd created (GatewayError.not_created _ _)
    · obtain ⟨error, refused⟩ := answer_refused posts state described
      rw [refused] at created
      exact absurd created (error.not_created _)
  · rintro ⟨front, payload, metadata, cut, describes⟩
    rw [answer_committed posts state cut describes]
    rfl

/-- The registry sees an upload exactly if the parts in front of the first payload describe one. -/
theorem answer_logs_iff :
    ((ofStore wording limits).answer request state).2.registry.transfers ≠
        state.registry.transfers ↔
      ∃ front payload rest metadata,
        CutAt parts front payload rest ∧ Describes limits front metadata := by
  constructor
  · intro logged
    by_contra undescribed
    obtain ⟨error, refused⟩ := answer_refused posts state undescribed
    exact logged (by rw [refused])
  · rintro ⟨front, payload, rest, metadata, cut, describes⟩
    cases rest with
    | nil =>
      rw [answer_committed posts state cut describes]
      simp [Store.log, Store.commit_transfers]
    | cons trailing rest =>
      obtain ⟨name, sizes, cancelled⟩ := (answer_trailing posts state cut describes).2
      rw [cancelled]
      simp [Store.log]

/-- Once the form is cut, only what stands in front of the payload and whether anything follows it
matters. -/
theorem answer_created_cut (cut : CutAt parts front payload rest) :
    ((ofStore wording limits).answer request state).1.status = 201 ↔
      rest = [] ∧ ∃ metadata, Describes limits front metadata := by
  rw [answer_created_iff posts]
  constructor
  · rintro ⟨front', payload', metadata, other, describes⟩
    obtain ⟨rfl, rfl, rfl⟩ := other.unique cut
    exact ⟨rfl, metadata, describes⟩
  · rintro ⟨rfl, metadata, describes⟩
    exact ⟨front, payload, metadata, cut, describes⟩

/-- A posted form makes an upload exactly if the parts in front of its first payload describe one,
and is accepted exactly if nothing follows that payload. Then its content is committed under the
name with all the tags, as long as no two contents share a hash there. If something follows, the
upload is cancelled and the first part that does is named. The order of the parts in front makes no
difference. -/
theorem form_accepted_as_described (reachable : Traffic.Reachable state.registry) :
    let response := ((ofStore wording limits).answer request state).1
    let before := state.registry
    let after := ((ofStore wording limits).answer request state).2.registry
    (after.transfers ≠ before.transfers ↔ ∃ front payload rest metadata,
      CutAt parts front payload rest ∧ Describes limits front metadata) ∧
    (response.status = 201 ↔ ∃ front payload metadata,
      CutAt parts front payload [] ∧ Describes limits front metadata) ∧
    (∀ front payload metadata, CutAt parts front payload [] → Describes limits front metadata →
      (∃ sizes, after.transfers =
        before.transfers ++ [.upload (some metadata.name) sizes .committed]) ∧
      ∃ v ∈ after.versions, v.name = metadata.name ∧ v.hash = Sha256.hex payload.bytes ∧
        (∀ tag ∈ metadata.tags, tag ∈ v.tags) ∧
        ((∀ w ∈ before.versions, w.name = metadata.name →
          Sha256.hex w.content = Sha256.hex payload.bytes → w.content = payload.bytes) →
        v.content = payload.bytes)) ∧
    (∀ front payload trailing rest metadata, CutAt parts front payload (trailing :: rest) →
      Describes limits front metadata →
      response = (GatewayError.unexpectedField .afterPayload trailing.name).response
          (wording.malformed request) ∧
        before.Cancelled after) ∧
    (∀ front payload rest permuted (other : Request), CutAt parts front payload rest →
      permuted.Perm front → other.Posts limits (permuted ++ payload :: rest) →
      (((ofStore wording limits).answer other state).1.status = 201 ↔ response.status = 201)) := by
  refine ⟨answer_logs_iff posts state, answer_created_iff posts state, ?_, ?_, ?_⟩
  · intro front payload metadata cut describes
    rw [answer_committed posts state cut describes]
    refine ⟨⟨_, by rw [Store.log, Store.commit_transfers]⟩, ?_⟩
    exact Store.commit_tagged reachable.sound metadata payload.bytes
  · intro front payload trailing rest metadata cut describes
    exact answer_trailing posts state cut describes
  · intro front payload rest permuted other cut perm otherPosts
    have otherCut : CutAt (permuted ++ payload :: rest) permuted payload rest :=
      ⟨rfl, cut.payload, fun part member => cut.first part (perm.mem_iff.mp member)⟩
    rw [answer_created_cut posts state cut, answer_created_cut otherPosts state otherCut]
    have described : (∃ metadata, Describes limits permuted metadata) ↔
        ∃ metadata, Describes limits front metadata := by
      constructor
      · rintro ⟨metadata, describes⟩
        obtain ⟨tags, also, _⟩ := describes.perm perm.symm
        exact ⟨_, also⟩
      · rintro ⟨metadata, describes⟩
        obtain ⟨tags, also, _⟩ := describes.perm perm
        exact ⟨_, also⟩
    rw [described]

end Answers

def toolForm : Request where
  method := .post
  target := "/artifacts"
  contentType := some "multipart/form-data; boundary=x"
  body := { bytes := (
    "--x\r\ncontent-disposition:name=tag\r\n\r\nv3\r\n" ++
    "--x\r\ncontent-disposition:name=name\r\n\r\ntool\r\n" ++
    "--x\r\ncontent-disposition:name=author\r\n\r\nalice\r\n" ++
    "--x\r\ncontent-disposition:name=source\r\n\r\ngit\r\n" ++
    "--x\r\ncontent-disposition:name=file\r\n\r\nabc\r\n--x--").toUTF8 }

def toolParts : List Part := [
  ⟨"tag", .ofBytes "v3".toUTF8⟩,
  ⟨"name", .ofBytes "tool".toUTF8⟩,
  ⟨"author", .ofBytes "alice".toUTF8⟩,
  ⟨"source", .ofBytes "git".toUTF8⟩,
  ⟨"file", .ofBytes "abc".toUTF8⟩]

def emptyState : GatewayState Store := { registry := {}, tasks := { ids := default } }

theorem tool_form_accepted :
    ((ofStore default {}).answer toolForm emptyState).1.status = 201 ∧
    ∃ v ∈ ((ofStore default {}).answer toolForm emptyState).2.registry.versions,
      v.name = Traffic.toolName ∧ v.content = "abc".toUTF8 ∧ "v3" ∈ v.tags := by
  have posts : toolForm.Posts {} toolParts := ⟨by decide +kernel, rfl, by decide +kernel⟩
  have reachable : Traffic.Reachable {} := ⟨[], rfl⟩
  let draft : MetadataDraft :=
    { source := some "git", author := some "alice", name := some "tool", tags := #["v3"],
      tagBytes := 2 }
  have collected : MetadataDraft.collect {} (.ok ()) {} toolParts =
      .ok (draft, ⟨"file", .ofBytes "abc".toUTF8⟩, []) := by decide +kernel
  have finished : draft.finish = .ok ⟨Traffic.toolName, ["v3"]⟩ := by decide +kernel
  obtain ⟨front, cut, describes⟩ :=
    (MetadataDraft.collect_iff (.ok ()) posts.clean).mp ⟨draft, collected, finished⟩
  obtain ⟨_, created, committed, _⟩ :=
    @form_accepted_as_described default _ _ _ posts emptyState reachable
  obtain ⟨_, v, member, named, _, tagged, same⟩ := committed front _ _ cut describes
  exact ⟨created.mpr ⟨front, _, _, cut, describes⟩, v, member, named, same (by simp [emptyState]),
    tagged "v3" (by simp)⟩

end Gateway

end Depot
