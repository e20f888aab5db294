import Depot.Proofs.ConcurrentDownload
import Depot.Proofs.FormAcceptance

/-! Downloads are all or nothing. Content is put together from all frames of a pull or not at all,
and a pull is asked for only behind a lookup that found something. -/
namespace Depot

open Framing (join)

variable {σ υ : Type}

namespace PullStream

variable {stream : PullStream} {content : ByteArray} {error : RegistryError}

/-- A stream gives frames only, or frames up to its first error. -/
theorem whole_or_broken (stream : PullStream) :
    (∃ frames : List ByteArray, stream = frames.map .ok) ∨
      ∃ (frames : List ByteArray) (error : RegistryError) (rest : PullStream),
        stream = frames.map .ok ++ .error error :: rest := by
  induction stream with
  | nil => exact .inl ⟨[], rfl⟩
  | cons answer stream ih =>
    cases answer with
    | error error => exact .inr ⟨[], error, stream, rfl⟩
    | ok frame =>
      rcases ih with ⟨frames, rfl⟩ | ⟨frames, error, rest, rfl⟩
      · exact .inl ⟨frame :: frames, rfl⟩
      · exact .inr ⟨frame :: frames, error, rest, rfl⟩

/-- What was received before the first error is given up, and what follows it is not looked at. -/
theorem append_error (received : ByteArray) (frames : List ByteArray) (error : RegistryError)
    (rest : PullStream) :
    append received (frames.map .ok ++ .error error :: rest) = .error error := by
  induction frames generalizing received with
  | nil => rfl
  | cons frame frames ih => exact ih (received ++ frame)

theorem assemble_eq_ok_iff :
    stream.assemble = .ok content ↔ ∃ frames, stream = frames.map .ok ∧ content = join frames := by
  constructor
  · intro assembled
    rcases whole_or_broken stream with ⟨frames, rfl⟩ | ⟨frames, error, rest, rfl⟩
    · rw [assemble_ok] at assembled
      exact ⟨frames, rfl, (Except.ok.inj assembled).symm⟩
    · rw [assemble, append_error] at assembled
      contradiction
  · rintro ⟨frames, rfl, rfl⟩
    exact assemble_ok frames

theorem assemble_eq_error_iff : stream.assemble = .error error ↔
    ∃ (frames : List ByteArray) (rest : PullStream),
      stream = frames.map .ok ++ .error error :: rest := by
  constructor
  · intro assembled
    rcases whole_or_broken stream with ⟨frames, rfl⟩ | ⟨frames, first, rest, rfl⟩
    · rw [assemble_ok] at assembled
      contradiction
    · rw [assemble, append_error] at assembled
      obtain rfl := Except.error.inj assembled
      exact ⟨frames, rest, rfl⟩
  · rintro ⟨frames, rest, rfl⟩
    exact append_error .empty frames error rest

end PullStream

section Downloading

variable {r : Registry σ υ} {id : Identifier} {s t u : σ} {artifact : Artifact}
  {stream : PullStream} {content : ByteArray} {error : RegistryError}

theorem download_unfound (unfound : r.get id s = (.error error, t)) :
    download r id s = (.error (.ofRegistry "looking up artifact" error), t) := by
  simp only [download, unfound]

theorem download_unopened (found : r.get id s = (.ok artifact, t))
    (unopened : r.pull id t = (.error error, u)) :
    download r id s = (.error (.ofRegistry "opening pull stream" error), u) := by
  simp only [download, found, unopened]

theorem download_broken (found : r.get id s = (.ok artifact, t))
    (opened : r.pull id t = (.ok stream, u)) (broken : stream.assemble = .error error) :
    download r id s =
      (.error (.transportFailure "receiving content frame" (.registry error)), u) := by
  simp only [download, found, opened, broken]

theorem download_whole (found : r.get id s = (.ok artifact, t))
    (opened : r.pull id t = (.ok stream, u)) (whole : stream.assemble = .ok content) :
    download r id s = (.ok (artifact, content), u) := by
  simp only [download, found, opened, whole]

/-- Nothing can be got but the record that was looked up and the whole of a pull without errors. -/
theorem download_eq_ok_iff : (download r id s).1 = .ok (artifact, content) ↔
    ∃ t frames u, r.get id s = (.ok artifact, t) ∧ r.pull id t = (.ok (frames.map .ok), u) ∧
      content = join frames := by
  constructor
  · intro downloaded
    rcases found : r.get id s with ⟨error | record, t⟩
    · rw [download_unfound found] at downloaded
      contradiction
    rcases opened : r.pull id t with ⟨error | stream, u⟩
    · rw [download_unopened found opened] at downloaded
      contradiction
    cases assembled : stream.assemble with
    | error error =>
      rw [download_broken found opened assembled] at downloaded
      contradiction
    | ok whole =>
      rw [download_whole found opened assembled] at downloaded
      obtain ⟨rfl, rfl⟩ := Prod.mk.inj (Except.ok.inj downloaded)
      obtain ⟨frames, rfl, joined⟩ := PullStream.assemble_eq_ok_iff.mp assembled
      exact ⟨t, frames, u, rfl, opened, joined⟩
  · rintro ⟨t, frames, u, found, opened, rfl⟩
    rw [download_whole found opened (PullStream.assemble_ok frames)]

end Downloading

/-- The request asks for the content of a version, or for its headers alone. -/
def Request.WantsContent (request : Request) (id : Identifier) : Prop :=
  (request.method = .get ∨ request.method = .head) ∧
    ∃ source author name sourceText authorText nameText,
      Route.ofPath? request.path = some (.download source author name) ∧
      Percent.decodeSegment? source = some sourceText ∧
      Percent.decodeSegment? author = some authorText ∧
      Percent.decodeSegment? name = some nameText ∧
      request.identifierOf sourceText authorText nameText = .ok id

/-- Content as it is answered, with its length also where it is held back. -/
def contentResponse (method : Method) (content : ByteArray) : Response where
  status := 200
  contentType := some "application/octet-stream"
  body := if method = .head then .empty else content
  contentLength := content.size

namespace Gateway

variable {g : Gateway σ υ} {request : Request} {id : Identifier} {state : GatewayState σ}
  {artifact : Artifact} {content : ByteArray} {words : Malformed → String}

theorem respond_error (words : Malformed → String) (error : GatewayError) (state : GatewayState σ) :
    (respond words (.error error, state)).1.status ≠ 200 := by
  have failing := error.failing words
  simp only [respond]
  omega

def sendContent (g : Gateway σ υ) (id : Identifier) : GatewayState σ → Answer σ :=
  g.act (.operate (.download id))

/-- Content is sent exactly if it can be downloaded. -/
theorem sendContent_status : (respond words (g.sendContent id state)).1.status = 200 ↔
    ∃ artifact content,
      (Depot.download g.registry id state.registry).1 = .ok (artifact, content) := by
  rcases downloaded : Depot.download g.registry id state.registry with ⟨error | ⟨record, body⟩, s⟩
  · simp only [sendContent, act, perform, present, downloaded, Except.map, respond_error,
      reduceCtorEq, exists_false]
  · simp only [sendContent, act, perform, present, downloaded, Except.map, respond, true_iff]
    exact ⟨record, body, rfl⟩

theorem respond_sendContent
    (downloaded : (Depot.download g.registry id state.registry).1 = .ok (artifact, content)) :
    (respond words (g.sendContent id state)).1 = contentResponse .get content := by
  rcases result : Depot.download g.registry id state.registry with ⟨answer, s⟩
  rw [result] at downloaded
  simp only at downloaded
  subst downloaded
  simp only [sendContent, act, perform, present, result, Except.map, respond]
  rfl

theorem endpoint_download {method : Method} {source author name : String} {endpoint : Endpoint} :
    (Route.download source author name).endpoint? method = some endpoint ↔
      (method = .get ∨ method = .head) ∧ endpoint = .download source author name := by
  cases method <;> simp [Route.endpoint?, eq_comm]

theorem answer_wanted (wants : request.WantsContent id) : (g.answer request state).1 =
    let response := (respond (g.wording.malformed request) (g.sendContent id state)).1
    if request.method = .head then response.withoutBody else response := by
  obtain ⟨method, source, author, name, _, _, _, path, atSource, atAuthor, atName, identified⟩ :=
    wants
  have allowed : (Route.download source author name).endpoint? request.method = some _ :=
    endpoint_download.mpr ⟨method, rfl⟩
  simp only [answer, path, allowed, run, read, readDownload, atSource, atAuthor, atName,
    identified, Except.map, sendContent]

/-- Nothing is sent that no identifier asks for. -/
theorem wants_of_sent {source author name : String}
    (path : Route.ofPath? request.path = some (.download source author name))
    (sent : (g.answer request state).1.status = 200) : ∃ id, request.WantsContent id := by
  cases asked : (Route.download source author name).endpoint? request.method with
  | none => simp [answer, path, asked, Response.empty] at sent
  | some endpoint =>
    obtain ⟨method, rfl⟩ := endpoint_download.mp asked
    rw [(answer_run g state path asked).1] at sent
    simp only [run, read, readDownload] at sent
    split at sent
    next error _ => exact absurd sent (respond_error _ error state)
    next plan planned =>
      split at planned
      next sourceText authorText nameText atSource atAuthor atName =>
        cases identified : request.identifierOf sourceText authorText nameText with
        | error error =>
          rw [identified] at planned
          contradiction
        | ok id => exact ⟨id, method, source, author, name, _, _, _, path, atSource, atAuthor,
            atName, identified⟩
      · obtain rfl := Except.ok.inj planned
        simp [act, respond, Response.plain] at sent

theorem answer_sent_iff {source author name : String}
    (path : Route.ofPath? request.path = some (.download source author name)) :
    (g.answer request state).1.status = 200 ↔ ∃ id artifact content, request.WantsContent id ∧
      (Depot.download g.registry id state.registry).1 = .ok (artifact, content) := by
  have kept (id : Identifier) (wants : request.WantsContent id) :
      (g.answer request state).1.status =
        (respond (g.wording.malformed request) (g.sendContent id state)).1.status := by
    rw [answer_wanted wants]
    dsimp only
    split <;> rfl
  constructor
  · intro sent
    obtain ⟨id, wants⟩ := wants_of_sent path sent
    rw [kept id wants] at sent
    obtain ⟨artifact, content, downloaded⟩ := sendContent_status.mp sent
    exact ⟨id, artifact, content, wants, downloaded⟩
  · rintro ⟨id, artifact, content, wants, downloaded⟩
    rw [kept id wants]
    exact sendContent_status.mpr ⟨artifact, content, downloaded⟩

theorem answer_content (wants : request.WantsContent id)
    (downloaded : (Depot.download g.registry id state.registry).1 = .ok (artifact, content)) :
    (g.answer request state).1 = contentResponse request.method content := by
  rw [answer_wanted wants, respond_sendContent downloaded]
  rcases wants.1 with get | head
  · simp only [get, reduceCtorEq, if_false]
  · simp only [head, if_true]
    rfl

/-- Of every registry, content is got in whole or not at all: the record that the lookup found, with
all frames of the pull in order. An error anywhere among them is answered in place of all that was
received, the first one if there are more. If the lookup fails no pull is opened, whatever a pull
would do, and in a store nothing changes. A gateway sends content, with its length, exactly if a
request wants content that can be got. -/
theorem downloads_are_all_or_nothing (r : Registry σ υ) (wording : Wording) (limits : Limits) :
    (∀ id s artifact content, (Depot.download r id s).1 = .ok (artifact, content) ↔
      ∃ (t : σ) (frames : List ByteArray) (u : σ), r.get id s = (.ok artifact, t) ∧
        r.pull id t = (.ok (frames.map .ok), u) ∧ content = join frames) ∧
    (∀ id s artifact t stream u, r.get id s = (.ok artifact, t) → r.pull id t = (.ok stream, u) →
      (∃ error, .error error ∈ stream) →
      ∃ (frames : List ByteArray) (error : RegistryError) (rest : PullStream),
        stream = frames.map .ok ++ .error error :: rest ∧
        Depot.download r id s =
          (.error (.transportFailure "receiving content frame" (.registry error)), u)) ∧
    (∀ id s error t, r.get id s = (.error error, t) →
      (∀ pull, Depot.download { r with pull } id s =
        (.error (.ofRegistry "looking up artifact" error), t)) ∧
      ∀ (view : σ → Store) (handle : υ → Upload), r.Forwards Store.registry view handle →
        view t = view s) ∧
    ∀ request state source author name,
      Route.ofPath? request.path = some (.download source author name) →
      ((answer { registry := r, wording, limits } request state).1.status = 200 ↔
        ∃ id artifact content, request.WantsContent id ∧
          (Depot.download r id state.registry).1 = .ok (artifact, content)) ∧
      ∀ id artifact content, request.WantsContent id →
        (Depot.download r id state.registry).1 = .ok (artifact, content) →
        (answer { registry := r, wording, limits } request state).1 =
          contentResponse request.method content := by
  refine ⟨fun id s artifact content => download_eq_ok_iff, ?_, ?_, ?_⟩
  · rintro id s artifact t stream u found opened ⟨error, listed⟩
    rcases PullStream.whole_or_broken stream with ⟨frames, rfl⟩ | ⟨frames, first, rest, broken⟩
    · simp at listed
    · have assembled := PullStream.assemble_eq_error_iff.mpr ⟨frames, rest, broken⟩
      exact ⟨frames, first, rest, broken, download_broken found opened assembled⟩
  · intro id s error t unfound
    refine ⟨fun pull => download_unfound unfound, fun view handle forwards => ?_⟩
    have looked := forwarded_get forwards id s
    rwa [unfound] at looked
  · intro request state source author name path
    exact ⟨answer_sent_iff path, fun id artifact content wants downloaded =>
      answer_content wants downloaded⟩

/-- The tool is sent in whole. Over the connection that breaks all of it is received, and none of it
is got. -/
theorem tool_sent_in_whole :
    ((ofStore default {}).answer toolDownload toolState).1 = contentResponse .get "abc".toUTF8 ∧
    (flakyGateway.registry.pull Traffic.toolTag toolState.registry).1 = .ok [.ok "abc".toUTF8,
      .error { kind := .transport, registry := "flaky", cause := "stream reset" }] ∧
    Fails (Depot.download flakyGateway.registry Traffic.toolTag toolState.registry).1 := by
  have path : Route.ofPath? toolDownload.path = some (.download "git" "alice" "tool") := by
    decide +kernel
  have wants : toolDownload.WantsContent Traffic.toolTag :=
    ⟨.inl rfl, _, _, _, "git", "alice", "tool", path, by decide +kernel, by decide +kernel,
      by decide +kernel, by decide +kernel⟩
  have found : Versions.resolve toolState.registry.versions Traffic.toolTag =
      some Traffic.firstTool := by
    decide +kernel
  have got : flakyGateway.registry.get Traffic.toolTag toolState.registry =
      (.ok Traffic.firstTool.record, toolState.registry) :=
    congrArg (·, _) (Store.acts_of_resolve found).get
  have opened : (flakyGateway.registry.pull Traffic.toolTag toolState.registry).1 =
      .ok [.ok "abc".toUTF8,
        .error { kind := .transport, registry := "flaky", cause := "stream reset" }] := by
    decide +kernel
  obtain ⟨_, _, _, overHttp⟩ := downloads_are_all_or_nothing Store.registry default {}
  obtain ⟨_, sends⟩ := overHttp toolDownload toolState _ _ _ path
  obtain ⟨_, breaks, _, _⟩ := downloads_are_all_or_nothing flakyGateway.registry default {}
  obtain ⟨_, _, _, _, broken⟩ := breaks _ _ _ _ _ _ got (Prod.ext opened rfl) ⟨_, .tail _ (.head _)⟩
  refine ⟨sends _ _ _ wants (download_of_resolve found), opened, ?_⟩
  rw [broken]
  exact fails_error _

end Gateway

end Depot
