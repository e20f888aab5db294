import Depot.Gateway.Basic
import Depot.Proofs.Base64Text
import Depot.Proofs.IdentifierText
import Depot.Proofs.ManifestGrammar
import Depot.Proofs.QueueHistory
import Depot.Store.Upload

/-! # Which manifests are enqueued

A manifest that writes a blueprint asks for one task or is refused with the first of the reasons
there are. A task that is asked for is put at the back of the queue if there is room. -/

namespace Depot

namespace Blueprint

variable {b : Blueprint} {inputMax : Nat}

structure Asks (b : Blueprint) (inputMax : Nat) (task : TaskRequest) : Prop where
  artifact : Identifier.parse b.source = .ok task.artifact
  function : task.function = b.function
  fits : b.input.utf8ByteSize ≤ inputMax
  input : b.input.toUTF8.data.toList = Base64.encode task.input.data.toList

/-- Why the blueprint asks for nothing. Each reason comes after those above it. -/
inductive Refuses (b : Blueprint) (inputMax : Nat) : GatewayError → Prop
  | identifier {cause : IdentifierError} : Identifier.parse b.source = .error cause →
      Refuses b inputMax (.invalidIdentifier cause)
  | size {id : Identifier} : Identifier.parse b.source = .ok id →
      inputMax < b.input.utf8ByteSize →
      Refuses b inputMax (.malformedRequest (.inputTooLong inputMax))
  | base64 {id : Identifier} : Identifier.parse b.source = .ok id →
      b.input.utf8ByteSize ≤ inputMax →
      (∀ bytes, b.input.toUTF8.data.toList ≠ Base64.encode bytes) →
      Refuses b inputMax (.malformedRequest .base64)

theorem length_input (b : Blueprint) :
    b.input.toUTF8.data.toList.length = b.input.utf8ByteSize := Array.length_toList

theorem Asks.task_eq {task : TaskRequest} (asks : b.Asks inputMax task) :
    b.task inputMax = .ok task := by
  have decoded := Base64.decode_eq_some_iff.mpr asks.input
  have small := Base64.size_of_decode decoded
  rw [length_input] at small
  have fits := asks.fits
  simp only [Blueprint.task, asks.artifact, decoded]
  rw [if_neg (by omega), if_neg (by omega), ← asks.function]

theorem Refuses.task_eq {error : GatewayError} (refuses : b.Refuses inputMax error) :
    b.task inputMax = .error error := by
  cases refuses with
  | identifier parsed => simp only [Blueprint.task, parsed]
  | size parsed beyond => simp only [Blueprint.task, parsed, if_pos beyond]
  | base64 parsed fits invalid =>
    have undecoded : Base64.decode b.input.toUTF8.data.toList = none := by
      rw [Option.eq_none_iff_forall_ne_some]
      exact fun content decoded => invalid _ (Base64.decode_eq_some_iff.mp decoded)
    simp only [Blueprint.task, parsed, if_neg (Nat.not_lt.mpr fits), undecoded]

theorem asks_or_refuses (b : Blueprint) (inputMax : Nat) :
    (∃ task, b.Asks inputMax task) ∨ ∃ error, b.Refuses inputMax error := by
  cases parsed : Identifier.parse b.source with
  | error cause => exact .inr ⟨_, .identifier parsed⟩
  | ok artifact =>
    by_cases fits : b.input.utf8ByteSize ≤ inputMax
    · by_cases valid : ∃ bytes, b.input.toUTF8.data.toList = Base64.encode bytes
      · obtain ⟨bytes, input⟩ := valid
        refine .inl ⟨⟨artifact, b.function, bytes.toByteArray⟩, parsed, rfl, fits, ?_⟩
        rw [input, List.toList_data_toByteArray]
      · exact .inr ⟨_, .base64 parsed fits (not_exists.mp valid)⟩
    · exact .inr ⟨_, .size parsed (Nat.lt_of_not_le fits)⟩

theorem task_eq_ok_iff {task : TaskRequest} :
    b.task inputMax = .ok task ↔ b.Asks inputMax task := by
  refine ⟨fun asked => ?_, Asks.task_eq⟩
  rcases b.asks_or_refuses inputMax with ⟨other, asks⟩ | ⟨error, refuses⟩
  · rw [asks.task_eq] at asked
    exact Except.ok.inj asked ▸ asks
  · rw [refuses.task_eq] at asked
    contradiction

theorem task_eq_error_iff {error : GatewayError} :
    b.task inputMax = .error error ↔ b.Refuses inputMax error := by
  refine ⟨fun refused => ?_, Refuses.task_eq⟩
  rcases b.asks_or_refuses inputMax with ⟨task, asks⟩ | ⟨other, refuses⟩
  · rw [asks.task_eq] at refused
    contradiction
  · rw [refuses.task_eq] at refused
    exact Except.error.inj refused ▸ refuses

theorem Refuses.status_eq {error : GatewayError} (refuses : b.Refuses inputMax error) :
    error.status = 400 := by
  cases refuses <;> rfl

variable {text : List UInt8}

theorem StandsIn.task_eq (stands : b.StandsIn text) (inputMax : Nat) :
    Manifest.task text inputMax = b.task inputMax := by
  obtain ⟨spec, written, writes⟩ := stands
  simp only [Manifest.task, Manifest.parse_eq_ok_iff.mpr written, if_true,
    ofSpec?_eq_some_iff.mpr writes]

theorem task_of_no_blueprint (none : ∀ b : Blueprint, ¬ b.StandsIn text) (inputMax : Nat) :
    ∃ cause, Manifest.task text inputMax = .error (.malformedRequest cause) := by
  unfold Manifest.task
  cases parsed : Manifest.parse text with
  | error => exact ⟨_, rfl⟩
  | ok manifest =>
    obtain ⟨own, spec⟩ := manifest
    by_cases isBlueprint : own = kind
    · subst isBlueprint
      cases read : ofSpec? spec with
      | none => exact ⟨.blueprint, by simp only [if_true, read]⟩
      | some b =>
        have written := Manifest.parse_eq_ok_iff.mp parsed
        exact absurd ⟨spec, written, ofSpec?_eq_some_iff.mp read⟩ (none b)
    · exact ⟨_, if_neg isBlueprint⟩

end Blueprint

namespace Gateway

variable {σ υ : Type} {g : Gateway σ υ} {request : Request} {bytes : ByteArray}

structure Submits (g : Gateway σ υ) (request : Request) (bytes : ByteArray) : Prop where
  found : Route.ofPath? request.path = some .manifests
  posted : request.method = .post
  body : request.body.read g.limits.maxBodySize = .ok bytes

variable {b : Blueprint} {task : TaskRequest} {state : GatewayState σ} {words : Malformed → String}

theorem Submits.answer_eq (submits : g.Submits request bytes) (state : GatewayState σ) :
    g.answer request state =
      respond (g.wording.malformed request) (g.run .submit request state) := by
  have allowed : Route.manifests.endpoint? request.method = some .submit := by
    rw [submits.posted]
    rfl
  have withBody : request.method ≠ .head := by simp [submits.posted]
  simp only [answer, submits.found, allowed, if_neg withBody]

theorem Submits.answer_task (submits : g.Submits request bytes)
    (asked : Manifest.task bytes.data.toList g.limits.manifestInputMax = .ok task)
    (state : GatewayState σ) :
    g.answer request state = respond (g.wording.malformed request) (enqueue task state) := by
  simp only [submits.answer_eq, run, read, readManifest, submits.body, asked, Except.map, act]

theorem Submits.answer_refusal (submits : g.Submits request bytes) {error : GatewayError}
    (refused : Manifest.task bytes.data.toList g.limits.manifestInputMax = .error error)
    (state : GatewayState σ) :
    g.answer request state = (error.response (g.wording.malformed request), state) := by
  simp only [submits.answer_eq, run, read, readManifest, submits.body, refused, Except.map, respond]

theorem respond_enqueue (task : TaskRequest) (room : state.tasks.HasRoom) :
    respond words (enqueue task state) =
      ({ status := 201, contentType := some "text/yaml"
         body := ("taskId: " ++ state.tasks.fresh.text ++ "\n").toUTF8 },
        { state with tasks := state.tasks.append task }) := by
  rcases TaskQueue.enqueue_cases state.tasks task with ⟨capacity, limit, full, _⟩ | ⟨_, taken⟩
  · exact absurd (room capacity limit) (Nat.not_lt.mpr full)
  · simp only [enqueue, taken, respond]

theorem respond_enqueue_full (task : TaskRequest) (full : ¬ state.tasks.HasRoom) :
    ∃ cause, respond words (enqueue task state) =
      ((GatewayError.transportFailure "enqueueing task" cause).response words, state) := by
  rcases TaskQueue.enqueue_cases state.tasks task with ⟨capacity, _, _, refused⟩ | ⟨room, _⟩
  · exact ⟨.queue (.full capacity), by simp only [enqueue, refused, respond]⟩
  · exact absurd room full

theorem Submits.asks (submits : g.Submits request bytes) (stands : b.StandsIn bytes.data.toList)
    (asks : b.Asks g.limits.manifestInputMax task) (state : GatewayState σ) :
    g.answer request state = respond (g.wording.malformed request) (enqueue task state) :=
  submits.answer_task ((stands.task_eq _).trans asks.task_eq) state

theorem Submits.refuses {error : GatewayError} (submits : g.Submits request bytes)
    (stands : b.StandsIn bytes.data.toList)
    (refuses : b.Refuses g.limits.manifestInputMax error) (state : GatewayState σ) :
    g.answer request state = (error.response (g.wording.malformed request), state) :=
  submits.answer_refusal ((stands.task_eq _).trans refuses.task_eq) state

/-- Without a task to enqueue the fault is the client's, and nothing changes. -/
theorem Submits.asks_nothing (submits : g.Submits request bytes)
    (nothing : ¬ ∃ (b : Blueprint) (task : TaskRequest), b.StandsIn bytes.data.toList ∧
      b.Asks g.limits.manifestInputMax task) (state : GatewayState σ) :
    (g.answer request state).1.status = 400 ∧ (g.answer request state).2 = state := by
  by_cases stands : ∃ b : Blueprint, b.StandsIn bytes.data.toList
  · obtain ⟨b, stands⟩ := stands
    rcases b.asks_or_refuses g.limits.manifestInputMax with ⟨task, asks⟩ | ⟨error, refuses⟩
    · exact absurd ⟨b, task, stands, asks⟩ nothing
    · rw [submits.refuses stands refuses]
      exact ⟨refuses.status_eq, rfl⟩
  · obtain ⟨cause, refused⟩ :=
      Blueprint.task_of_no_blueprint (not_exists.mp stands) g.limits.manifestInputMax
    rw [submits.answer_refusal refused]
    exact ⟨rfl, rfl⟩

def Asked (g : Gateway σ υ) (bytes : ByteArray) : Prop :=
  ∃ (b : Blueprint) (task : TaskRequest), b.StandsIn bytes.data.toList ∧
    b.Asks g.limits.manifestInputMax task

theorem Submits.outcomes (submits : g.Submits request bytes) (state : GatewayState σ) :
    (g.Asked bytes ∧ state.tasks.HasRoom ∧ (g.answer request state).1.status = 201) ∨
    (g.Asked bytes ∧ ¬ state.tasks.HasRoom ∧ (g.answer request state).1.status = 500 ∧
      (g.answer request state).2 = state) ∨
    (¬ g.Asked bytes ∧ (g.answer request state).1.status = 400 ∧
      (g.answer request state).2 = state) := by
  by_cases asked : g.Asked bytes
  · obtain ⟨b, task, stands, asks⟩ := id asked
    rw [submits.asks stands asks]
    by_cases room : state.tasks.HasRoom
    · rw [respond_enqueue task room]
      exact .inl ⟨asked, room, rfl⟩
    · obtain ⟨cause, full⟩ := respond_enqueue_full task room
      rw [full]
      exact .inr (.inl ⟨asked, room, rfl, rfl⟩)
  · exact .inr (.inr ⟨asked, submits.asks_nothing asked state⟩)

/-- A manifest is enqueued if it is a blueprint that asks for a task and there is room; then the
task stands at the back, and its id is answered. Otherwise nothing changes: a blueprint that refuses
is answered the first reason there is, and only a full queue is no fault of the client. -/
theorem manifest_enqueued_or_refused (submits : g.Submits request bytes) (state : GatewayState σ) :
    let response := (g.answer request state).1
    let after := (g.answer request state).2
    let inputMax := g.limits.manifestInputMax
    let id := state.tasks.ids state.tasks.drawn
    (response.status = 201 ↔ g.Asked bytes ∧ state.tasks.HasRoom) ∧
    (∀ (b : Blueprint) (task : TaskRequest), b.StandsIn bytes.data.toList → b.Asks inputMax task →
      state.tasks.HasRoom →
      after = { state with tasks := { state.tasks with
        waiting := state.tasks.waiting ++ [⟨id, task⟩], drawn := state.tasks.drawn + 1 } } ∧
      task.artifact.text = b.source ∧ task.function = b.function ∧
      response.body = ("taskId: " ++ id.text ++ "\n").toUTF8) ∧
    (response.status ≠ 201 → after = state) ∧
    (response.status = 500 ↔ g.Asked bytes ∧ ¬ state.tasks.HasRoom) ∧
    (response.status = 201 ∨ response.status = 500 ∨ response.status = 400) ∧
    (∀ (b : Blueprint) (error : GatewayError), b.StandsIn bytes.data.toList →
      b.Refuses inputMax error → response = error.response (g.wording.malformed request)) := by
  intro response after inputMax id
  have outcomes : (g.Asked bytes ∧ state.tasks.HasRoom ∧ response.status = 201) ∨
      (g.Asked bytes ∧ ¬ state.tasks.HasRoom ∧ response.status = 500 ∧ after = state) ∨
      (¬ g.Asked bytes ∧ response.status = 400 ∧ after = state) := submits.outcomes state
  refine ⟨?_, fun b task stands asks room => ?_, ?_, ?_, ?_, fun b error stands refuses => ?_⟩
  case refine_2 =>
    have answered := (submits.asks stands asks state).trans (respond_enqueue task room)
    exact ⟨congrArg Prod.snd answered, Identifier.text_of_parse asks.artifact, asks.function,
      congrArg (·.1.body) answered⟩
  case refine_6 => exact congrArg Prod.fst (submits.refuses stands refuses state)
  all_goals rcases outcomes with ⟨asked, room, status⟩ | ⟨asked, full, status, same⟩ |
    ⟨nothing, status, same⟩
  all_goals simp [*]

def tightGateway : Gateway Store Upload where
  registry := Store.registry
  wording := default
  limits := { manifestInputMax := 8 }

/-- Its input has eight characters, and it has a member that means nothing. -/
def helloManifest : Request where
  method := .post
  target := "/manifests"
  body := { bytes := (
    "\x7b\"kind\":\"Blueprint\",\"owner\":[null,\x7b\x7d],\"spec\":\x7b\"artifact\":" ++
    "\x7b\"source\":\"git/alice/tool:v1\",\"function\":\"main\",\"input\":\"aGVsbG8=\"\x7d\x7d\x7d"
    ).toUTF8 }

def helloBlueprint : Blueprint := ⟨"git/alice/tool:v1", "main", "aGVsbG8="⟩

theorem helloBlueprint_standsIn : helloBlueprint.StandsIn helloManifest.body.bytes.data.toList := by
  have cut : Json.Token.ofBytes helloManifest.body.bytes.data.toList = [.leftBrace,
      .string (some "kind"), .colon, .string (some "Blueprint"), .comma,
      .string (some "owner"), .colon, .leftBracket, .null, .comma, .leftBrace, .rightBrace,
        .rightBracket, .comma,
      .string (some "spec"), .colon, .leftBrace, .string (some "artifact"), .colon, .leftBrace,
        .string (some "source"), .colon, .string (some "git/alice/tool:v1"), .comma,
        .string (some "function"), .colon, .string (some "main"), .comma,
        .string (some "input"), .colon, .string (some "aGVsbG8="), .rightBrace, .rightBrace,
      .rightBrace] := by decide +kernel
  let artifact : Json := .object [("source", .string "git/alice/tool:v1"),
    ("function", .string "main"), ("input", .string "aGVsbG8=")]
  have parsed : Manifest.parse helloManifest.body.bytes.data.toList =
      .ok ⟨Blueprint.kind, .object [("artifact", artifact)]⟩ := by
    simp only [Manifest.parse, Json.Decoder.ofBytes, cut]
    rfl
  exact ⟨_, Manifest.parse_eq_ok_iff.mp parsed, .object rfl (.object rfl rfl (.given _))⟩

def roomForOne : GatewayState Store where
  registry := {}
  tasks := { ids := fun _ => ⟨"7d444840-9dc0-41d1-b245-5ffdce74fad2"⟩, capacity := some 1 }

theorem hello_manifest_enqueued :
    tightGateway.Submits helloManifest helloManifest.body.bytes ∧
    (tightGateway.answer helloManifest roomForOne).1.status = 201 ∧
    (tightGateway.answer helloManifest roomForOne).1.body =
      "taskId: 7d444840-9dc0-41d1-b245-5ffdce74fad2\n".toUTF8 ∧
    ∃ id task, (tightGateway.answer helloManifest roomForOne).2.tasks.waiting = [⟨id, task⟩] ∧
      id.text = "7d444840-9dc0-41d1-b245-5ffdce74fad2" ∧
      task.artifact.text = "git/alice/tool:v1" ∧ task.function = "main" ∧
      task.input = "hello".toUTF8 := by
  have submits : tightGateway.Submits helloManifest helloManifest.body.bytes :=
    ⟨by decide +kernel, rfl, rfl⟩
  let tool : QualifiedName := ⟨"git", "alice", "tool", by decide, by decide, by decide⟩
  let task : TaskRequest := ⟨⟨tool, .tag "v1", by decide⟩, "main", "hello".toUTF8⟩
  have asks : helloBlueprint.Asks 8 task := by
    refine ⟨Identifier.parse_eq_ok_iff.mpr ⟨?_, ?_, ?_⟩, rfl, ?_, ?_⟩
    all_goals decide
  have room : roomForOne.tasks.HasRoom := by simp [TaskQueue.HasRoom, roomForOne]
  obtain ⟨created, enqueued, _⟩ := manifest_enqueued_or_refused submits roomForOne
  obtain ⟨after, source, function, body⟩ := enqueued _ _ helloBlueprint_standsIn asks room
  have text : "taskId: " ++ (roomForOne.tasks.ids 0).text ++ "\n" =
      "taskId: 7d444840-9dc0-41d1-b245-5ffdce74fad2\n" := by decide +kernel
  exact ⟨submits, created.mpr ⟨⟨_, _, helloBlueprint_standsIn, asks⟩, room⟩,
    body.trans (congrArg String.toUTF8 text), _, task, congrArg (·.tasks.waiting) after, rfl,
    source, function, rfl⟩

end Gateway

end Depot
