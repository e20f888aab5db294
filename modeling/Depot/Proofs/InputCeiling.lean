import Depot.Proofs.ByteOrder
import Depot.Proofs.ManifestAcceptance
import Depot.Proofs.Served

/-! The ceiling of a manifest's input. Three bytes are read from four characters, so a text within
the ceiling is read within it too, and no task that waits has an input above it. -/
namespace Depot

namespace Utf8

theorem encodeChar_ascii {b : UInt8} (small : b < 0x80) :
    String.utf8EncodeChar (Char.ofNat b.toNat) = [b] := by
  have table : ∀ n : Fin 128, String.utf8EncodeChar (Char.ofNat n) = [UInt8.ofNat n] := by decide
  have entry := table ⟨b.toNat, UInt8.lt_iff_toNat_lt.mp small⟩
  simpa using entry

theorem exists_text {bytes : List UInt8} (small : ∀ b ∈ bytes, b < 0x80) :
    ∃ text : String, text.toUTF8.data.toList = bytes := by
  refine ⟨String.ofList (bytes.map fun b => Char.ofNat b.toNat), ?_⟩
  rw [toUTF8_toList, String.toList_ofList, List.flatMap_map]
  induction bytes with
  | nil => rfl
  | cons b rest ih =>
    rw [List.flatMap_cons, encodeChar_ascii (small b List.mem_cons_self),
      ih fun c member => small c (List.mem_cons_of_mem b member), List.singleton_append]

end Utf8

namespace Blueprint

variable {b : Blueprint} {inputMax : Nat} {task : TaskRequest}

theorem Asks.size_le_quarters (asks : b.Asks inputMax task) :
    task.input.size ≤ inputMax / 4 * 3 := by
  have length := Base64.length_of_decode (Base64.decode_eq_some_iff.mpr asks.input)
  rw [length_input] at length
  exact (Base64.fits_iff _ _).mp (length ▸ asks.fits)

theorem Asks.size_le (asks : b.Asks inputMax task) : task.input.size ≤ inputMax := by
  have quarters := asks.size_le_quarters
  omega

theorem exists_asks {source : String} {id : Identifier} {content : ByteArray}
    (parsed : Identifier.parse source = .ok id) (function : String)
    (fits : content.size ≤ inputMax / 4 * 3) :
    ∃ input, Asks ⟨source, function, input⟩ inputMax ⟨id, function, content⟩ := by
  obtain ⟨input, written⟩ := Utf8.exists_text (Base64.encode_ascii content.data.toList)
  have length := Base64.length_of_decode (Base64.decode_eq_some_iff.mpr written)
  have size : input.toUTF8.data.toList.length = input.utf8ByteSize := Array.length_toList
  rw [size] at length
  exact ⟨input, parsed, rfl, length ▸ (Base64.fits_iff _ _).mpr fits, written⟩

/-- A blueprint is not refused for what its input decodes to. -/
theorem Refuses.ne_decodedInputTooLong {error : GatewayError} (refuses : b.Refuses inputMax error)
    (ceiling : Nat) : error ≠ .malformedRequest (.decodedInputTooLong ceiling) := by
  cases refuses <;> simp

end Blueprint

namespace Manifest

/-- A manifest is a blueprint, or it is refused for what it is. -/
theorem task_cases (text : List UInt8) (inputMax : Nat) :
    (∃ b : Blueprint, task text inputMax = b.task inputMax) ∨
      ∃ cause, task text inputMax = .error (.malformedRequest cause) ∧
        (cause = .manifest ∨ cause = .blueprint ∨ ∃ kind, cause = .manifestKind kind) := by
  unfold task
  split
  · exact .inr ⟨_, rfl, .inl rfl⟩
  next manifest _ =>
    split
    · split
      · exact .inr ⟨_, rfl, .inr (.inl rfl)⟩
      next b _ => exact .inl ⟨b, rfl⟩
    · exact .inr ⟨_, rfl, .inr (.inr ⟨_, rfl⟩)⟩

variable {text : List UInt8} {inputMax : Nat}

theorem size_le_of_task {request : TaskRequest} (asked : task text inputMax = .ok request) :
    request.input.size ≤ inputMax := by
  rcases task_cases text inputMax with ⟨b, same⟩ | ⟨cause, refused, _⟩
  · exact (Blueprint.task_eq_ok_iff.mp (same.symm.trans asked)).size_le
  · rw [refused] at asked
    contradiction

end Manifest

namespace TaskQueue

def InputsFit (q : TaskQueue) (inputMax : Nat) : Prop :=
  ∀ task ∈ q.waiting, task.request.input.size ≤ inputMax

variable {q : TaskQueue} {inputMax : Nat}

theorem InputsFit.append (fit : q.InputsFit inputMax) {request : TaskRequest}
    (small : request.input.size ≤ inputMax) : (q.append request).InputsFit inputMax := by
  intro task member
  rcases List.mem_append.mp member with old | new
  · exact fit task old
  · rw [List.mem_singleton.mp new]
    exact small

theorem InputsFit.pop (fit : q.InputsFit inputMax) : q.pop.2.InputsFit inputMax := by
  rcases pop_cases q with ⟨_, same⟩ | ⟨task, rest, front, taken⟩
  · rwa [same]
  · rw [taken]
    exact fun other member => fit other (front ▸ List.mem_cons_of_mem task member)

end TaskQueue

namespace Gateway

variable {σ υ : Type} {g : Gateway σ υ} {state : GatewayState σ}

/-! ### What a request does to the queue -/

/-- The queue stays as it is, or gets the task that was asked for. -/
theorem act_tasks (g : Gateway σ υ) (plan : Plan) (state : GatewayState σ) :
    (g.act plan state).2.tasks = state.tasks ∨
      ∃ task, plan = .enqueue task ∧ (g.act plan state).2.tasks = state.tasks.append task := by
  cases plan with
  | answer response => exact .inl rfl
  | operate operation => exact .inl rfl
  | enqueue task =>
    simp only [act, enqueue]
    rcases TaskQueue.enqueue_cases state.tasks task with ⟨_, _, _, refused⟩ | ⟨_, taken⟩
    · simp only [refused, true_or]
    · simp only [taken]
      exact .inr ⟨task, rfl, rfl⟩

theorem run_tasks (g : Gateway σ υ) (endpoint : Endpoint) (request : Request)
    (state : GatewayState σ) : (g.run endpoint request state).2.tasks = state.tasks ∨
      ∃ text task, Manifest.task text g.limits.manifestInputMax = .ok task ∧
        (g.run endpoint request state).2.tasks = state.tasks.append task := by
  rcases run_cases g endpoint request state with ⟨error, refused⟩ | ⟨plan, planned, acted⟩
  · exact .inl (by rw [refused])
  · rw [acted]
    rcases act_tasks g plan state with same | ⟨task, rfl, added⟩
    · exact .inl same
    · cases read_plans planned with
      | enqueue asked => exact .inr ⟨_, task, asked, added⟩

theorem answer_tasks (g : Gateway σ υ) (request : Request) (state : GatewayState σ) :
    (g.answer request state).2.tasks = state.tasks ∨
      ∃ text task, Manifest.task text g.limits.manifestInputMax = .ok task ∧
        (g.answer request state).2.tasks = state.tasks.append task := by
  rcases answer_cases g request state with unasked | ⟨_, endpoint, _, _, _, ran⟩
  · exact .inl (by rw [unasked])
  · rw [ran]
    exact run_tasks g endpoint request state

/-! ### What any number of them do -/

/-- What happens to the state of a gateway. Between the requests tasks are taken from its queue, and
other calls bring its registry to other states. -/
inductive Change (σ : Type) where
  | request (request : Request)
  | pop
  | registry (s : σ)

def next (g : Gateway σ υ) (state : GatewayState σ) : Change σ → GatewayState σ
  | .request request => (g.answer request state).2
  | .pop => { state with tasks := state.tasks.pop.2 }
  | .registry s => { state with registry := s }

def after (g : Gateway σ υ) (state : GatewayState σ) (changes : List (Change σ)) : GatewayState σ :=
  changes.foldl g.next state

theorem next_inputsFit (fit : state.tasks.InputsFit g.limits.manifestInputMax) (change : Change σ) :
    (g.next state change).tasks.InputsFit g.limits.manifestInputMax := by
  cases change with
  | request request =>
    simp only [next]
    rcases answer_tasks g request state with same | ⟨text, task, asked, added⟩
    · rwa [same]
    · rw [added]
      exact fit.append (Manifest.size_le_of_task asked)
  | pop => exact fit.pop
  | registry s => exact fit

theorem after_inputsFit (fit : state.tasks.InputsFit g.limits.manifestInputMax)
    (changes : List (Change σ)) :
    (g.after state changes).tasks.InputsFit g.limits.manifestInputMax := by
  induction changes generalizing state with
  | nil => exact fit
  | cons change changes ih => exact ih (next_inputsFit fit change)

/-- Whatever the ceiling is: a text within it that can be read is read as no more bytes than it
allows. So no blueprint and no manifest is refused for what its input decodes to, and a task that is
asked for has an input within the ceiling. Every input can be asked for that has at most three bytes
for each four characters of the ceiling, and no other. After whatever requests, no task that waits
in a gateway's queue has an input above the ceiling. -/
theorem decoded_inputs_fit (inputMax : Nat) :
    (∀ (b : Blueprint) (content : ByteArray), b.input.utf8ByteSize ≤ inputMax →
      Base64.decode b.input.toUTF8.data.toList = some content → content.size ≤ inputMax) ∧
    (∀ (b : Blueprint) (ceiling : Nat),
      b.task inputMax ≠ .error (.malformedRequest (.decodedInputTooLong ceiling))) ∧
    (∀ (text : List UInt8) (ceiling : Nat),
      Manifest.task text inputMax ≠ .error (.malformedRequest (.decodedInputTooLong ceiling))) ∧
    (∀ (b : Blueprint) (task : TaskRequest), b.task inputMax = .ok task →
      task.input.size ≤ inputMax) ∧
    (∀ (source function : String) (id : Identifier) (content : ByteArray),
      Identifier.parse source = .ok id →
      ((∃ input, Blueprint.task ⟨source, function, input⟩ inputMax =
          .ok ⟨id, function, content⟩) ↔ content.size ≤ inputMax / 4 * 3)) ∧
    ∀ (g : Gateway σ υ) (state : GatewayState σ) (changes : List (Change σ)),
      g.limits.manifestInputMax = inputMax → state.tasks.InputsFit inputMax →
      (g.after state changes).tasks.InputsFit inputMax := by
  have unreached (b : Blueprint) (ceiling : Nat) :
      b.task inputMax ≠ .error (.malformedRequest (.decodedInputTooLong ceiling)) :=
    fun refused => (Blueprint.task_eq_error_iff.mp refused).ne_decodedInputTooLong ceiling rfl
  refine ⟨fun b content fits decoded => ?_, unreached, fun text ceiling refused => ?_,
    fun b task asked => (Blueprint.task_eq_ok_iff.mp asked).size_le,
    fun source function id content parsed => ⟨?_, fun small => ?_⟩, ?_⟩
  · have small := Base64.size_of_decode decoded
    rw [Blueprint.length_input] at small
    exact Nat.le_trans small fits
  · rcases Manifest.task_cases text inputMax with ⟨b, same⟩ | ⟨cause, other, causes⟩
    · exact unreached b ceiling (same.symm.trans refused)
    · rw [other] at refused
      rcases causes with rfl | rfl | ⟨kind, rfl⟩ <;> simp at refused
  · rintro ⟨input, asked⟩
    exact (Blueprint.task_eq_ok_iff.mp asked).size_le_quarters
  · obtain ⟨input, asks⟩ := Blueprint.exists_asks parsed function small
    exact ⟨input, asks.task_eq⟩
  · rintro g state changes rfl fit
    exact after_inputsFit fit changes

/-- Eight bytes are written as twelve characters, and a ceiling of eleven is too low for them. -/
theorem eight_bytes_need_twelve_characters :
    let tool : Identifier := ⟨⟨"git", "alice", "tool", by decide, by decide, by decide⟩, .tag "v1",
      by decide⟩
    let eight : TaskRequest := ⟨tool, "main", "12345678".toUTF8⟩
    let blueprint (input : String) : Blueprint := ⟨"git/alice/tool:v1", "main", input⟩
    Identifier.parse "git/alice/tool:v1" = .ok tool ∧
    (∃ input, (blueprint input).task 12 = .ok eight) ∧
    (¬ ∃ input, (blueprint input).task 11 = .ok eight) ∧
    Base64.decode helloBlueprint.input.toUTF8.data.toList = some "hello".toUTF8 ∧
    "hello".toUTF8.size ≤ 8 ∧
    let changes : List (Change Store) := [.request helloManifest, .pop, .request helloManifest]
    (tightGateway.after roomForOne changes).tasks.InputsFit 8 := by
  intro tool eight blueprint
  have parsed : Identifier.parse "git/alice/tool:v1" = .ok tool :=
    Identifier.parse_eq_ok_iff.mpr ⟨by decide, by decide, by decide⟩
  have hello : Base64.decode helloBlueprint.input.toUTF8.data.toList = some "hello".toUTF8 :=
    Base64.decode_eq_some_iff.mpr (by decide)
  obtain ⟨_, _, _, _, exactly, _⟩ := @decoded_inputs_fit Store Upload 12
  obtain ⟨_, _, _, _, tooLow, _⟩ := @decoded_inputs_fit Store Upload 11
  obtain ⟨within, _, _, _, _, waiting⟩ := @decoded_inputs_fit Store Upload 8
  refine ⟨parsed, (exactly _ _ _ _ parsed).mpr (by decide), ?_, hello,
    within helloBlueprint _ (by decide) hello, waiting tightGateway roomForOne _ rfl nofun⟩
  rw [tooLow _ _ _ _ parsed]
  decide

end Gateway

end Depot
