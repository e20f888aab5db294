import Depot.Registry.Faults

/-! Registries in front of others. A wrapper hands each call on to the registry behind it, or fails
it and reaches nothing there; a pull that it hands on it may break off after some frames. Which
calls fail, when and with what error is left open, so that a law of all wrappers is a law of every
choice of faults. -/
namespace Depot

variable {σ υ τ ω α : Type}

def Fails {ε : Type} (answer : Except ε α) : Prop := ∃ error, answer = .error error

@[simp] theorem fails_error {ε : Type} (error : ε) : Fails (.error error : Except ε α) :=
  ⟨error, rfl⟩

@[simp] theorem not_fails_ok {ε : Type} (a : α) : ¬ Fails (.ok a : Except ε α) := by
  simp [Fails]

@[simp] theorem fails_map {ε β : Type} (f : α → β) (answer : Except ε α) :
    Fails (answer.map f) ↔ Fails answer := by
  cases answer <;> simp [Except.map]

@[simp] theorem fails_mapError {ε ε' : Type} (f : ε → ε') (answer : Except ε α) :
    Fails (answer.mapError f) ↔ Fails answer := by
  cases answer with
  | error error => exact iff_of_true ⟨f error, rfl⟩ ⟨error, rfl⟩
  | ok a => exact iff_of_false (not_fails_ok a) (not_fails_ok a)

instance {ε : Type} : (answer : Except ε α) → Decidable (Fails answer)
  | .ok a => .isFalse (not_fails_ok a)
  | .error error => .isTrue (fails_error error)

/-- What is answered in front of a registry that would answer `own`: the same, or an error that
reached nothing. `view` is what can be seen of the registry behind. -/
def Passes (view : σ → τ) (s : σ) (own : Except RegistryError α × τ)
    (result : Except RegistryError α × σ) : Prop :=
  Fails result.1 ∧ view result.2 = view s ∨
    result.1 = own.1 ∧ view result.2 = own.2

/-- The stream gives some of the frames and then an error. -/
def PullStream.BreaksOff (frames stream : PullStream) : Prop :=
  ∃ count error rest, stream = frames.take count ++ .error error :: rest

namespace Registry

structure Forwards (r : Registry σ υ) (inner : Registry τ ω) (view : σ → τ) (handle : υ → ω) :
    Prop where
  openUpload (s : σ) :
    Passes view s (inner.openUpload (view s)) ((r.openUpload s).1.map handle, (r.openUpload s).2)
  send (frame : UploadFrame) (u : υ) (s : σ) :
    Passes (Prod.map handle view) (u, s) (inner.send frame (handle u) (view s)) (r.send frame u s)
  close (u : υ) (s : σ) :
    Passes (Prod.map handle view) (u, s) (inner.close (handle u) (view s)) (r.close u s)
  cancel (u : υ) (s : σ) : view (r.cancel u s) = inner.cancel (handle u) (view s)
  pull (id : Identifier) (s : σ) :
    Passes view s (inner.pull id (view s)) (r.pull id s) ∨
      ∃ frames stream, (inner.pull id (view s)).1 = .ok frames ∧ (r.pull id s).1 = .ok stream ∧
        PullStream.BreaksOff frames stream ∧
        view (r.pull id s).2 = (inner.pull id (view s)).2
  get (id : Identifier) (s : σ) : Passes view s (inner.get id (view s)) (r.get id s)
  query (q : ArtifactQuery) (s : σ) : Passes view s (inner.query q (view s)) (r.query q s)
  delete (id : Identifier) (s : σ) : Passes view s (inner.delete id (view s)) (r.delete id s)
  addTag (request : TagRequest) (s : σ) :
    Passes view s (inner.addTag request (view s)) (r.addTag request s)
  removeTag (request : TagRequest) (s : σ) :
    Passes view s (inner.removeTag request (view s)) (r.removeTag request s)

variable (r : Registry σ υ)

/-- A registry stands in front of itself. -/
theorem forwards_self : r.Forwards r id id where
  openUpload _ := .inr ⟨congrFun Except.map_id _, rfl⟩
  send _ _ _ := .inr ⟨rfl, rfl⟩
  close _ _ := .inr ⟨rfl, rfl⟩
  cancel _ _ := rfl
  pull _ _ := .inl (.inr ⟨rfl, rfl⟩)
  get _ _ := .inr ⟨rfl, rfl⟩
  query _ _ := .inr ⟨rfl, rfl⟩
  delete _ _ := .inr ⟨rfl, rfl⟩
  addTag _ _ := .inr ⟨rfl, rfl⟩
  removeTag _ _ := .inr ⟨rfl, rfl⟩

theorem guard_passes (fault : Option RegistryError) (call : Call σ α) (s : σ) :
    Passes id s (call s) (Faults.guard fault call s) := by
  cases fault with
  | none => exact .inr ⟨rfl, rfl⟩
  | some error => exact .inl ⟨⟨error, rfl⟩, rfl⟩

theorem cutOff_some (frames : Nat) (error : RegistryError) (stream : PullStream) :
    PullStream.BreaksOff stream (Faults.cutOff (some (frames, error)) stream) :=
  ⟨frames, error, [], rfl⟩

theorem withFaults_forwards (f : Faults) : (r.withFaults f).Forwards r id Prod.fst where
  openUpload s := by
    cases fault : f.openUpload with
    | some error => exact .inl (by simp [withFaults, Faults.guard, fault, Except.map])
    | none =>
      rcases opened : r.openUpload s with ⟨_ | u, t⟩ <;>
        exact .inr (by simp [withFaults, Faults.guard, fault, opened, Except.map])
  send frame u s := by
    cases fault : f.send with
    | none => exact .inr (by simp [withFaults, fault])
    | some numbered =>
      obtain ⟨position, error⟩ := numbered
      by_cases reached : u.2 = position
      · exact .inl (by simp [withFaults, fault, reached])
      · exact .inr (by simp [withFaults, fault, reached])
  close u s := by
    cases fault : f.close with
    | none => exact .inr (by simp [withFaults, fault])
    | some error => exact .inl (by simp [withFaults, fault])
  cancel _ _ := rfl
  pull id s := by
    cases fault : f.pull with
    | some error => exact .inl (.inl (by simp [withFaults, Faults.guard, fault]))
    | none =>
      rcases pulled : r.pull id s with ⟨_ | frames, t⟩
      · exact .inl (.inr (by simp [withFaults, Faults.guard, fault, pulled]))
      · cases broken : f.pullAfter with
        | none =>
          exact .inl (.inr (by simp [withFaults, Faults.guard, fault, pulled, broken,
            Faults.cutOff]))
        | some numbered =>
          refine .inr ⟨frames, _, by simp [pulled], ?_, cutOff_some numbered.1 numbered.2 frames, ?_⟩
          · simp [withFaults, Faults.guard, fault, pulled, broken]
          · simp [withFaults, Faults.guard, fault, pulled]
  get _ s := guard_passes f.get _ s
  query _ s := guard_passes f.query _ s
  delete _ s := guard_passes f.delete _ s
  addTag _ s := guard_passes f.addTag _ s
  removeTag _ s := guard_passes f.removeTag _ s

end Registry

end Depot
