import Depot.TaskQueue
import Mathlib.Data.List.Nodup

/-! The queue over its whole life. Each call has the queue to itself until it is answered, so the
calls of any number of clients are one list, in the order in which they were let in; every list is
some interleaving. Tasks come out in the order in which they were accepted, none is lost or comes
out twice, and there are never more of them waiting than there is room for. Their ids are those of
the source, in order. -/
namespace Depot.TaskQueue

inductive Call where
  | enqueue (request : TaskRequest)
  | pop

inductive Answer where
  | enqueued (answer : Except QueueError TaskId)
  | popped (task : Option Task)

def call (q : TaskQueue) : Call → Answer × TaskQueue
  | .enqueue request => (.enqueued (q.enqueue request).1, (q.enqueue request).2)
  | .pop => (.popped q.pop.1, q.pop.2)

def history (q : TaskQueue) : List Call → List (Call × Answer)
  | [] => []
  | call :: calls => (call, (q.call call).1) :: (q.call call).2.history calls

def after (q : TaskQueue) : List Call → TaskQueue
  | [] => q
  | call :: calls => (q.call call).2.after calls

/-- What a client knows that its request became: the task with the request and the id answered. -/
def acceptedTask? : Call × Answer → Option Task
  | (.enqueue request, .enqueued (.ok id)) => some ⟨id, request⟩
  | _ => none

def poppedTask? : Call × Answer → Option Task
  | (_, .popped task) => task
  | _ => none

def accepted (entries : List (Call × Answer)) : List Task := entries.filterMap acceptedTask?

def popped (entries : List (Call × Answer)) : List Task := entries.filterMap poppedTask?

def HasRoom (q : TaskQueue) : Prop := ∀ capacity, q.capacity = some capacity →
  q.waiting.length < capacity

def IsBounded (q : TaskQueue) : Prop := ∀ capacity, q.capacity = some capacity →
  q.waiting.length ≤ capacity

variable {q : TaskQueue}

/-! ### What one call does -/

theorem enqueue_cases (q : TaskQueue) (request : TaskRequest) :
    (∃ capacity, q.capacity = some capacity ∧ capacity ≤ q.waiting.length ∧
      q.enqueue request = (.error (.full capacity), q)) ∨
    (q.HasRoom ∧ q.enqueue request = (.ok q.fresh, q.append request)) := by
  unfold enqueue HasRoom
  cases limit : q.capacity with
  | none => exact .inr ⟨by simp, rfl⟩
  | some capacity =>
    by_cases full : capacity ≤ q.waiting.length
    · exact .inl ⟨capacity, rfl, full, by simp [full]⟩
    · refine .inr ⟨fun limit same => ?_, by simp [full]⟩
      obtain rfl := Option.some.inj same
      exact Nat.not_le.mp full

theorem pop_cases (q : TaskQueue) :
    (q.waiting = [] ∧ q.pop = (none, q)) ∨
    (∃ task rest, q.waiting = task :: rest ∧ q.pop = (some task, { q with waiting := rest })) := by
  unfold pop
  cases waiting : q.waiting with
  | nil => exact .inl ⟨rfl, rfl⟩
  | cons task rest => exact .inr ⟨task, rest, rfl, rfl⟩

/-- Everything that a call can do: nothing, or put a task at the back, or take one from the front. -/
theorem call_cases (q : TaskQueue) (call : Call) :
    let entry := (call, (q.call call).1)
    ((q.call call).2 = q ∧ acceptedTask? entry = none ∧ poppedTask? entry = none) ∨
    (∃ request, q.HasRoom ∧ (q.call call).2 = q.append request ∧
      acceptedTask? entry = some ⟨q.fresh, request⟩ ∧ poppedTask? entry = none) ∨
    (∃ task rest, q.waiting = task :: rest ∧ (q.call call).2 = { q with waiting := rest } ∧
      acceptedTask? entry = none ∧ poppedTask? entry = some task) := by
  cases call with
  | enqueue request =>
    rcases enqueue_cases q request with ⟨capacity, _, _, refused⟩ | ⟨room, taken⟩
    · exact .inl (by simp [TaskQueue.call, refused, acceptedTask?, poppedTask?])
    · refine .inr (.inl ⟨request, room, ?_⟩)
      simp [TaskQueue.call, taken, acceptedTask?, poppedTask?]
  | pop =>
    rcases pop_cases q with ⟨_, missed⟩ | ⟨task, rest, front, taken⟩
    · exact .inl (by simp [TaskQueue.call, missed, acceptedTask?, poppedTask?])
    · refine .inr (.inr ⟨task, rest, front, ?_⟩)
      simp [TaskQueue.call, taken, acceptedTask?, poppedTask?]

theorem call_capacity (q : TaskQueue) (call : Call) :
    (q.call call).2.capacity = q.capacity := by
  rcases call_cases q call with ⟨same, _⟩ | ⟨_, _, same, _⟩ | ⟨_, _, _, same, _⟩ <;> rw [same]
  rfl

theorem call_bounded (bounded : q.IsBounded) (call : Call) : (q.call call).2.IsBounded := by
  intro capacity limit
  rw [call_capacity] at limit
  have before := bounded capacity limit
  rcases call_cases q call with ⟨same, _⟩ | ⟨_, room, same, _⟩ | ⟨_, _, front, same, _⟩
  · rwa [same]
  · have room := room capacity limit
    simp only [same, append, List.length_append, List.length_singleton]
    omega
  · rw [front, List.length_cons] at before
    rw [same]
    exact Nat.le_of_succ_le before

/-- The source of ids stays the same, and an accepted task takes the next id from it. -/
theorem call_draws (q : TaskQueue) (call : Call) :
    (q.call call).2.ids = q.ids ∧
      match acceptedTask? (call, (q.call call).1) with
      | none => (q.call call).2.drawn = q.drawn
      | some task => task.id = q.ids q.drawn ∧ (q.call call).2.drawn = q.drawn + 1 := by
  rcases call_cases q call with ⟨same, no, _⟩ | ⟨request, _, same, yes, _⟩ | ⟨_, _, _, same, no, _⟩
  · simp [same, no]
  · simp [same, yes, append, fresh]
  · simp [same, no]

/-- Nothing is lost: what waits and what is put in is what is taken out and what waits then. -/
theorem call_conserves (q : TaskQueue) (call : Call) :
    q.waiting ++ (acceptedTask? (call, (q.call call).1)).toList =
      (poppedTask? (call, (q.call call).1)).toList ++ (q.call call).2.waiting := by
  rcases call_cases q call with ⟨same, no, none⟩ | ⟨request, _, same, yes, none⟩ |
    ⟨task, rest, front, same, no, some⟩
  · simp [same, no, none]
  · simp [same, yes, none, append]
  · simp [same, no, some, front]

/-! ### What a run of calls does -/

theorem after_capacity (q : TaskQueue) (calls : List Call) :
    (q.after calls).capacity = q.capacity := by
  induction calls generalizing q with
  | nil => rfl
  | cons call calls ih => exact (ih _).trans (call_capacity q call)

theorem after_bounded (bounded : q.IsBounded) (calls : List Call) : (q.after calls).IsBounded := by
  induction calls generalizing q with
  | nil => exact bounded
  | cons call calls ih => exact ih (call_bounded bounded call)

@[simp] theorem accepted_cons (entry : Call × Answer) (entries : List (Call × Answer)) :
    accepted (entry :: entries) = (acceptedTask? entry).toList ++ accepted entries := by
  unfold accepted
  cases task : acceptedTask? entry <;> simp [task]

@[simp] theorem popped_cons (entry : Call × Answer) (entries : List (Call × Answer)) :
    popped (entry :: entries) = (poppedTask? entry).toList ++ popped entries := by
  unfold popped
  cases task : poppedTask? entry <;> simp [task]

theorem history_conserves (q : TaskQueue) (calls : List Call) :
    q.waiting ++ accepted (q.history calls) =
      popped (q.history calls) ++ (q.after calls).waiting := by
  induction calls generalizing q with
  | nil => simp [history, after, accepted, popped]
  | cons call calls ih =>
    simp only [history, after, accepted_cons, popped_cons, List.append_assoc]
    rw [← ih, ← List.append_assoc, call_conserves, List.append_assoc]

theorem accepted_ids (q : TaskQueue) (calls : List Call) :
    let tasks := accepted (q.history calls)
    tasks.map Task.id = (List.range' q.drawn tasks.length).map q.ids := by
  intro tasks
  induction calls generalizing q with
  | nil => rfl
  | cons call calls ih =>
    obtain ⟨sameIds, draws⟩ := call_draws q call
    have rest := ih (q.call call).2
    simp only [tasks, history, accepted_cons]
    cases taken : acceptedTask? (call, (q.call call).1) with
    | none =>
      rw [taken] at draws
      rwa [sameIds, draws] at rest
    | some first =>
      rw [taken] at draws
      rw [sameIds, draws.2] at rest
      simp [draws.1, rest, List.range'_succ]

/-- At every point of every run, the tasks popped so far and the tasks still waiting are the tasks
accepted so far, in their order, with ids that differ if those of the source do. No more are waiting
than the capacity. A request is refused exactly when that many are waiting, a pop gets nothing
exactly when none is, and neither then changes the queue. -/
theorem tasks_in_order (ids : Nat → TaskId) (capacity : Option Nat) (calls : List Call) :
    let entries := history { ids, capacity } calls
    let now := after { ids, capacity } calls
    popped entries ++ now.waiting = accepted entries ∧
    (Function.Injective ids → ((accepted entries).map Task.id).Nodup) ∧
    (∀ limit, capacity = some limit → now.waiting.length ≤ limit) ∧
    (∀ request, ((∃ error, (now.enqueue request).1 = .error error) ↔
        capacity = some now.waiting.length) ∧
      ∀ error, (now.enqueue request).1 = .error error → (now.enqueue request).2 = now) ∧
    (now.pop.1 = none ↔ now.waiting = []) ∧ (now.waiting = [] → now.pop.2 = now) := by
  intro entries now
  have limited : now.capacity = capacity := after_capacity { ids, capacity } calls
  have bounded : now.IsBounded := after_bounded (by simp [IsBounded]) calls
  have conserved := history_conserves { ids, capacity } calls
  refine ⟨conserved.symm, fun distinct => ?_, fun limit is => bounded limit (limited.trans is),
    fun request => ?_, ?_⟩
  · rw [accepted_ids { ids, capacity } calls]
    exact List.Nodup.map distinct List.nodup_range'
  · rcases enqueue_cases now request with ⟨limit, is, full, refused⟩ | ⟨room, taken⟩
    · have exactly : now.waiting.length = limit := Nat.le_antisymm (bounded limit is) full
      rw [refused, ← limited, is, exactly]
      exact ⟨⟨fun _ => rfl, fun _ => ⟨_, rfl⟩⟩, fun _ _ => rfl⟩
    · rw [taken, ← limited]
      refine ⟨⟨by simp, fun full => ?_⟩, by simp⟩
      exact absurd (room _ full) (Nat.lt_irrefl _)
  · rcases pop_cases now with ⟨empty, missed⟩ | ⟨task, rest, front, taken⟩
    · simp [empty, missed]
    · simp [front, taken]

/-! One place for two requests: the second is refused until the first is taken out. -/

def strokes (drawn : Nat) : TaskId := ⟨String.ofList (List.replicate drawn 'I')⟩

def crowdedRun (request : TaskRequest) : List Call :=
  [.enqueue request, .enqueue request, .pop, .enqueue request, .pop, .pop]

theorem crowded_tasks_in_order :
    Function.Injective strokes ∧ ∃ request,
      popped (history { ids := strokes, capacity := some 1 } (crowdedRun request)) =
        [⟨⟨""⟩, request⟩, ⟨⟨"I"⟩, request⟩] ∧
      ((accepted (history { ids := strokes, capacity := some 1 } (crowdedRun request))).map
        Task.id).Nodup := by
  have distinct : Function.Injective strokes := by
    intro m n same
    have lengths := congrArg (fun id => id.text.toList.length) same
    simpa [strokes] using lengths
  let tool : QualifiedName := ⟨"git", "alice", "tool", by decide, by decide, by decide⟩
  let request : TaskRequest := ⟨⟨tool, .tag "v1", by decide⟩, "main", .empty⟩
  obtain ⟨_, ids, _⟩ := tasks_in_order strokes (some 1) (crowdedRun request)
  exact ⟨distinct, request, by decide, ids distinct⟩

end Depot.TaskQueue
