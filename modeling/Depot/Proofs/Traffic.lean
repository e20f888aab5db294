import Depot.Store.Upload
import Mathlib.Logic.Function.Basic

/-! Many clients on one store. A step is one call of one client, on an upload that the client holds
or on the store, or the clock comes to read something else; a run is any interleaving of steps, so
the readings of the clock in it are any. Uploads are named by numbers: a name stands for one upload
for ever, and a step on an upload that nobody holds changes nothing. -/
namespace Depot.Traffic

inductive Handle where
  | unused
  | held (upload : Upload)
  | dropped

inductive Step where
  | openUpload (upload : Nat)
  | send (upload : Nat) (frame : UploadFrame)
  | close (upload : Nat)
  | drop (upload : Nat)
  | pull (id : Identifier)
  | get (id : Identifier)
  | query (q : ArtifactQuery)
  | delete (id : Identifier)
  | addTag (r : TagRequest)
  | removeTag (r : TagRequest)
  | clock (now : Timestamp)
  deriving DecidableEq

inductive Answer where
  /-- The name of the upload is taken, or stands for none. -/
  | noUpload
  | done (answer : Except RegistryError Unit)
  | artifact (answer : Except RegistryError Artifact)
  | artifacts (answer : List Artifact)
  | content (answer : Except RegistryError (List ByteArray))

structure State where
  store : Store
  handles : Nat → Handle

namespace State

def setHandle (w : State) (i : Nat) (h : Handle) : State :=
  { w with handles := Function.update w.handles i h }

def setStore (w : State) (s : Store) : State := { w with store := s }

def step (w : State) : Step → Answer × State
  | .openUpload i =>
    match w.handles i with
    | .unused => (.done (.ok ()), w.setHandle i (.held {}))
    | _ => (.noUpload, w)
  | .send i frame =>
    match w.handles i with
    | .held u => (.done (u.send frame).1, w.setHandle i (.held (u.send frame).2))
    | _ => (.noUpload, w)
  | .close i =>
    match w.handles i with
    | .held u =>
      let (answer, u, s) := u.close w.store
      (.artifact answer, (w.setStore s).setHandle i (.held u))
    | _ => (.noUpload, w)
  | .drop i =>
    match w.handles i with
    | .held u => (.done (.ok ()), (w.setStore (u.cancel w.store)).setHandle i .dropped)
    | _ => (.noUpload, w)
  | .pull id => (.content (w.store.pull id).1, w.setStore (w.store.pull id).2)
  | .get id => (.artifact (w.store.get id), w)
  | .query q => (.artifacts (w.store.query q), w)
  | .delete id => (.artifact (w.store.delete id).1, w.setStore (w.store.delete id).2)
  | .addTag r => (.done (w.store.addTag r).1, w.setStore (w.store.addTag r).2)
  | .removeTag r => (.done (w.store.removeTag r).1, w.setStore (w.store.removeTag r).2)
  | .clock now => (.done (.ok ()), w.setStore { w.store with clock := now })

def history (w : State) : List Step → List (Step × Answer)
  | [] => []
  | step :: rest => (step, (w.step step).1) :: (w.step step).2.history rest

def after (w : State) : List Step → State
  | [] => w
  | step :: rest => (w.step step).2.after rest

end State

def start : State := ⟨{}, fun _ => .unused⟩

/-- The store of some run, at any point of it. -/
def Reachable (s : Store) : Prop := ∃ steps, (start.after steps).store = s

namespace State

variable {w : State}

@[simp] theorem store_setHandle (i : Nat) (h : Handle) : (w.setHandle i h).store = w.store := rfl
@[simp] theorem store_setStore (s : Store) : (w.setStore s).store = s := rfl
@[simp] theorem handles_setStore (s : Store) : (w.setStore s).handles = w.handles := rfl

theorem setStore_self (w : State) : w.setStore w.store = w := rfl

@[simp] theorem handles_setHandle_same (i : Nat) (h : Handle) : (w.setHandle i h).handles i = h := by
  simp [setHandle]

@[simp] theorem handles_setHandle_other {i j : Nat} (apart : j ≠ i) (h : Handle) :
    (w.setHandle i h).handles j = w.handles j := by
  simp [setHandle, apart]

theorem history_steps (w : State) (steps : List Step) : (w.history steps).map Prod.fst = steps := by
  induction steps generalizing w with
  | nil => rfl
  | cons step steps ih => simp only [history, List.map_cons, ih]

theorem history_append (w : State) (front back : List Step) :
    w.history (front ++ back) = w.history front ++ (w.after front).history back := by
  induction front generalizing w with
  | nil => rfl
  | cons step front ih => exact congrArg _ (ih _)

theorem after_append (w : State) (front back : List Step) :
    w.after (front ++ back) = (w.after front).after back := by
  induction front generalizing w with
  | nil => rfl
  | cons step front ih => exact ih _

/-- What every step keeps, every run keeps. -/
theorem after_invariant (property : State → Prop)
    (kept : ∀ w step, property w → property (w.step step).2)
    (valid : property w) (steps : List Step) : property (w.after steps) := by
  induction steps generalizing w with
  | nil => exact valid
  | cons step steps ih => exact ih (kept w step valid)

end State

/-- Everything that one step can do to a store. -/
inductive Effect (s : Store) (step : Step) : Store → Prop where
  | unchanged : Effect s step s
  | logged (transfer : Transfer) : Effect s step (s.log transfer)
  | committed (metadata : UploadMetadata) (content : ByteArray) (transfer : Transfer) :
      Effect s step ((s.commit metadata content).2.log transfer)
  | pulled (id : Identifier) : Effect s step (s.pull id).2
  | deleted (id : Identifier) (asked : step = .delete id) : Effect s step (s.delete id).2
  | tagged (r : TagRequest) : Effect s step (s.addTag r).2
  | untagged (r : TagRequest) : Effect s step (s.removeTag r).2
  | clocked (now : Timestamp) : Effect s step { s with clock := now }

theorem close_effect (u : Upload) (s : Store) (step : Step) : Effect s step (u.close s).2.2 := by
  unfold Upload.close
  split
  · exact .unchanged
  · split
    · exact .logged _
    · exact .committed _ _ _

theorem cancel_effect (u : Upload) (s : Store) (step : Step) : Effect s step (u.cancel s) := by
  unfold Upload.cancel
  split
  · exact .unchanged
  · exact .logged _

theorem step_effect (w : State) (step : Step) : Effect w.store step (w.step step).2.store := by
  cases step with
  | openUpload i => simp only [State.step]; split <;> exact .unchanged
  | send i frame => simp only [State.step]; split <;> exact .unchanged
  | close i =>
    simp only [State.step]
    split
    · exact close_effect _ _ _
    · exact .unchanged
  | drop i =>
    simp only [State.step]
    split
    · exact cancel_effect _ _ _
    · exact .unchanged
  | pull id => exact .pulled id
  | get id => exact .unchanged
  | query q => exact .unchanged
  | delete id => exact .deleted id rfl
  | addTag r => exact .tagged r
  | removeTag r => exact .untagged r
  | clock now => exact .clocked now

/-- What no effect breaks holds of the store in the whole of a run. -/
theorem State.store_invariant (property : Store → Prop)
    (kept : ∀ s step t, property s → Effect s step t → property t) {w : State}
    (valid : property w.store) (steps : List Step) : property (w.after steps).store :=
  State.after_invariant (fun w => property w.store)
    (fun w step valid => kept _ step _ valid (step_effect w step)) valid steps

end Depot.Traffic
