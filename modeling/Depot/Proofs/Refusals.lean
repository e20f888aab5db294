import Depot.Proofs.Accepted
import Depot.Proofs.FailedRequest
import Depot.Proofs.TransferLog

/-! What is refused leaves no trace. A call that is answered with an error might as well not have
been made: versions, log and uploads stay as they were. So the frames that an upload has taken are
its first metadata and behind it content, in the order in which they were accepted, and closing it
commits exactly these, whatever was refused between them. -/
namespace Depot

open Framing (join)

namespace Store

variable {s : Store}

theorem pull_refused {id : Identifier} (refused : Fails (s.pull id).1) : (s.pull id).2 = s := by
  unfold pull at refused ⊢
  split
  · rfl
  next v found => simp [found] at refused

/-- The sweep of a tag does not ask whether there is a version to put it on; this guard does. -/
theorem addTag_missing {r : TagRequest}
    (missing : Versions.lookup s.versions r.name r.versionHash = none) :
    Fails (s.addTag r).1 := by
  unfold addTag
  rw [missing]
  split <;> exact fails_error _

end Store

namespace Upload

variable {u v : Upload}

theorem Sent.reason {frame : UploadFrame} {error : RegistryError}
    (turn : u.Sent frame (.error error) v) :
    ∃ refusal, u.Refuses frame refusal ∧ error = refusal.error := by
  cases turn with
  | refused refuses => exact ⟨_, refuses, rfl⟩

theorem send_error_iff {frame : UploadFrame} {error : RegistryError} :
    (u.send frame).1 = .error error ↔
      ∃ refusal, u.Refuses frame refusal ∧ error = refusal.error := by
  constructor
  · intro failed
    have turn := u.send_sent frame
    rw [failed] at turn
    exact turn.reason
  · rintro ⟨refusal, refuses, rfl⟩
    rw [refuses.send]

end Upload

namespace Traffic

def Answer.isError : Answer → Bool
  | .done answer => Fails answer
  | .artifact answer => Fails answer
  | .content answer => Fails answer
  | _ => false

/-- The call was answered with an error. Closing does not count: it ends an upload that has no
metadata, though it fails. -/
def isRefused : Step × Answer → Bool
  | (.close _, _) => false
  | (_, answer) => answer.isError

theorem refused_step {w : State} {step : Step} (refused : isRefused (step, (w.step step).1) = true) :
    (w.step step).2 = w := by
  cases step with
  | openUpload i =>
    cases handle : w.handles i <;> simp [isRefused, Answer.isError, State.step, handle] at refused
  | send i frame =>
    cases handle : w.handles i with
    | held u =>
      have failed : Fails (u.send frame).1 := by
        simpa [isRefused, Answer.isError, State.step, handle] using refused
      simp only [State.step, handle, Upload.send_refused failed]
      rw [← handle, State.setHandle_self]
    | unused => simp [isRefused, Answer.isError, State.step, handle] at refused
    | dropped => simp [isRefused, Answer.isError, State.step, handle] at refused
  | close i => simp [isRefused] at refused
  | drop i =>
    cases handle : w.handles i <;> simp [isRefused, Answer.isError, State.step, handle] at refused
  | pull id =>
    have failed : Fails (w.store.pull id).1 := of_decide_eq_true refused
    simp only [State.step, Store.pull_refused failed, State.setStore_self]
  | get id => rfl
  | query q => rfl
  | delete id =>
    have failed : Fails (w.store.delete id).1 := of_decide_eq_true refused
    simp only [State.step, Store.delete_refused failed, State.setStore_self]
  | addTag r =>
    have failed : Fails (w.store.addTag r).1 := of_decide_eq_true refused
    simp only [State.step, Store.addTag_refused failed, State.setStore_self]
  | removeTag r =>
    have failed : Fails (w.store.removeTag r).1 := of_decide_eq_true refused
    simp only [State.step, Store.removeTag_refused failed, State.setStore_self]
  | clock now => simp [isRefused, Answer.isError, State.step] at refused

/-- A run without what it refuses. -/
theorem unrefused_run (w : State) (steps : List Step) :
    let done := (w.history steps).filter fun event => !isRefused event
    w.history (done.map Prod.fst) = done ∧ w.after (done.map Prod.fst) = w.after steps := by
  induction steps generalizing w with
  | nil => exact ⟨rfl, rfl⟩
  | cons step steps ih =>
    -- The rest runs from the state behind the step, which for a refused one is the state before it.
    obtain ⟨answers, final⟩ := ih (w.step step).2
    cases refused : isRefused (step, (w.step step).1) with
    | true =>
      rw [refused_step refused] at answers final
      simpa [State.history, State.after, refused, refused_step refused] using ⟨answers, final⟩
    | false => simpa [State.history, State.after, refused] using ⟨answers, final⟩

variable {w : State} {past : Trace} {i : Nat}

theorem close_collected (collects : Collects (trail i past) (w.handles i))
    (going : w.isGoing i = true) :
    let sent := accepted (trail i past)
    let next := w.step (.close i)
    sent = [] ∧ next.1 = .artifact (.error Store.Refusal.closedBeforeMetadata.error) ∧
      next.2.store.versions = w.store.versions ∨
    ∃ metadata frames, sent = .metadata metadata :: frames.map .content ∧
      let committed := w.store.commit metadata (join frames)
      next.1 = .artifact (.ok committed.1) ∧
      next.2.store = committed.2.log
        (.upload (some metadata.name) (frames.map ByteArray.size) .committed) ∧
      w.store.Took next.2.store metadata (join frames) := by
  obtain ⟨u, handle, unfinished⟩ := State.held_of_going going
  rw [handle] at collects
  obtain ⟨ordered, taken⟩ := collects
  cases named : u.metadata with
  | none =>
    -- Without metadata no content was accepted either.
    left
    simp [taken, Upload.taken, named, ordered named, State.step, handle,
      Upload.close_unnamed unfinished named, Store.log]
  | some metadata =>
    right
    let committed := w.store.commit metadata (join u.frames.toList)
    have answered : (w.step (.close i)).1 = .artifact (.ok committed.1) := by
      simp [committed, State.step, handle, Upload.Ready.close ⟨unfinished, named⟩,
        Upload.content_eq]
    have logged : (w.step (.close i)).2.store = committed.2.log
        (.upload (some metadata.name) (u.frames.toList.map ByteArray.size) .committed) := by
      simp [committed, State.step, handle, Upload.Ready.close ⟨unfinished, named⟩,
        Upload.content_eq, Upload.transfer, named]
    refine ⟨metadata, u.frames.toList, ?_, answered, logged, ?_⟩
    · simp [taken, Upload.taken, named]
    · rw [logged]
      exact w.store.commit_took metadata (join u.frames.toList)

/-- At every point of every run, what is refused changes nothing at all: no version, no entry of
the log, no upload. So it may be left out of the run, which is answered the same otherwise and ends
the same. Asking for a tag on a version that is not there is refused, so the tag stays where it is.
What an upload has accepted is its first metadata and then content, and closing it commits these
frames, one behind the other, under this metadata, so that a version with their hash is stored. -/
theorem refusals_leave_no_trace (steps : List Step) :
    let w := start.after steps
    let past := start.history steps
    let done := past.filter fun event => !isRefused event
    (∀ step, isRefused (step, (w.step step).1) = true → (w.step step).2 = w) ∧
    (start.history (done.map Prod.fst) = done ∧ start.after (done.map Prod.fst) = w) ∧
    (∀ r, Versions.lookup w.store.versions r.name r.versionHash = none →
      isRefused (.addTag r, (w.step (.addTag r)).1) = true ∧ (w.step (.addTag r)).2 = w) ∧
    (∀ i u, w.handles i = .held u → ∀ frame error,
      (w.step (.send i frame)).1 = .done (.error error) ↔
        ∃ refusal, u.Refuses frame refusal ∧ error = refusal.error) ∧
    ∀ i, w.isGoing i = true →
      let sent := accepted (trail i past)
      let next := w.step (.close i)
      sent = [] ∧ next.1 = .artifact (.error Store.Refusal.closedBeforeMetadata.error) ∧
        next.2.store.versions = w.store.versions ∨
      ∃ metadata frames, sent = .metadata metadata :: frames.map .content ∧
        let committed := w.store.commit metadata (join frames)
        next.1 = .artifact (.ok committed.1) ∧
        next.2.store = committed.2.log
          (.upload (some metadata.name) (frames.map ByteArray.size) .committed) ∧
        w.store.Took next.2.store metadata (join frames) := by
  intro w past done
  refine ⟨fun _ => refused_step, unrefused_run start steps, fun r missing => ?_,
    fun i u held frame error => ?_,
    fun i going => close_collected (collects_tracks.run steps i) going⟩
  · have refused : isRefused (.addTag r, (w.step (.addTag r)).1) = true :=
      decide_eq_true (Store.addTag_missing missing)
    exact ⟨refused, refused_step refused⟩
  · rw [← Upload.send_error_iff]
    simp [State.step, held]

/-! An upload with frames and a call between its frames that are refused. -/

def interruptedRun : List Step := [
  .openUpload 0,
  .send 0 (.content "x".toUTF8),
  .send 0 (.metadata ⟨toolName, ["v1"]⟩),
  .send 0 (.content "ab".toUTF8),
  .send 0 (.metadata ⟨toolName, ["v2"]⟩),
  .addTag ⟨toolName, firstTool.hash, "v1"⟩,
  .send 0 (.content "cd".toUTF8)]

theorem interrupted_upload_commits :
    let w := start.after interruptedRun
    let next := w.step (.close 0)
    let committed := w.store.commit ⟨toolName, ["v1"]⟩ (join ["ab".toUTF8, "cd".toUTF8])
    (start.history interruptedRun).countP isRefused = 3 ∧
    next.1 = .artifact (.ok committed.1) ∧
    next.2.store = committed.2.log (.upload (some toolName) [2, 2] .committed) ∧
    w.store.Took next.2.store ⟨toolName, ["v1"]⟩ (join ["ab".toUTF8, "cd".toUTF8]) := by
  intro w next committed
  have sent : accepted (trail 0 (start.history interruptedRun)) =
      .metadata ⟨toolName, ["v1"]⟩ :: ["ab".toUTF8, "cd".toUTF8].map .content := by
    decide +kernel
  obtain ⟨_, _, _, _, closing⟩ := refusals_leave_no_trace interruptedRun
  refine ⟨by decide +kernel, ?_⟩
  rcases closing 0 rfl with ⟨nothing, _⟩ | ⟨metadata, frames, whole, outcome⟩
  · rw [sent] at nothing
    contradiction
  · rw [sent] at whole
    obtain ⟨sameMetadata, sameFrames⟩ := List.cons.inj whole
    obtain rfl := UploadFrame.metadata.inj sameMetadata
    obtain rfl := (List.map_inj_right fun _ _ => UploadFrame.content.inj).mp sameFrames
    exact outcome

end Traffic

end Depot
