import Depot.Proofs.InStep

/-! Internal failures. Registries that fail at the same calls for internal reasons cannot be told
apart by any request, whatever their errors say. A registry that fails is told apart from one that
does not by one response only. -/
namespace Depot

variable {σ υ α : Type}

theorem PullStream.append_broken (received : ByteArray) (frames : PullStream)
    (error : RegistryError) : Fails (append received (frames ++ [.error error])) := by
  induction frames generalizing received with
  | nil => exact fails_error error
  | cons frame frames ih =>
    cases frame with
    | error error => exact fails_error error
    | ok frame => exact ih (received ++ frame)

namespace Faults

def BothInternal (error error' : RegistryError) : Prop := error.IsInternal ∧ error'.IsInternal

/-- The same calls fail, for internal reasons, and pulls break off, behind whatever frames and for
whatever reasons. Nothing else about the errors is the same. -/
structure Alike (f f' : Faults) : Prop where
  openUpload : Option.Rel BothInternal f.openUpload f'.openUpload
  send : Option.Rel (fun a b => a.1 = b.1 ∧ BothInternal a.2 b.2) f.send f'.send
  close : Option.Rel BothInternal f.close f'.close
  pull : Option.Rel BothInternal f.pull f'.pull
  pullAfter : f.pullAfter.isSome = f'.pullAfter.isSome
  get : Option.Rel BothInternal f.get f'.get
  query : Option.Rel BothInternal f.query f'.query
  delete : Option.Rel BothInternal f.delete f'.delete
  addTag : Option.Rel BothInternal f.addTag f'.addTag
  removeTag : Option.Rel BothInternal f.removeTag f'.removeTag

def Replaces (paired : Prop) (fault fault' : Option RegistryError) : Prop :=
  match fault with
  | none => fault' = none
  | some error => error.IsInternal ∧
    (paired → ∃ error', fault' = some error' ∧ error'.IsInternal)

theorem replaces_alike {fault fault' : Option RegistryError}
    (alike : Option.Rel BothInternal fault fault') : Replaces True fault fault' := by
  cases alike with
  | none => rfl
  | some both => exact ⟨both.1, fun _ => ⟨_, rfl, both.2⟩⟩

theorem replaces_none {fault fault' : Option RegistryError}
    (alike : Option.Rel BothInternal fault fault') : Replaces False fault none := by
  cases alike with
  | none => rfl
  | some both => exact ⟨both.1, False.elim⟩

def atSend (f : Faults) (position : Nat) : Option RegistryError :=
  f.send.bind fun fault => if position = fault.1 then some fault.2 else none

structure InStep (paired : Prop) (f f' : Faults) : Prop where
  openUpload : Replaces paired f.openUpload f'.openUpload
  send (position : Nat) : Replaces paired (f.atSend position) (f'.atSend position)
  close : Replaces paired f.close f'.close
  pull : Replaces paired f.pull f'.pull
  whole : f.pullAfter = none → f'.pullAfter = none
  broken : f.pullAfter.isSome = true → paired → f'.pullAfter.isSome = true
  get : Replaces paired f.get f'.get
  query : Replaces paired f.query f'.query
  delete : Replaces paired f.delete f'.delete
  addTag : Replaces paired f.addTag f'.addTag
  removeTag : Replaces paired f.removeTag f'.removeTag

variable {f f' : Faults} (alike : f.Alike f')
include alike

theorem Alike.atSend (position : Nat) :
    Option.Rel BothInternal (f.atSend position) (f'.atSend position) := by
  have sends := alike.send
  unfold Faults.atSend
  generalize f.send = send at sends ⊢
  generalize f'.send = send' at sends ⊢
  cases sends with
  | none => exact .none
  | @some fault fault' both =>
    obtain ⟨samePosition, internal⟩ := both
    simp only [Option.bind_some, samePosition]
    split
    · exact .some internal
    · exact .none

theorem Alike.inStep : f.InStep True f' where
  openUpload := replaces_alike alike.openUpload
  send position := replaces_alike (alike.atSend position)
  close := replaces_alike alike.close
  pull := replaces_alike alike.pull
  whole uncut := by simpa [uncut] using alike.pullAfter.symm
  broken cut _ := alike.pullAfter.symm.trans cut
  get := replaces_alike alike.get
  query := replaces_alike alike.query
  delete := replaces_alike alike.delete
  addTag := replaces_alike alike.addTag
  removeTag := replaces_alike alike.removeTag

/-- Faults in place of none. -/
theorem Alike.inStep_none : f.InStep False {} where
  openUpload := replaces_none alike.openUpload
  send position := replaces_none (alike.atSend position)
  close := replaces_none alike.close
  pull := replaces_none alike.pull
  whole _ := rfl
  broken _ := False.elim
  get := replaces_none alike.get
  query := replaces_none alike.query
  delete := replaces_none alike.delete
  addTag := replaces_none alike.addTag
  removeTag := replaces_none alike.removeTag

end Faults

section WithFaults

variable {paired : Prop} {f f' : Faults}

open Faults (Replaces)

theorem guard_inStep {fault fault' : Option RegistryError} (replaces : Replaces paired fault fault')
    (call : Call σ α) (s : σ) : Matches RegistryError.IsInternal paired
      (Faults.guard fault call s) (Faults.guard fault' call s) := by
  cases fault with
  | none =>
    obtain rfl : fault' = none := replaces
    exact .inl rfl
  | some error =>
    obtain ⟨internal, both⟩ := replaces
    refine .inr ⟨error, s, rfl, internal, fun paired => ?_⟩
    obtain ⟨error', rfl, internal'⟩ := both paired
    exact ⟨error', rfl, internal'⟩

namespace Registry

variable (r : Registry σ υ)

/-! All calls with faults are guarded calls, also those that have a part in an upload. -/

theorem withFaults_openUpload (f : Faults) (s : σ) : (r.withFaults f).openUpload s =
    Faults.guard f.openUpload
      (fun s => ((r.openUpload s).1.map fun u => (u, 0), (r.openUpload s).2)) s := by
  cases fault : f.openUpload with
  | some error => simp [withFaults, Faults.guard, fault]
  | none =>
    rcases opened : r.openUpload s with ⟨_ | u, t⟩ <;>
      simp [withFaults, Faults.guard, fault, opened, Except.map]

theorem withFaults_send (f : Faults) (frame : UploadFrame) (u : υ × Nat) (s : σ) :
    (r.withFaults f).send frame u s =
      Faults.guard (f.atSend u.2) (fun (u, s) => ((r.send frame u.1 s).1,
        ((r.send frame u.1 s).2.1, u.2 + 1), (r.send frame u.1 s).2.2)) (u, s) := by
  cases fault : f.send with
  | none => simp [withFaults, Faults.atSend, Faults.guard, fault]
  | some numbered =>
    by_cases reached : u.2 = numbered.1
    · simp [withFaults, Faults.atSend, Faults.guard, fault, reached]
    · simp [withFaults, Faults.atSend, Faults.guard, fault, reached]

theorem withFaults_close (f : Faults) (u : υ × Nat) (s : σ) :
    (r.withFaults f).close u s =
      Faults.guard f.close (fun (u, s) => ((r.close u.1 s).1,
        ((r.close u.1 s).2.1, u.2), (r.close u.1 s).2.2)) (u, s) := by
  cases fault : f.close <;> simp [withFaults, Faults.guard, fault]

theorem withFaults_inStep (inStep : f.InStep paired f') :
    (r.withFaults f).InStep paired (r.withFaults f') where
  openUpload s := by
    rw [withFaults_openUpload, withFaults_openUpload]
    exact guard_inStep inStep.openUpload _ s
  send frame u s := by
    rw [withFaults_send, withFaults_send]
    exact guard_inStep (inStep.send u.2) _ (u, s)
  close u s := by
    rw [withFaults_close, withFaults_close]
    exact guard_inStep inStep.close _ (u, s)
  cancel _ _ := rfl
  pull id s := by
    rcases guard_inStep inStep.pull (r.pull id) s with same | ⟨error, t, failed, internal, both⟩
    · rcases pulled : Faults.guard f'.pull (r.pull id) s with ⟨error | stream, t⟩
      · exact .inl (.inl (by simp only [withFaults, same, pulled]))
      · cases cut : f.pullAfter with
        | none =>
          have whole := inStep.whole cut
          exact .inl (.inl (by simp only [withFaults, same, pulled, cut, whole]))
        | some numbered =>
          refine .inr ⟨Faults.cutOff f.pullAfter stream, t, ?_, ?_, fun paired => ?_⟩
          · simp only [withFaults, same, pulled]
          · rw [cut]
            exact PullStream.append_broken .empty (stream.take numbered.1) numbered.2
          · obtain ⟨numbered', cut'⟩ :=
              Option.isSome_iff_exists.mp (inStep.broken (by rw [cut]; rfl) paired)
            refine ⟨Faults.cutOff f'.pullAfter stream, by simp only [withFaults, pulled], ?_⟩
            rw [cut']
            exact PullStream.append_broken .empty (stream.take numbered'.1) numbered'.2
    · refine .inl (.inr ⟨error, t, by simp only [withFaults, failed], internal, fun paired => ?_⟩)
      obtain ⟨error', failed', internal'⟩ := both paired
      exact ⟨error', by simp only [withFaults, failed'], internal'⟩
  get id s := guard_inStep inStep.get (r.get id) s
  query q s := guard_inStep inStep.query (r.query q) s
  delete id s := guard_inStep inStep.delete (r.delete id) s
  addTag request s := guard_inStep inStep.addTag (r.addTag request) s
  removeTag request s := guard_inStep inStep.removeTag (r.removeTag request) s

end Registry

end WithFaults

namespace Gateway

def faulty (r : Registry σ υ) (wording : Wording) (limits : Limits) (f : Faults) :
    Gateway σ (υ × Nat) :=
  { registry := r.withFaults f, wording, limits }

/-- Whatever is requested of two gateways whose registries have the same faults, in any words: both
answer the same and are left in the same state. If that is not what a gateway without faults does,
then the answer is the one for all internal failures. So it is if the form of an upload arrives in
pieces and breaks anywhere among them. -/
theorem internal_faults_are_opaque {f f' : Faults} (alike : f.Alike f') (r : Registry σ υ)
    (wording : Wording) (limits : Limits) (state : GatewayState σ) :
    let broken := faulty r wording limits f
    let broken' := faulty r wording limits f'
    let whole := faulty r wording limits {}
    (∀ request,
      broken.answer request state = broken'.answer request state ∧
      (broken.answer request state ≠ whole.answer request state →
        (broken.answer request state).1 = internalAnswer request)) ∧
    ∀ words form,
      respond words (broken.upload form state) = respond words (broken'.upload form state) ∧
      (respond words (broken.upload form state) ≠ respond words (whole.upload form state) →
        (respond words (broken.upload form state)).1 = internalResponse) := by
  intro broken broken' whole
  have both : broken.registry.InStep True broken'.registry := r.withFaults_inStep alike.inStep
  have none : broken.registry.InStep False whole.registry := r.withFaults_inStep alike.inStep_none
  refine ⟨fun request => ⟨?_, fun decided => ?_⟩, fun words form => ⟨?_, fun decided => ?_⟩⟩
  · rcases answer_inStep both request state with same | ⟨_, same⟩
    · exact same
    · exact same trivial
  · rcases answer_inStep none request state with same | ⟨told, _⟩
    · exact absurd same decided
    · exact told
  · rcases respond_inStep (act_inStep both (.operate (.upload form)) state) words with
      same | ⟨_, same⟩
    · exact same
    · exact same trivial
  · rcases respond_inStep (act_inStep none (.operate (.upload form)) state) words with
      same | ⟨told, _⟩
    · exact absurd same decided
    · exact told

/-- Content cannot be sent, tags cannot be added, and pulls break off as if nothing were there. The
errors say what they are given to say. -/
def talking (text : String) : Faults where
  send := some (1, { kind := .cancelled, registry := text, cause := text })
  pullAfter := some (1, {
    kind := .notFound, registry := text, identifier := some text, cause := text })
  addTag := some { kind := .other, registry := text, context := some text, cause := text }

theorem talking_alike (text text' : String) : (talking text).Alike (talking text') where
  openUpload := .none
  send := .some ⟨rfl, rfl, rfl⟩
  close := .none
  pull := .none
  pullAfter := rfl
  get := .none
  query := .none
  delete := .none
  addTag := .some ⟨rfl, rfl⟩
  removeTag := .none

theorem broken_downloads_say_the_same :
    (faulty Store.registry default {} (talking "disk 7")).answer toolDownload toolState =
      (faulty Store.registry default {} (talking "")).answer toolDownload toolState ∧
    ((faulty Store.registry default {} (talking "disk 7")).answer toolDownload toolState).1 =
      internalResponse := by
  obtain ⟨requests, _⟩ :=
    internal_faults_are_opaque (talking_alike "disk 7" "") Store.registry default {} toolState
  obtain ⟨same, told⟩ := requests toolDownload
  refine ⟨same, told fun undecided => ?_⟩
  have status := congrArg (fun answer => answer.1.status) undecided
  revert status
  decide +kernel

end Gateway

end Depot
