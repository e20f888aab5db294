import Depot.Proofs.Traffic

/-! Uploads serialise at their close. Opening an upload and sending to it concern nobody but its
client, so these steps may wait until the upload is closed or dropped: every step is answered as
before, and the run ends in the same state. -/
namespace Depot.Traffic

def Step.upload? : Step → Option Nat
  | .openUpload i | .send i _ | .close i | .drop i => some i
  | _ => none

def Step.isQuiet : Step → Bool
  | .openUpload _ | .send _ _ => true
  | _ => false

def Step.isAbout (step : Step) (i : Nat) : Bool := step.upload? = some i

theorem Step.isAbout_iff (step : Step) (i : Nat) : step.isAbout i = true ↔ step.upload? = some i := by
  simp [isAbout]

/-- Steps about different uploads, or about an upload and the store, one of them quiet. -/
def Independent (a b : Step) : Prop :=
  (a.isQuiet = true ∨ b.isQuiet = true) ∧ a.upload? ≠ b.upload?

namespace State

variable {w : State} {i : Nat}

@[simp] theorem setHandle_self (w : State) (i : Nat) : w.setHandle i (w.handles i) = w := by
  simp [setHandle]

@[simp] theorem setHandle_twice (w : State) (i : Nat) (g h : Handle) :
    (w.setHandle i g).setHandle i h = w.setHandle i h := by
  simp [setHandle]

theorem setHandle_comm (w : State) {i j : Nat} (apart : i ≠ j) (g h : Handle) :
    (w.setHandle i g).setHandle j h = (w.setHandle j h).setHandle i g := by
  simp [setHandle, Function.update_comm apart]

theorem setStore_setHandle (w : State) (i : Nat) (h : Handle) (s : Store) :
    (w.setHandle i h).setStore s = (w.setStore s).setHandle i h := rfl

/-- A step does not see an upload that it is not about. -/
theorem step_setHandle {step : Step} (apart : step.upload? ≠ some i) (w : State) (h : Handle) :
    (w.setHandle i h).step step = ((w.step step).1, (w.step step).2.setHandle i h) := by
  cases step with
  | openUpload j =>
    have apart : j ≠ i := fun same => apart (congrArg some same)
    cases handle : w.handles j <;>
      simp [step, handle, apart, setHandle_comm w apart.symm]
  | send j frame =>
    have apart : j ≠ i := fun same => apart (congrArg some same)
    cases handle : w.handles j <;>
      simp [step, handle, apart, setHandle_comm w apart.symm]
  | close j =>
    have apart : j ≠ i := fun same => apart (congrArg some same)
    cases handle : w.handles j <;>
      simp [step, handle, apart, setStore_setHandle, setHandle_comm _ apart.symm]
  | drop j =>
    have apart : j ≠ i := fun same => apart (congrArg some same)
    cases handle : w.handles j <;>
      simp [step, handle, apart, setStore_setHandle, setHandle_comm _ apart.symm]
  | _ => rfl

theorem step_handles {step : Step} (apart : step.upload? ≠ some i) (w : State) :
    (w.step step).2.handles i = w.handles i := by
  have kept := step_setHandle apart w (w.handles i)
  rw [setHandle_self] at kept
  rw [kept, handles_setHandle_same]

/-- What a quiet step does is settled by the upload it is about, and happens to that alone. -/
theorem step_quiet {step : Step} (quiet : step.isQuiet = true) (about : step.upload? = some i)
    (w : State) : ∃ answer h, ∀ v : State, v.handles i = w.handles i →
      v.step step = (answer, v.setHandle i h) := by
  refine ⟨(w.step step).1, (w.step step).2.handles i, fun v same => ?_⟩
  have idle : v.setHandle i (w.handles i) = v := by rw [← same, setHandle_self]
  cases step with
  | openUpload j =>
    obtain rfl : j = i := Option.some.inj about
    cases handle : w.handles j <;> rw [handle] at same idle <;>
      simp [State.step, same, handle, idle]
  | send j frame =>
    obtain rfl : j = i := Option.some.inj about
    cases handle : w.handles j <;> rw [handle] at same idle <;>
      simp [State.step, same, handle, idle]
  | _ => contradiction

theorem quiet_commutes {a b : Step} (quiet : a.isQuiet = true) (apart : a.upload? ≠ b.upload?)
    (w : State) : ((w.step a).2.step b).1 = (w.step b).1 ∧
      ((w.step b).2.step a).1 = (w.step a).1 ∧
      ((w.step a).2.step b).2 = ((w.step b).2.step a).2 := by
  obtain ⟨i, about⟩ : ∃ i, a.upload? = some i := by
    cases a <;> first | contradiction | exact ⟨_, rfl⟩
  have apart : b.upload? ≠ some i := fun same => apart (about.trans same.symm)
  obtain ⟨answer, h, quietly⟩ := step_quiet quiet about w
  rw [quietly w rfl, quietly _ (step_handles apart w), step_setHandle apart]
  exact ⟨rfl, rfl, rfl⟩

theorem independent_commute {a b : Step} (free : Independent a b) (w : State) :
    ((w.step a).2.step b).1 = (w.step b).1 ∧ ((w.step b).2.step a).1 = (w.step a).1 ∧
      ((w.step a).2.step b).2 = ((w.step b).2.step a).2 := by
  obtain ⟨quiet | quiet, apart⟩ := free
  · exact quiet_commutes quiet apart w
  · obtain ⟨first, second, same⟩ := quiet_commutes quiet apart.symm w
    exact ⟨second, first, same.symm⟩

end State

/-- Reached by swapping neighbours that are free of each other. -/
inductive Reordered {α : Type} (free : α → α → Prop) : List α → List α → Prop where
  | refl (xs : List α) : Reordered free xs xs
  | cons (a : α) {xs ys : List α} : Reordered free xs ys → Reordered free (a :: xs) (a :: ys)
  | swap {a b : α} (apart : free a b) (xs : List α) :
      Reordered free (a :: b :: xs) (b :: a :: xs)
  | trans {xs ys zs : List α} : Reordered free xs ys → Reordered free ys zs →
      Reordered free xs zs

namespace Reordered

variable {α : Type} {free : α → α → Prop}

theorem append (front : List α) {xs ys : List α} (h : Reordered free xs ys) :
    Reordered free (front ++ xs) (front ++ ys) := by
  induction front with
  | nil => exact h
  | cons a front ih => exact .cons a ih

theorem advance {a : α} {held : List α} (apart : ∀ x ∈ held, free x a) (rest : List α) :
    Reordered free (held ++ a :: rest) (a :: held ++ rest) := by
  induction held with
  | nil => exact .refl _
  | cons x held ih =>
    have ih := ih fun y member => apart y (List.mem_cons_of_mem x member)
    exact (Reordered.cons x ih).trans (.swap (apart x List.mem_cons_self) _)

theorem retreat {a : α} {front : List α} (apart : ∀ x ∈ front, free a x) (rest : List α) :
    Reordered free (a :: (front ++ rest)) (front ++ a :: rest) := by
  induction front with
  | nil => exact .refl _
  | cons x front ih =>
    have ih := ih fun y member => apart y (List.mem_cons_of_mem x member)
    exact (Reordered.swap (apart x List.mem_cons_self) _).trans (ih.cons x)

/-- What a test selects goes in front, if it is free of the rest. -/
theorem select (chosen : α → Bool) {held : List α}
    (apart : ∀ x ∈ held, ∀ y ∈ held, chosen x = false → chosen y = true → free x y)
    (rest : List α) : Reordered free (held ++ rest)
      (held.filter chosen ++ held.filter (fun x => !chosen x) ++ rest) := by
  induction held with
  | nil => exact .refl _
  | cons x held ih =>
    have ih := ih fun y hy z hz => apart y (List.mem_cons_of_mem x hy) z (List.mem_cons_of_mem x hz)
    cases selected : chosen x with
    | true => simpa [selected] using ih.cons x
    | false =>
      -- `x` stays behind: everything chosen from the rest passes it.
      have passed : ∀ y ∈ held.filter chosen, free x y := by
        intro y member
        obtain ⟨member, chosenY⟩ := List.mem_filter.mp member
        exact apart x List.mem_cons_self y (List.mem_cons_of_mem x member) selected chosenY
      have behind := retreat passed (held.filter (!chosen ·) ++ rest)
      rw [← List.append_assoc] at behind
      simpa [selected] using (ih.cons x).trans behind

end Reordered

variable {α : Type}

def Free (step : α → Step) (a b : α) : Prop := Independent (step a) (step b)

inductive Recorded : State → List (Step × Answer) → State → Prop where
  | nil (w : State) : Recorded w [] w
  | cons {w final : State} (step : Step) {rest : List (Step × Answer)} :
      Recorded (w.step step).2 rest final →
      Recorded w ((step, (w.step step).1) :: rest) final

namespace Recorded

theorem history (w : State) (steps : List Step) :
    Recorded w (w.history steps) (w.after steps) := by
  induction steps generalizing w with
  | nil => exact .nil w
  | cons step steps ih => exact .cons step (ih _)

theorem settled {w final : State} {entries : List (Step × Answer)}
    (recorded : Recorded w entries final) :
    w.history (entries.map Prod.fst) = entries ∧ w.after (entries.map Prod.fst) = final := by
  induction recorded with
  | nil w => exact ⟨rfl, rfl⟩
  | cons step _ ih => exact ⟨congrArg _ ih.1, ih.2⟩

/-- Independent steps that change places keep their answers and lead to the same state. -/
theorem reorder {entries others : List (Step × Answer)}
    (moved : Reordered (Free Prod.fst) entries others) {w final : State}
    (recorded : Recorded w entries final) : Recorded w others final := by
  induction moved generalizing w with
  | refl => exact recorded
  | cons a _ ih => cases recorded with | cons step rest => exact .cons step (ih rest)
  | @swap a b free entries =>
    cases recorded with
    | cons first rest =>
      cases rest with
      | cons second rest =>
        obtain ⟨answerB, answerA, same⟩ := State.independent_commute free w
        rw [answerB, ← answerA]
        rw [same] at rest
        exact .cons second (.cons first rest)
  | trans _ _ ih₁ ih₂ => exact ih₂ (ih₁ recorded)

end Recorded

/-- Puts off the opening of every upload, and what is sent to it, until it is first closed or
dropped, or to the end. `held` has waited so far, `ended` lists the uploads closed or dropped. -/
def putOff (step : α → Step) (held : List α) (ended : List Nat) : List α → List α
  | [] => held
  | a :: rest =>
    match (step a).upload? with
    | none => a :: putOff step held ended rest
    | some i =>
      if (step a).isQuiet then
        if i ∈ ended then a :: putOff step held ended rest
        else putOff step (held ++ [a]) ended rest
      else
        held.filter (fun x => (step x).isAbout i) ++
          a :: putOff step (held.filter fun x => !(step x).isAbout i) (i :: ended) rest

/-- The run in which every upload is opened and sent to when it is closed or dropped. -/
def postpone (step : α → Step) (run : List α) : List α := putOff step [] [] run

theorem map_putOff {β : Type} (f : α → β) (step : β → Step) (held : List α) (ended : List Nat)
    (rest : List α) : (putOff (fun a => step (f a)) held ended rest).map f =
      putOff step (held.map f) ended (rest.map f) := by
  induction rest generalizing held ended with
  | nil => rfl
  | cons a rest ih =>
    simp only [putOff, List.map_cons]
    split
    · simp [ih]
    · split
      · split <;> simp [ih]
      · simp [ih, List.filter_map, Function.comp_def]

/-- What waits is quiet and about uploads that have not ended. -/
def Waiting (ended : List Nat) (step : Step) : Prop :=
  step.isQuiet = true ∧ ∃ i, step.upload? = some i ∧ i ∉ ended

/-- When an upload ends, what waits for it passes the rest, and the rest passes its end. -/
theorem reordered_end (step : α → Step) {held : List α} {a : α} {i : Nat}
    (quiet : ∀ x ∈ held, (step x).isQuiet = true) (about : (step a).upload? = some i)
    (rest : List α) : Reordered (Free step) (held ++ a :: rest)
      (held.filter (fun x => (step x).isAbout i) ++
        a :: (held.filter (fun x => !(step x).isAbout i) ++ rest)) := by
  have selected : Reordered (Free step) (held ++ a :: rest)
      (held.filter (fun x => (step x).isAbout i) ++
        held.filter (fun x => !(step x).isAbout i) ++ a :: rest) := by
    apply Reordered.select (fun x => (step x).isAbout i)
    intro x hx y hy otherwise mine
    refine ⟨.inl (quiet x hx), fun same => ?_⟩
    simp [Step.isAbout, same, (Step.isAbout_iff _ _).mp mine] at otherwise
  have others : ∀ x ∈ held.filter (fun x => !(step x).isAbout i), Free step x a := by
    intro x member
    obtain ⟨member, otherwise⟩ := List.mem_filter.mp member
    refine ⟨.inl (quiet x member), fun same => ?_⟩
    simp [Step.isAbout, same, about] at otherwise
  rw [List.append_assoc] at selected
  exact selected.trans ((Reordered.advance others rest).append _)

theorem putOff_reordered (step : α → Step) {held : List α} {ended : List Nat} (rest : List α)
    (waiting : ∀ x ∈ held, Waiting ended (step x)) :
    Reordered (Free step) (held ++ rest) (putOff step held ended rest) := by
  -- What waits stands in front of the rest of the run; each step passes it, joins it or frees some.
  induction rest generalizing held ended with
  | nil => simpa [putOff] using Reordered.refl held
  | cons a rest ih =>
    simp only [putOff]
    split
    next nowhere =>
      have apart : ∀ x ∈ held, Free step x a := by
        intro x member
        obtain ⟨quiet, i, about, _⟩ := waiting x member
        exact ⟨.inl quiet, by simp [about, nowhere]⟩
      exact (Reordered.advance apart rest).trans ((ih waiting).cons a)
    next i about =>
      split
      next quiet =>
        split
        next past =>
          have apart : ∀ x ∈ held, Free step x a := by
            intro x member
            obtain ⟨quiet, j, aboutX, going⟩ := waiting x member
            refine ⟨.inl quiet, fun same => ?_⟩
            rw [aboutX, about] at same
            exact going (Option.some.inj same ▸ past)
          exact (Reordered.advance apart rest).trans ((ih waiting).cons a)
        next going =>
          rw [← List.singleton_append, ← List.append_assoc]
          apply ih
          intro x member
          rcases List.mem_append.mp member with member | member
          · exact waiting x member
          · rw [List.mem_singleton.mp member]
            exact ⟨quiet, i, about, going⟩
      next =>
        have quiet : ∀ x ∈ held, (step x).isQuiet = true := fun x member => (waiting x member).1
        have stillWaiting : ∀ x ∈ held.filter (fun x => !(step x).isAbout i),
            Waiting (i :: ended) (step x) := by
          intro x member
          obtain ⟨member, otherwise⟩ := List.mem_filter.mp member
          obtain ⟨quiet, j, aboutX, going⟩ := waiting x member
          refine ⟨quiet, j, aboutX, ?_⟩
          have apart : j ≠ i := by simpa [Step.isAbout, aboutX] using otherwise
          simp [apart, going]
        exact (reordered_end step quiet about rest).trans (((ih stillWaiting).cons a).append _)

theorem postpone_reordered (step : α → Step) (run : List α) :
    Reordered (Free step) run (postpone step run) := by
  have waiting : ∀ x ∈ ([] : List α), Waiting [] (step x) := by simp
  exact putOff_reordered step run waiting

example (a b : UploadFrame) (q : ArtifactQuery) :
    postpone id [.openUpload 0, .openUpload 1, .send 0 a, .send 1 b, .close 1, .query q, .send 1 a,
      .send 0 b, .drop 0, .openUpload 2] =
    [.openUpload 1, .send 1 b, .close 1, .query q, .send 1 a,
      .openUpload 0, .send 0 a, .send 0 b, .drop 0, .openUpload 2] := rfl

/-- An upload is noticed by no step about anything else, whatever is sent to it, as long as it is
neither closed nor dropped. -/
theorem unfinished_unnoticed (w : State) (i : Nat) (h : Handle) (steps : List Step)
    (unfinished : ∀ step ∈ steps, step.isAbout i = true → step.isQuiet = true) :
    let others := steps.filter fun step => !step.isAbout i
    (w.setHandle i h).history others = (w.history steps).filter (fun entry => !entry.1.isAbout i) ∧
    ((w.setHandle i h).after others).store = (w.after steps).store := by
  induction steps generalizing w with
  | nil => exact ⟨rfl, rfl⟩
  | cons step steps ih =>
    have ih w := ih w fun step member => unfinished step (List.mem_cons_of_mem _ member)
    cases about : step.isAbout i with
    | true =>
      have quiet := unfinished step List.mem_cons_self about
      obtain ⟨answer, g, quietly⟩ := State.step_quiet quiet ((step.isAbout_iff i).mp about) w
      have ih := ih (w.setHandle i g)
      rw [State.setHandle_twice] at ih
      simpa [State.history, State.after, about, quietly w rfl] using ih
    | false =>
      have apart : step.upload? ≠ some i := by simpa [Step.isAbout] using about
      have ih := ih (w.step step).2
      simpa [State.history, State.after, about, State.step_setHandle apart] using ih

/-- Putting off what only its own client notices changes no answer and no state; and an upload that
does not end might as well not be there. -/
theorem uploads_serialise (w : State) (steps : List Step) :
    w.history (postpone id steps) = postpone Prod.fst (w.history steps) ∧
    w.after (postpone id steps) = w.after steps ∧
    ∀ i, (∀ step ∈ steps, step.isAbout i = true → step.isQuiet = true) →
      let others := steps.filter fun step => !step.isAbout i
      w.history others = (w.history steps).filter (fun entry => !entry.1.isAbout i) ∧
      (w.after others).store = (w.after steps).store := by
  have recorded := (Recorded.history w steps).reorder
    (postpone_reordered Prod.fst (w.history steps))
  have renamed : (postpone Prod.fst (w.history steps)).map Prod.fst = postpone id steps := by
    have moved := map_putOff Prod.fst id [] [] (w.history steps)
    rwa [State.history_steps] at moved
  obtain ⟨answers, final⟩ := recorded.settled
  rw [renamed] at answers final
  refine ⟨answers, final, fun i unfinished => ?_⟩
  have unnoticed := unfinished_unnoticed w i (w.handles i) steps unfinished
  rwa [State.setHandle_self] at unnoticed

end Depot.Traffic
