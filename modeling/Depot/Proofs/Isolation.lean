import Depot.Proofs.Namespace
import Depot.Proofs.StoreInvariant
import Depot.Proofs.TransferLog

/-! Names keep apart. What clients do under one name shows under no other: without all of it, the
calls under the other name are answered as before and leave the same versions. -/
namespace Depot.Traffic

open Versions (Sound ofName under)

def Answer.undated : Answer → Answer
  | .artifact answer => .artifact (answer.map Artifact.undated)
  | .artifacts answer => .artifacts (answer.map Artifact.undated)
  | answer => answer

def Step.name? : Step → Option QualifiedName
  | .pull id | .get id | .delete id => some id.name
  | .addTag r | .removeTag r => some r.name
  | .send _ frame => frame.name?
  | _ => none

def State.uploadName? (w : State) (i : Nat) : Option QualifiedName :=
  match w.handles i with
  | .held u => u.metadata.map (·.name)
  | _ => none

/-- The name whose versions a step may change: the one in the call, or that of the closed upload. -/
def State.subject? (w : State) : Step → Option QualifiedName
  | .close i => w.uploadName? i
  | .send _ _ => none
  | step => step.name?

variable {w v : State} {name : QualifiedName}

/-! ### Other names -/

theorem commit_spares {s : Store} {metadata : UploadMetadata} (apart : metadata.name ≠ name)
    (content : ByteArray) :
    ofName name (s.commit metadata content).2.versions = ofName name s.versions := by
  simp only [Store.commit, Versions.ofName_retagAll_other apart]
  unfold Store.addContent
  split
  · rfl
  · exact Versions.ofName_insert_other apart

theorem close_spares {u : Upload}
    (apart : ∀ metadata, u.metadata = some metadata → metadata.name ≠ name) (s : Store) :
    ofName name (u.close s).2.2.versions = ofName name s.versions := by
  cases finished : u.finished with
  | true => rw [Upload.close_finished finished]
  | false =>
    cases named : u.metadata with
    | none =>
      rw [Upload.close_unnamed finished named]
      rfl
    | some metadata =>
      rw [Upload.Ready.close ⟨finished, named⟩]
      exact commit_spares (apart metadata named) u.content

/-- A step leaves the versions of every name alone that it is not about, their times included. -/
theorem step_spares {step : Step} (other : w.subject? step ≠ some name) :
    ofName name (w.step step).2.store.versions = ofName name w.store.versions := by
  cases step with
  | openUpload i => simp only [State.step]; split <;> rfl
  | send i frame => simp only [State.step]; split <;> rfl
  | close i =>
    cases handle : w.handles i with
    | unused => simp only [State.step, handle]
    | dropped => simp only [State.step, handle]
    | held u =>
      simp only [State.step, handle]
      apply close_spares
      rintro metadata named same
      simp [State.subject?, State.uploadName?, handle, named, same] at other
  | drop i => rw [drop_versions]
  | pull id =>
    simp only [State.step, State.store_setStore]
    unfold Store.pull
    split
    · rfl
    next v found =>
      have apart : v.name ≠ name := fun same =>
        other (congrArg some ((Versions.resolve_name found).symm.trans same))
      exact Versions.ofName_update_other Version.keeping_pulled apart
  | get id => rfl
  | query q => rfl
  | delete id =>
    simp only [State.step, State.store_setStore]
    unfold Store.delete
    split
    · rfl
    next v found =>
      have apart : v.name ≠ name := fun same =>
        other (congrArg some ((Versions.resolve_name found).symm.trans same))
      exact Versions.ofName_erase_other apart
  | addTag r =>
    have apart : r.name ≠ name := fun same => other (congrArg some same)
    simp only [State.step, State.store_setStore]
    unfold Store.addTag
    split
    · rfl
    · split
      · rfl
      · exact Versions.ofName_retag_other apart r.tag
  | removeTag r =>
    have apart : r.name ≠ name := fun same => other (congrArg some same)
    simp only [State.step, State.store_setStore]
    unfold Store.removeTag
    split
    · rfl
    · split
      · exact Versions.ofName_update_other (Version.keeping_untagged r.tag) apart
      · rfl
  | clock now => rfl

/-! ### The name itself -/

/-- The step names nothing but the name, and the upload it is about, if any, is one of these. -/
def Step.isKept (name : QualifiedName) (mine : Nat → Bool) (step : Step) : Bool :=
  step.upload?.all mine && step.name?.all fun other => other = name

/-- A run with the foreign steps, and one without them. Exactly the uploads under the name are in
both, as far as they have a name. -/
structure Mirrors (name : QualifiedName) (mine : Nat → Bool) (w v : State) : Prop where
  handles (i : Nat) (own : mine i = true) : v.handles i = w.handles i
  named (i : Nat) (other : QualifiedName) (sent : w.uploadName? i = some other) :
    mine i = true ↔ other = name
  store : Store.Alike name v.store w.store
  soundW : Sound w.store.versions
  soundV : Sound v.store.versions

/-- Metadata that is accepted in a run goes to the uploads under the name exactly if it names it. -/
def Sorts (name : QualifiedName) (mine : Nat → Bool) (events : Trace) : Prop :=
  ∀ i metadata, (.send i (.metadata metadata), .done (.ok ())) ∈ events →
    (mine i = true ↔ metadata.name = name)

/-- An upload has its name from metadata that was accepted. -/
theorem uploadName_turn {event : Step × Answer} {i : Nat} {other : QualifiedName}
    (turn : Turn w event v) (named : v.uploadName? i = some other) :
    w.uploadName? i = some other ∨ ∃ metadata : UploadMetadata, metadata.name = other ∧
      event = (.send i (.metadata metadata), .done (.ok ())) := by
  have untouched {h : Handle} {s : Store} {j : Nat} (apart : i ≠ j)
      (named : ((w.setStore s).setHandle j h).uploadName? i = some other) :
      w.uploadName? i = some other := by
    simpa [State.uploadName?, apart] using named
  cases turn with
  | @opened j unused =>
    by_cases same : i = j
    · simp [State.uploadName?, same] at named
    · exact .inl (untouched (s := w.store) same named)
  | @accepted j u u' frame held sent =>
    by_cases same : i = j
    · subst same
      obtain ⟨_, _, name, _⟩ := Upload.send_accepted sent
      have named : (u.metadata.map (·.name)).or frame.name? = some other := by
        simpa [State.uploadName?, name] using named
      cases before : u.metadata with
      | some metadata => exact .inl (by simpa [State.uploadName?, held, before] using named)
      | none =>
        cases frame with
        | metadata metadata =>
          have sameName : metadata.name = other := by simpa [before, UploadFrame.name?] using named
          exact .inr ⟨metadata, sameName, rfl⟩
        | content bytes => simp [before, UploadFrame.name?] at named
    · exact .inl (untouched (s := w.store) same named)
  | @closed j u s answer outcome held _ _ _ =>
    by_cases same : i = j
    · subst same
      exact .inl (by simpa [State.uploadName?, held] using named)
    · exact .inl (untouched same named)
  | @cancelled j u held _ =>
    by_cases same : i = j
    · simp [State.uploadName?, same] at named
    · exact .inl (untouched same named)
  | @released j u held _ =>
    by_cases same : i = j
    · simp [State.uploadName?, same] at named
    · exact .inl (untouched (s := w.store) same named)
  | closedAgain held _ => exact .inl named
  | pulled _ => exact .inl named
  | unnoticed _ _ _ _ _ => exact .inl named

variable {mine : Nat → Bool} {step : Step}

theorem Mirrors.named_step (mirrors : Mirrors name mine w v)
    (sorts : Sorts name mine [(step, (w.step step).1)]) (i : Nat) (other : QualifiedName)
    (sent : (w.step step).2.uploadName? i = some other) : mine i = true ↔ other = name := by
  rcases uploadName_turn (step_turn w step) sent with before | ⟨metadata, rfl, same⟩
  · exact mirrors.named i other before
  · exact sorts i metadata (by simp [same])

/-- To uploads under the name only metadata of another name is foreign, and that is refused. -/
theorem foreign_handles (foreign : step.isKept name mine = false)
    (sorts : Sorts name mine [(step, (w.step step).1)]) {i : Nat} (own : mine i = true) :
    (w.step step).2.handles i = w.handles i := by
  by_cases about : step.upload? = some i
  · have otherName : step.name?.all (fun other => other = name) = false := by
      simpa [Step.isKept, about, own] using foreign
    cases step with
    | send j frame =>
      obtain rfl : j = i := Option.some.inj about
      cases handle : w.handles j with
      | unused => simp [State.step, handle]
      | dropped => simp [State.step, handle]
      | held u =>
        have refused : Fails (u.send frame).1 := by
          cases frame with
          | content bytes => simp [Step.name?, UploadFrame.name?] at otherName
          | metadata metadata =>
            rcases sent : u.send (.metadata metadata) with ⟨error | _, u'⟩
            · exact fails_error error
            · have accepted := sorts j metadata (by simp [State.step, handle, sent])
              simp [Step.name?, UploadFrame.name?, accepted.mp own] at otherName
        simp [State.step, handle, Upload.send_refused refused]
    | openUpload | close | drop => simp [Step.name?] at otherName
    | pull | get | query | delete | addTag | removeTag | clock => simp [Step.upload?] at about
  · exact State.step_handles about w

/-- A step that is not kept shows nowhere in what is kept. -/
theorem Mirrors.foreign (mirrors : Mirrors name mine w v) (foreign : step.isKept name mine = false)
    (sorts : Sorts name mine [(step, (w.step step).1)]) :
    Mirrors name mine (w.step step).2 v where
  handles i own := by rw [foreign_handles foreign sorts own, mirrors.handles i own]
  named := mirrors.named_step sorts
  store := by
    have other : w.subject? step ≠ some name := by
      intro subject
      cases step with
      | close i =>
        have own := (mirrors.named i name subject).mpr rfl
        simp [Step.isKept, Step.upload?, Step.name?, own] at foreign
      | openUpload | send | drop | query | clock => simp [State.subject?, Step.name?] at subject
      | pull | get | delete | addTag | removeTag =>
        simp_all [State.subject?, Step.name?, Step.isKept, Step.upload?]
    have spared := step_spares other
    have alike : under name v.store.versions = under name w.store.versions := mirrors.store
    rw [Store.Alike, alike, under, under, spared]
  soundW := (step_effect w step).sound mirrors.soundW
  soundV := mirrors.soundV

theorem close_alike {u : Upload} {s t : Store} (alike : Store.Alike name s t)
    (named : ∀ metadata, u.metadata = some metadata → metadata.name = name)
    (soundS : Sound s.versions) (soundT : Sound t.versions) :
    (u.close s).1.map Artifact.undated = (u.close t).1.map Artifact.undated ∧
      (u.close s).2.1 = (u.close t).2.1 ∧ Store.Alike name (u.close s).2.2 (u.close t).2.2 := by
  cases finished : u.finished with
  | true =>
    rw [Upload.close_finished finished, Upload.close_finished finished]
    exact ⟨rfl, rfl, alike⟩
  | false =>
    cases metadata : u.metadata with
    | none =>
      rw [Upload.close_unnamed finished metadata, Upload.close_unnamed finished metadata]
      exact ⟨rfl, rfl, alike⟩
    | some metadata' =>
      have ready : u.Ready metadata' := ⟨finished, metadata⟩
      obtain ⟨record, committed⟩ := Store.commit_alike alike (named metadata' metadata)
        soundS.ordered soundT.ordered u.content
      rw [ready.close, ready.close]
      exact ⟨congrArg Except.ok record, rfl, committed⟩

theorem close_absent {i : Nat} (absent : ∀ u, w.handles i ≠ .held u) :
    w.step (.close i) = (.noUpload, w) := by
  cases handle : w.handles i with
  | held u => exact absurd handle (absent u)
  | unused => simp only [State.step, handle]
  | dropped => simp only [State.step, handle]

/-- A step is answered alike in two runs, and leaves its upload the same and the name alike. -/
structure Agree (name : QualifiedName) (step : Step) (v w : State) : Prop where
  answer : (v.step step).1.undated = (w.step step).1.undated
  handle (i : Nat) (about : step.upload? = some i) :
    (v.step step).2.handles i = (w.step step).2.handles i
  store : Store.Alike name (v.step step).2.store (w.step step).2.store

section Kept

variable {i : Nat} (alike : Store.Alike name v.store w.store)
include alike

theorem quiet_agree (quiet : step.isQuiet = true) (about : step.upload? = some i)
    (same : v.handles i = w.handles i) : Agree name step v w := by
  obtain ⟨answer, h, quietly⟩ := State.step_quiet quiet about w
  constructor
  · rw [quietly w rfl, quietly v same]
  · intro j aboutJ
    obtain rfl : i = j := Option.some.inj (about.symm.trans aboutJ)
    rw [quietly w rfl, quietly v same]
    simp
  · rw [quietly w rfl, quietly v same]
    exact alike

theorem close_agree (same : v.handles i = w.handles i)
    (named : ∀ other, w.uploadName? i = some other → other = name)
    (soundV : Sound v.store.versions) (soundW : Sound w.store.versions) :
    Agree name (.close i) v w := by
  by_cases held : ∃ u, w.handles i = .held u
  · obtain ⟨u, handle⟩ := held
    have own : ∀ metadata, u.metadata = some metadata → metadata.name = name := by
      intro metadata sent
      exact named metadata.name (by simp [State.uploadName?, handle, sent])
    obtain ⟨answer, ended, closed⟩ := close_alike alike own soundV soundW
    constructor
    · simp only [State.step, same, handle]
      exact congrArg Answer.artifact answer
    · intro j about
      obtain rfl : i = j := Option.some.inj about
      simp [State.step, same, handle, ended]
    · simp only [State.step, same, handle]
      exact closed
  · have absent := not_exists.mp held
    constructor
    · rw [close_absent absent, close_absent (same ▸ absent)]
    · intro j about
      obtain rfl : i = j := Option.some.inj about
      rw [close_absent absent, close_absent (same ▸ absent), same]
    · rw [close_absent absent, close_absent (same ▸ absent)]
      exact alike

theorem drop_agree (same : v.handles i = w.handles i) : Agree name (.drop i) v w := by
  constructor
  · cases handle : w.handles i <;> simp only [State.step, same, handle]
  · intro j about
    obtain rfl : i = j := Option.some.inj about
    cases handle : w.handles i <;> simp [State.step, same, handle]
  · rw [Store.Alike, drop_versions, drop_versions, alike]

end Kept

/-- A call to the store is about no upload. -/
theorem call_agree (nowhere : step.upload? = none)
    (answer : (v.step step).1.undated = (w.step step).1.undated)
    (store : Store.Alike name (v.step step).2.store (w.step step).2.store) :
    Agree name step v w where
  answer := answer
  handle i about := by simp [nowhere] at about
  store := store

theorem Mirrors.agree (mirrors : Mirrors name mine w v) (kept : step.isKept name mine = true)
    (own : ∀ q, step = .query q → ∀ other, q.accepts other = true → other = name) :
    Agree name step v w := by
  have alike := mirrors.store
  simp only [Step.isKept, Bool.and_eq_true] at kept
  obtain ⟨kept, named⟩ := kept
  cases step with
  | openUpload i => exact quiet_agree alike rfl rfl (mirrors.handles i kept)
  | send i frame => exact quiet_agree alike rfl rfl (mirrors.handles i kept)
  | close i =>
    have named (other : QualifiedName) (sent : w.uploadName? i = some other) : other = name :=
      (mirrors.named i other sent).mp kept
    exact close_agree alike (mirrors.handles i kept) named mirrors.soundV mirrors.soundW
  | drop i => exact drop_agree alike (mirrors.handles i kept)
  | pull id =>
    obtain ⟨answer, pulled⟩ := Store.pull_alike alike (of_decide_eq_true named)
    exact call_agree rfl (congrArg Answer.content answer) pulled
  | get id =>
    have answer := Store.get_alike alike (of_decide_eq_true named)
    exact call_agree rfl (congrArg Answer.artifact answer) alike
  | query q =>
    have answer := Store.query_alike alike (own q rfl)
    exact call_agree rfl (congrArg Answer.artifacts answer) alike
  | delete id =>
    obtain ⟨answer, deleted⟩ := Store.delete_alike alike (of_decide_eq_true named)
    exact call_agree rfl (congrArg Answer.artifact answer) deleted
  | addTag r =>
    obtain ⟨answer, tagged⟩ := Store.addTag_alike alike (of_decide_eq_true named)
    exact call_agree rfl (congrArg Answer.done answer) tagged
  | removeTag r =>
    obtain ⟨answer, untagged⟩ := Store.removeTag_alike alike (of_decide_eq_true named)
    exact call_agree rfl (congrArg Answer.done answer) untagged
  | clock now => exact call_agree rfl rfl alike

theorem Mirrors.kept (mirrors : Mirrors name mine w v) (agree : Agree name step v w)
    (sorts : Sorts name mine [(step, (w.step step).1)]) :
    Mirrors name mine (w.step step).2 (v.step step).2 where
  handles i mine_i := by
    by_cases about : step.upload? = some i
    · exact agree.handle i about
    · rw [State.step_handles about, State.step_handles about, mirrors.handles i mine_i]
  named := mirrors.named_step sorts
  store := agree.store
  soundW := (step_effect w step).sound mirrors.soundW
  soundV := (step_effect v step).sound mirrors.soundV

def Trace.undated (events : Trace) : Trace := events.map fun event => (event.1, event.2.undated)

theorem Mirrors.run (mirrors : Mirrors name mine w v) (steps : List Step)
    (own : ∀ q, .query q ∈ steps → ∀ other, q.accepts other = true → other = name)
    (sorts : Sorts name mine (w.history steps)) :
    Trace.undated (v.history (steps.filter (Step.isKept name mine))) =
        Trace.undated ((w.history steps).filter fun event => event.1.isKept name mine) ∧
      Mirrors name mine (w.after steps) (v.after (steps.filter (Step.isKept name mine))) := by
  -- Both runs go step by step: a step that is kept is taken by both, a foreign one by `w` alone.
  induction steps generalizing w v with
  | nil => exact ⟨rfl, mirrors⟩
  | cons step steps ih =>
    have ownRest q (member : .query q ∈ steps) := own q (List.mem_cons_of_mem step member)
    have sortsHere : Sorts name mine [(step, (w.step step).1)] := by
      intro i metadata member
      exact sorts i metadata (List.mem_cons.mpr (.inl (List.mem_singleton.mp member)))
    have sortsRest : Sorts name mine ((w.step step).2.history steps) := by
      intro i metadata member
      exact sorts i metadata (List.mem_cons_of_mem _ member)
    cases kept : step.isKept name mine with
    | true =>
      have ownHere : ∀ q, step = .query q → ∀ other, q.accepts other = true → other = name := by
        rintro q rfl
        exact own q List.mem_cons_self
      have agree := mirrors.agree kept ownHere
      obtain ⟨histories, final⟩ := ih (mirrors.kept agree sortsHere) ownRest sortsRest
      simp only [List.filter_cons, kept, if_true, State.history, State.after, Trace.undated,
        List.map_cons, agree.answer]
      exact ⟨congrArg _ histories, final⟩
    | false =>
      obtain ⟨histories, final⟩ := ih (mirrors.foreign kept sortsHere) ownRest sortsRest
      simp only [List.filter_cons, kept, Bool.false_eq_true, if_false, State.history, State.after]
      exact ⟨histories, final⟩

/-! ### Which uploads are under the name -/

def Names (past : Trace) : Prop :=
  ∀ i metadata, (.send i (.metadata metadata), .done (.ok ())) ∈ past →
    acceptedName? (trail i past) = some metadata.name

theorem Names.turn {past : Trace} {event : Step × Answer} (names : Names past)
    (follows : ∀ i, Follows (trail i past) (w.handles i)) (turn : Turn w event v) :
    Names (past ++ [event]) := by
  intro i metadata member
  rw [trail_snoc, acceptedName?_append]
  rcases List.mem_append.mp member with before | now
  · rw [names i metadata before]
    rfl
  · obtain rfl := List.mem_singleton.mp now
    have about : (Step.send i (.metadata metadata)).isAbout i = true :=
      (Step.isAbout_iff _ i).mpr rfl
    cases turn with
    | @accepted _ u v _ held sent =>
      obtain ⟨_, _, _, _, first⟩ := Upload.send_accepted sent
      have unnamed := follows i
      rw [held] at unnamed
      rw [unnamed.1, first metadata rfl, if_pos about]
      rfl
    | unnoticed _ _ _ none_accepted _ => simp [accepted] at none_accepted

theorem Names.run {past : Trace} (names : Names past) (accounts : Accounts past w)
    (steps : List Step) : Names (past ++ w.history steps) := by
  induction steps generalizing past w with
  | nil => simpa [State.history] using names
  | cons step steps ih =>
    have turn := step_turn w step
    have next := ih (names.turn accounts.follows turn) (accounts.turn turn)
    simpa [State.history] using next

theorem history_names (steps : List Step) : Names (start.history steps) := by
  have nothing : Names [] := by simp [Names]
  exact nothing.run accounts_start steps

/-- The steps of a trace that name nothing but the name: calls under it, and what was done with
uploads whose accepted metadata, if any, names it, without metadata of other names. -/
def concerns (name : QualifiedName) (past : Trace) (step : Step) : Bool :=
  step.isKept name fun i => (acceptedName? (trail i past)).all fun other => other = name

theorem history_sorts (name : QualifiedName) (steps : List Step) :
    let past := start.history steps
    Sorts name (fun i => (acceptedName? (trail i past)).all fun other => other = name) past := by
  intro past i metadata member
  simp [past, history_names steps i metadata member]

theorem mirrors_start (name : QualifiedName) (mine : Nat → Bool) :
    Mirrors name mine start start where
  handles _ _ := rfl
  named i other sent := by simp [State.uploadName?, start] at sent
  store := rfl
  soundW := Versions.Sound.nil
  soundV := Versions.Sound.nil

/-- Names are isolated. Without the steps that name another name, a run gives the same answers to
the steps that are left and has the same versions under the name in the end, creation times aside;
and no step changes anything under a name that it is not about. -/
theorem names_are_isolated (name : QualifiedName) (steps : List Step)
    (own : ∀ q, .query q ∈ steps → ∀ other, q.accepts other = true → other = name) :
    let past := start.history steps
    let mineOnly := steps.filter (concerns name past)
    Trace.undated (start.history mineOnly) =
        Trace.undated (past.filter fun event => concerns name past event.1) ∧
      under name (start.after mineOnly).store.versions =
        under name (start.after steps).store.versions ∧
      ∀ (w : State) (step : Step) (other : QualifiedName), w.subject? step ≠ some other →
        ofName other (w.step step).2.store.versions = ofName other w.store.versions := by
  intro past mineOnly
  obtain ⟨answers, final⟩ := (mirrors_start name _).run steps own (history_sorts name steps)
  exact ⟨answers, final.store, fun w step other apart => step_spares apart⟩

/-! Two names that read the same, with the same content under the same tag. -/

def nestedAuthor : QualifiedName :=
  ⟨"hub", "carol/tools", "cli", by decide, by decide, by decide⟩

def nestedName : QualifiedName :=
  ⟨"hub", "carol", "tools/cli", by decide, by decide, by decide⟩

def namesakeRun : List Step :=
  [.openUpload 0, .openUpload 1, .send 0 (.metadata ⟨nestedAuthor, ["edge"]⟩),
    .send 1 (.metadata ⟨nestedName, ["edge"]⟩), .send 1 (.metadata ⟨nestedAuthor, ["edge"]⟩),
    .send 0 (.content "abc".toUTF8), .close 0,
    .send 1 (.content "abc".toUTF8), .close 1, .pull ⟨nestedName, .tag "edge", by decide⟩,
    .delete ⟨nestedAuthor, .tag "edge", by decide⟩,
    .query ⟨some "hub", some "carol", some "tools/cli"⟩]

def nestedNameRun : List Step :=
  [.openUpload 1, .send 1 (.metadata ⟨nestedName, ["edge"]⟩), .send 1 (.content "abc".toUTF8),
    .close 1, .pull ⟨nestedName, .tag "edge", by decide⟩,
    .query ⟨some "hub", some "carol", some "tools/cli"⟩]

theorem namesakes_are_isolated :
    nestedAuthor.text = nestedName.text ∧
    namesakeRun.filter (concerns nestedName (start.history namesakeRun)) = nestedNameRun ∧
    under nestedName (start.after nestedNameRun).store.versions =
      under nestedName (start.after namesakeRun).store.versions ∧
    (under nestedName (start.after namesakeRun).store.versions).map Version.pulls = [1] := by
  have own : ∀ q, .query q ∈ namesakeRun →
      ∀ other, q.accepts other = true → other = nestedName := by
    intro q member other accepted
    obtain rfl : q = ⟨some "hub", some "carol", some "tools/cli"⟩ := by
      simpa [namesakeRun] using member
    have same : ("hub" = other.source ∧ "carol" = other.author) ∧ "tools/cli" = other.name := by
      simpa [ArtifactQuery.accepts] using accepted
    cases other with
    | mk source author name _ _ _ =>
      obtain ⟨⟨rfl, rfl⟩, rfl⟩ := same
      rfl
  have selected : namesakeRun.filter (concerns nestedName (start.history namesakeRun)) =
      nestedNameRun := by decide +kernel
  obtain ⟨_, final, _⟩ := names_are_isolated nestedName namesakeRun own
  rw [selected] at final
  exact ⟨by decide, selected, final, by decide +kernel⟩

end Depot.Traffic
