import Depot.Proofs.TagMap
import Depot.Proofs.TransferLog
import Mathlib.Data.List.Induction

/-! The number of pulls. A version counts how often it was pulled since it was created; it is
created when content is committed that its name does not have, also after the same content was
deleted. Which version a pull by tag counts for, the map of tags says as it was at the pull. -/
namespace Depot

def Transfer.isPull : Transfer → Bool
  | .upload .. => false
  | .pull .. => true

namespace Traffic

open Versions (Sound)

def isServed : Step × Answer → Bool
  | (.pull _, .content (.ok _)) => true
  | _ => false

def State.Has (w : State) (name : QualifiedName) (hash : String) : Prop :=
  ∃ v ∈ w.store.versions, v.name = name ∧ v.hash = hash

namespace TagMap

/-- The hash that an identifier means: its own, or the one that its tag stands for. -/
def meant (m : TagMap) (id : Identifier) : Option String :=
  match id.reference with
  | .hash hash => some hash
  | .tag tag => m id.name tag

def counts (m : TagMap) (name : QualifiedName) (hash : String) (event : Step × Answer) : Bool :=
  match event.1 with
  | .pull id => isServed event && (id.name = name ∧ m.meant id = some hash)
  | _ => false

def pulls (m : TagMap) (past : Trace) (name : QualifiedName) (hash : String) : Trace → Nat
  | [] => 0
  | event :: rest =>
    (m.counts name hash event).toNat + (m.follow past event).pulls (past ++ [event]) name hash rest

variable {m : TagMap}

theorem along_append (m : TagMap) (past front back : Trace) :
    m.along past (front ++ back) = (m.along past front).along (past ++ front) back := by
  induction front generalizing m past with
  | nil => simp [along]
  | cons event front ih => simp [along, ih]

theorem after_append (front back : List Step) : after (front ++ back) =
    (after front).along (start.history front) ((start.after front).history back) := by
  rw [after, State.history_append, along_append, List.nil_append, ← after]

theorem pulls_snoc (m : TagMap) (past : Trace) (name : QualifiedName) (hash : String) (t : Trace)
    (event : Step × Answer) : m.pulls past name hash (t ++ [event]) =
      m.pulls past name hash t + ((m.along past t).counts name hash event).toNat := by
  induction t generalizing m past with
  | nil => simp [pulls, along]
  | cons first t ih => simp [pulls, along, ih, Nat.add_assoc]

theorem Agrees.meant {versions : List Version} {id : Identifier} {v : Version}
    (agrees : m.Agrees versions) (found : Versions.resolve versions id = some v) :
    m.meant id = some v.hash := by
  have selected := List.find?_some found
  cases byWhat : id.reference with
  | hash hash =>
    rw [TagMap.meant, byWhat, Versions.resolve_hash_found byWhat found]
  | tag tag =>
    obtain ⟨sameName, carried⟩ : v.name = id.name ∧ tag ∈ v.tags := by
      simpa [Version.isSelected, byWhat] using selected
    rw [TagMap.meant, byWhat]
    exact (agrees id.name tag v.hash).mpr
      ⟨v, List.mem_of_find?_eq_some found, sameName, rfl, carried⟩

end TagMap

/-- What one step makes of the number of pulls: a version that was there has been pulled once more
if the step pulled it, and a version that was not there has not been pulled. -/
inductive Counted (m : TagMap) (w : State) (step : Step) (v : Version) : Prop where
  | kept {u : Version} (member : u ∈ w.store.versions) (name : u.name = v.name)
      (hash : u.hash = v.hash)
      (pulls : v.pulls = u.pulls + (m.counts v.name v.hash (step, (w.step step).1)).toNat) :
      Counted m w step v
  | created {i : Nat} (closes : step = .close i) (absent : ¬ w.Has v.name v.hash)
      (pulls : v.pulls = 0) : Counted m w step v

variable {m : TagMap} {w : State} {v : Version} {step : Step}

theorem Counted.same (member : v ∈ w.store.versions)
    (uncounted : m.counts v.name v.hash (step, (w.step step).1) = false) : Counted m w step v :=
  .kept member rfl rfl (by simp [uncounted])

theorem Counted.of_map {change : Version → Version} (keeping : Version.Keeping change)
    (samePulls : ∀ u, (change u).pulls = u.pulls) (member : v ∈ w.store.versions.map change)
    (uncounted : m.counts v.name v.hash (step, (w.step step).1) = false) : Counted m w step v := by
  obtain ⟨u, old, rfl⟩ := List.mem_map.mp member
  refine .kept old (keeping.name u).symm (keeping.hash u).symm ?_
  simp [uncounted, samePulls]

theorem commit_counted {i : Nat} {metadata : UploadMetadata} {content : ByteArray}
    (member : v ∈ (w.store.commit metadata content).2.versions) : Counted m w (.close i) v := by
  simp only [Store.commit, Versions.retagAll_eq_map] at member
  obtain ⟨u, stored, rfl⟩ := List.mem_map.mp member
  unfold Store.addContent at stored
  split at stored
  · exact .kept stored (by simp) (by simp) (by simp [TagMap.counts])
  next absent =>
    rcases (Versions.mem_insert _ _ _).mp stored with rfl | old
    · refine .created rfl ?_ (by simp [Store.freshVersion])
      rintro ⟨other, member, sameName, sameHash⟩
      simp only [Version.retaggedAll_name, Version.retaggedAll_hash, Store.freshVersion]
        at sameName sameHash
      exact Versions.lookup_eq_none_iff.mp absent other member ⟨sameName, sameHash⟩
    · exact .kept old (by simp) (by simp) (by simp [TagMap.counts])

theorem pull_counted (agrees : m.Agrees w.store.versions) {id : Identifier}
    (member : v ∈ (w.store.pull id).2.versions) : Counted m w (.pull id) v := by
  cases found : Versions.resolve w.store.versions id with
  | none =>
    have misses := Store.misses_of_resolve found
    rw [misses.pull] at member
    exact .same member (by simp [TagMap.counts, State.step, misses.pull, isServed])
  | some pulled =>
    have acts := Store.acts_of_resolve found
    have sameName := Versions.resolve_name found
    simp only [acts.pull, Store.log, Versions.update] at member
    obtain ⟨u, old, rfl⟩ := List.mem_map.mp member
    have keeping := Version.keeping_pulled.onKey pulled.name pulled.hash
    refine .kept old (keeping.name u).symm (keeping.hash u).symm ?_
    have counts : m.counts u.name u.hash (.pull id, (w.step (.pull id)).1) =
        u.hasKey pulled.name pulled.hash := by
      simp [TagMap.counts, State.step, acts.pull, isServed, agrees.meant found, sameName,
        Version.hasKey, eq_comm]
    rw [keeping.name, keeping.hash, counts]
    split
    next key => simp [key]
    next other => simp [other]

theorem step_counted (agrees : m.Agrees w.store.versions)
    (member : v ∈ (w.step step).2.store.versions) : Counted m w step v := by
  cases step with
  | openUpload i =>
    simp only [State.step] at member
    split at member <;> exact .same member rfl
  | send i frame =>
    simp only [State.step] at member
    split at member <;> exact .same member rfl
  | close i =>
    simp only [State.step] at member
    split at member
    · simp only [State.store_setHandle, State.store_setStore, Upload.close] at member
      split at member
      · exact .same member rfl
      · split at member
        · exact .same member rfl
        · exact commit_counted member
    · exact .same member rfl
  | drop i =>
    simp only [State.step] at member
    split at member
    · simp only [State.store_setHandle, State.store_setStore, Upload.cancel] at member
      split at member <;> exact .same member rfl
    · exact .same member rfl
  | pull id => exact pull_counted agrees member
  | get id => exact .same member rfl
  | query q => exact .same member rfl
  | delete id =>
    simp only [State.step, State.store_setStore, Store.delete] at member
    split at member
    · exact .same member rfl
    · exact .same (Versions.mem_erase.mp member).1 rfl
  | addTag r =>
    simp only [State.step, State.store_setStore, Store.addTag] at member
    split at member
    · exact .same member rfl
    · split at member
      · exact .same member rfl
      · exact .of_map (Version.keeping_retagged r.name r.versionHash r.tag)
          (fun u => u.retagged_pulls r.name r.versionHash r.tag) member rfl
  | removeTag r =>
    simp only [State.step, State.store_setStore, Store.removeTag] at member
    split at member
    · exact .same member rfl
    · split at member
      · refine .of_map ((Version.keeping_untagged r.tag).onKey r.name r.versionHash)
          (fun u => ?_) member rfl
        split <;> rfl
      · exact .same member rfl
  | clock now => exact .same member rfl

/-- Where a version of a run comes from: the close that created it, from which on it was there. -/
structure CreatedBy (steps front : List Step) (i : Nat) (back : List Step) (v : Version) :
    Prop where
  run : steps = front ++ .close i :: back
  absent : ¬ (start.after front).Has v.name v.hash
  present (mid : List Step) (before : mid <+: back) :
    (start.after (front ++ .close i :: mid)).Has v.name v.hash

def pullsSince (front : List Step) (i : Nat) (back : List Step) (v : Version) : Nat :=
  let creation := front ++ [.close i]
  (TagMap.after creation).pulls (start.history creation) v.name v.hash
    ((start.after creation).history back)

theorem CreatedBy.extend {steps front back : List Step} {i : Nat} {u : Version}
    (created : CreatedBy steps front i back u)
    (member : v ∈ (start.after (steps ++ [step])).store.versions)
    (sameName : u.name = v.name) (sameHash : u.hash = v.hash) :
    CreatedBy (steps ++ [step]) front i (back ++ [step]) v where
  run := by rw [created.run]; simp
  absent := by rw [← sameName, ← sameHash]; exact created.absent
  present mid before := by
    rcases List.prefix_concat_iff.mp before with rfl | before
    · refine ⟨v, ?_, rfl, rfl⟩
      rw [created.run] at member
      simpa using member
    · rw [← sameName, ← sameHash]
      exact created.present mid before

theorem pulls_since_creation {steps : List Step} (member : v ∈ (start.after steps).store.versions) :
    ∃ front i back, CreatedBy steps front i back v ∧ v.pulls = pullsSince front i back v := by
  induction steps using List.reverseRecOn generalizing v with
  | nil => simp [State.after, start] at member
  | append_singleton steps step ih =>
    have last : start.after (steps ++ [step]) = ((start.after steps).step step).2 := by
      rw [State.after_append]; rfl
    -- The last step created the version, or it goes on with the count of the steps before.
    cases step_counted (TagMap.after_agrees steps) (last ▸ member) with
    | @created i closes absent unpulled =>
      subst closes
      refine ⟨steps, i, [], ⟨rfl, absent, fun mid before => ?_⟩, unpulled⟩
      rw [List.prefix_nil.mp before]
      exact ⟨v, member, rfl, rfl⟩
    | @kept u old sameName sameHash grown =>
      obtain ⟨front, i, back, created, counted⟩ := ih old
      refine ⟨front, i, back ++ [step], created.extend member sameName sameHash, ?_⟩
      have run : steps = (front ++ [.close i]) ++ back := by simp [created.run]
      rw [grown, counted, run, TagMap.after_append,
        State.after_append start (front ++ [Step.close i])]
      simp only [pullsSince, State.history_append _ back, State.history, TagMap.pulls_snoc,
        sameName, sameHash]

theorem transfer?_isPull (past : Trace) (event : Step × Answer) :
    (transfer? past event).any Transfer.isPull = isServed event := by
  unfold transfer? isServed
  grind [Transfer.isPull]

/-- The entries of the account that are pulls are the pulls that were answered with content. -/
theorem account_pulls (past t : Trace) :
    ((account past t).map Prod.snd).countP Transfer.isPull = t.countP isServed := by
  induction t generalizing past with
  | nil => rfl
  | cons event t ih =>
    have same := transfer?_isPull past event
    rw [account, List.map_append, List.countP_append, ih, List.countP_cons, ← same]
    cases transfer? past event <;> simp [List.countP_cons, Nat.add_comm]

/-- At every point of every run a version has as many pulls as were answered with its content, by
its hash or by a tag that it had then, since it was created. One more such pull is all that ever
changes the number while the version is there. The log has one entry for each pull that was answered
with content, whatever became of the version. -/
theorem pulls_are_counted (steps : List Step) :
    let w := start.after steps
    (∀ v ∈ w.store.versions, ∃ front i back,
      CreatedBy steps front i back v ∧ v.pulls = pullsSince front i back v) ∧
    (∀ step, ∀ v ∈ w.store.versions, ∀ u ∈ (w.step step).2.store.versions,
      u.name = v.name → u.hash = v.hash →
      u.pulls = v.pulls +
        ((TagMap.after steps).counts v.name v.hash (step, (w.step step).1)).toNat) ∧
    w.store.transfers.countP Transfer.isPull = (start.history steps).countP isServed := by
  intro w
  refine ⟨fun v member => pulls_since_creation member, ?_, ?_⟩
  · intro step v member u later sameName sameHash
    cases step_counted (TagMap.after_agrees steps) later with
    | created _ absent _ => exact absurd ⟨v, member, sameName.symm, sameHash.symm⟩ absent
    | @kept old stored name hash grown =>
      have ordered := (Reachable.sound ⟨steps, rfl⟩ : Sound w.store.versions).ordered
      have same : old = v :=
        ordered.unique stored member (name.trans sameName) (hash.trans sameHash)
      rw [grown, same, sameName, sameHash]
  · rw [(history_accounts steps).logged, account_pulls]

/-- The first tool is pulled, deleted, uploaded again and pulled, loses its tag and is pulled by its
hash, and then is uploaded once more. -/
def pulledRun : List Step := [
  .openUpload 0,
  .send 0 (.metadata ⟨toolName, ["stable"]⟩),
  .send 0 (.content "abc".toUTF8),
  .close 0,
  .pull ⟨toolName, .tag "stable", by decide⟩,
  .delete ⟨toolName, .tag "stable", by decide⟩,
  .openUpload 1,
  .send 1 (.metadata ⟨toolName, ["stable"]⟩),
  .send 1 (.content "abc".toUTF8),
  .close 1,
  .pull ⟨toolName, .tag "stable", by decide⟩,
  .openUpload 2,
  .send 2 (.metadata ⟨toolName, ["stable"]⟩),
  .send 2 (.content "abcd".toUTF8),
  .close 2,
  .pull ⟨toolName, .tag "stable", by decide⟩,
  .pull ⟨toolName, .hash firstTool.hash, by decide⟩,
  .openUpload 3,
  .send 3 (.metadata ⟨toolName, ["old"]⟩),
  .send 3 (.content "abc".toUTF8),
  .close 3,
  .pull ⟨toolName, .tag "beta", by decide⟩]

theorem first_tool_pulled_twice : ∃ v ∈ (start.after pulledRun).store.versions,
    v.name = toolName ∧ v.hash = firstTool.hash ∧ v.tags = ["old"] ∧
    ∃ front i back, CreatedBy pulledRun front i back v ∧ pullsSince front i back v = 2 := by
  let tool : Version := { firstTool with tags := ["old"], pulls := 2 }
  have stored : tool ∈ (start.after pulledRun).store.versions := by decide +kernel
  obtain ⟨front, i, back, created, counted⟩ := (pulls_are_counted pulledRun).1 tool stored
  exact ⟨tool, stored, rfl, rfl, rfl, front, i, back, created, counted.symm⟩

end Traffic

end Depot
