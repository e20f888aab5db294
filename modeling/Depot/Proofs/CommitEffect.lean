import Depot.Proofs.Fidelity
import Depot.Proofs.Isolation

/-! What a commit leaves behind. The version of the content is there, as it was or new, and has got
the tags of the upload behind its own; the others of the name have lost these tags and nothing else;
all other names are as before. Closing an upload answers the record that is found by the hash right
afterwards. -/
namespace Depot

namespace Version

/-- The tags of an upload that a version has not got yet, each where it was sent first. -/
def newTags (had sent : List String) : List String := (sent.filter (· ∉ had)).eraseDups

section NewTags

variable {had sent : List String} {tag : String}

@[simp] theorem newTags_nil (had : List String) : newTags had [] = [] := rfl

theorem newTags_of_none (sent : List String) : newTags [] sent = sent.eraseDups := by
  rw [newTags, List.filter_eq_self.mpr (by simp)]

theorem newTags_cons_had (carried : tag ∈ had) :
    newTags had (tag :: sent) = newTags had sent := by
  simp [newTags, carried]

theorem newTags_cons_new (missing : tag ∉ had) :
    newTags had (tag :: sent) = tag :: newTags (had ++ [tag]) sent := by
  have taken : (tag :: sent).filter (· ∉ had) = tag :: sent.filter (· ∉ had) :=
    List.filter_cons_of_pos (by simpa using missing)
  -- What the first occurrence removes behind it is what the version has got with this tag.
  have swept : (sent.filter (· ∉ had)).filter (fun other => !other == tag) =
      sent.filter (· ∉ had ++ [tag]) := by
    rw [List.filter_filter]
    refine List.filter_congr fun other _ => ?_
    rw [Bool.eq_iff_iff]
    simp [and_comm]
  rw [newTags, taken, List.eraseDups_cons, swept, newTags]

end NewTags

variable {v : Version} {name : QualifiedName} {hash : String}

theorem retaggedAll_cons (v : Version) (name : QualifiedName) (hash tag : String)
    (tags : List String) : v.retaggedAll name hash (tag :: tags) =
      (v.retagged name hash tag).retaggedAll name hash tags := rfl

theorem retaggedAll_target (named : v.name = name) (keyed : v.hash = hash) (tags : List String) :
    v.retaggedAll name hash tags = { v with tags := v.tags ++ newTags v.tags tags } := by
  -- A tag meets what those in front of it have put on, so the version changes along the list.
  induction tags generalizing v with
  | nil => simp [retaggedAll]
  | cons tag tags ih =>
    rw [retaggedAll_cons, ih (by simpa using named) (by simpa using keyed)]
    by_cases carried : tag ∈ v.tags
    · have first : v.retagged name hash tag = v := by simp [retagged, named, keyed, carried]
      rw [first, newTags_cons_had carried]
    · have first : v.retagged name hash tag = { v with tags := v.tags ++ [tag] } := by
        simp [retagged, named, keyed, carried]
      simp [first, newTags_cons_new carried]

theorem retaggedAll_sibling (named : v.name = name) (apart : v.hash ≠ hash) (tags : List String) :
    v.retaggedAll name hash tags = { v with tags := v.tags.filter (· ∉ tags) } := by
  induction tags generalizing v with
  | nil => rw [List.filter_eq_self.mpr (by simp)]; rfl
  | cons tag tags ih =>
    have first : v.retagged name hash tag = { v with tags := v.tags.filter (· ≠ tag) } := by
      simp [retagged, named, apart]
    have swept : (v.tags.filter (· ≠ tag)).filter (· ∉ tags) = v.tags.filter (· ∉ tag :: tags) := by
      rw [List.filter_filter]
      refine List.filter_congr fun other _ => ?_
      rw [Bool.eq_iff_iff]
      simp [and_comm]
    rw [retaggedAll_cons, ih (by simpa using named) (by simpa using apart), first, swept]

end Version

namespace Versions

open Version (Keeping)

variable {versions : List Version} {name : QualifiedName} {hash : String} {v : Version}

theorem lookup_map {change : Version → Version} (keeping : Keeping change) :
    lookup (versions.map change) name hash = (lookup versions name hash).map change := by
  have sameKey : (fun v => Version.hasKey v name hash) ∘ change = fun v => v.hasKey name hash := by
    funext v
    simp [Version.hasKey, keeping.name, keeping.hash]
  rw [lookup, List.find?_map, sameKey, lookup]

theorem lookup_insert_same (fresh : lookup versions v.name v.hash = none) :
    lookup (insert v versions) v.name v.hash = some v := by
  have own : v.hasKey v.name v.hash = true := by simp
  induction versions with
  | nil => exact List.find?_cons_of_pos own
  | cons w rest ih =>
    simp only [insert]
    split
    · exact List.find?_cons_of_pos own
    · have other : w.hasKey v.name v.hash = false :=
        Bool.eq_false_iff.mpr (List.find?_eq_none.mp fresh w List.mem_cons_self)
      simp only [lookup, List.find?_cons, other] at fresh ih ⊢
      exact ih fresh

theorem lookup_insert_other (apart : ¬ (v.name = name ∧ v.hash = hash)) :
    lookup (insert v versions) name hash = lookup versions name hash := by
  have other : ¬ v.hasKey name hash = true := by simpa using apart
  induction versions with
  | nil => exact List.find?_cons_of_neg other
  | cons w rest ih =>
    simp only [insert]
    split
    · exact List.find?_cons_of_neg other
    · simp only [lookup, List.find?_cons] at ih ⊢
      rw [ih]

end Versions

namespace Timestamp

instance : LE Timestamp where
  le a b := a.seconds < b.seconds ∨ a.seconds = b.seconds ∧ a.nanos ≤ b.nanos

theorem le_def {a b : Timestamp} :
    a ≤ b ↔ a.seconds < b.seconds ∨ a.seconds = b.seconds ∧ a.nanos ≤ b.nanos := .rfl

theorem le_trans {a b c : Timestamp} (ab : a ≤ b) (bc : b ≤ c) : a ≤ c := by
  rw [le_def] at ab bc ⊢
  omega

end Timestamp

/-- No version was created later than the clock reads. -/
def Store.Dated (s : Store) : Prop := ∀ v ∈ s.versions, v.created ≤ s.clock

namespace Traffic

/-- A version has its time from the clock or from a version that was there. -/
theorem Effect.created {s t : Store} {step : Step} (effect : Effect s step t) {v : Version}
    (stored : v ∈ t.versions) : v.created = s.clock ∨ ∃ w ∈ s.versions, w.created = v.created := by
  have mapped {versions : List Version} {change : Version → Version}
      (same : ∀ v, (change v).created = v.created) (member : v ∈ versions.map change) :
      ∃ w ∈ versions, w.created = v.created := by
    obtain ⟨w, old, rfl⟩ := List.mem_map.mp member
    exact ⟨w, old, (same w).symm⟩
  cases effect with
  | unchanged => exact .inr ⟨v, stored, rfl⟩
  | logged => exact .inr ⟨v, stored, rfl⟩
  | committed metadata content =>
    simp only [Store.log, Store.commit, Versions.retagAll_eq_map] at stored
    obtain ⟨w, present, same⟩ := mapped (fun w => w.retaggedAll_created _ _ _) stored
    unfold Store.addContent at present
    split at present
    · exact .inr ⟨w, present, same⟩
    · rcases (Versions.mem_insert _ _ _).mp present with rfl | old
      · exact .inl same.symm
      · exact .inr ⟨w, old, same⟩
  | pulled id =>
    unfold Store.pull at stored
    split at stored
    · exact .inr ⟨v, stored, rfl⟩
    · exact .inr (mapped (fun w => by split <;> rfl) stored)
  | deleted id _ =>
    unfold Store.delete at stored
    split at stored
    · exact .inr ⟨v, stored, rfl⟩
    · exact .inr ⟨v, (Versions.mem_erase.mp stored).1, rfl⟩
  | tagged r =>
    unfold Store.addTag at stored
    split at stored
    · exact .inr ⟨v, stored, rfl⟩
    · split at stored
      · exact .inr ⟨v, stored, rfl⟩
      · exact .inr (mapped (fun w => w.retagged_created _ _ _) stored)
  | untagged r =>
    unfold Store.removeTag at stored
    split at stored
    · exact .inr ⟨v, stored, rfl⟩
    · split at stored
      · exact .inr (mapped (fun w => by split <;> rfl) stored)
      · exact .inr ⟨v, stored, rfl⟩
  | clocked => exact .inr ⟨v, stored, rfl⟩

/-- The clock goes back at no step of a run. -/
def State.Onward (w : State) : List Step → Prop
  | [] => True
  | step :: rest => w.store.clock ≤ (w.step step).2.store.clock ∧ (w.step step).2.Onward rest

theorem after_dated {w : State} (dated : w.store.Dated) {steps : List Step}
    (onward : w.Onward steps) : (w.after steps).store.Dated := by
  induction steps generalizing w with
  | nil => exact dated
  | cons step steps ih =>
    refine ih ?_ onward.2
    intro v stored
    rcases (step_effect w step).created stored with now | ⟨older, old, same⟩
    · exact now ▸ onward.1
    · exact same ▸ Timestamp.le_trans (dated older old) onward.1

end Traffic

namespace Store

variable {s : Store} {metadata : UploadMetadata} {content : ByteArray} {name : QualifiedName}
  {hash : String}

/-- The version that a commit puts its tags on: the one that was there, or a fresh one. -/
def base (s : Store) (name : QualifiedName) (hash : String) (content : ByteArray) : Version :=
  (Versions.lookup s.versions name hash).getD (s.freshVersion name hash content)

theorem base_key (s : Store) (name : QualifiedName) (hash : String) (content : ByteArray) :
    (s.base name hash content).name = name ∧ (s.base name hash content).hash = hash := by
  unfold base
  cases found : Versions.lookup s.versions name hash with
  | none => exact ⟨rfl, rfl⟩
  | some v => exact (Versions.lookup_found found).2

theorem lookup_addContent_same (s : Store) (name : QualifiedName) (hash : String)
    (content : ByteArray) : Versions.lookup (s.addContent name hash content).versions name hash =
      some (s.base name hash content) := by
  unfold addContent base
  cases found : Versions.lookup s.versions name hash with
  | none => exact Versions.lookup_insert_same (v := s.freshVersion name hash content) found
  | some v => exact found

theorem lookup_addContent_other {other : QualifiedName} {key : String}
    (apart : ¬ (name = other ∧ hash = key)) (content : ByteArray) :
    Versions.lookup (s.addContent name hash content).versions other key =
      Versions.lookup s.versions other key := by
  unfold addContent
  split
  · rfl
  · exact Versions.lookup_insert_other apart

theorem lookup_commit (name : QualifiedName) (hash : String) :
    Versions.lookup (s.commit metadata content).2.versions name hash =
      (Versions.lookup (s.addContent metadata.name (Sha256.hex content) content).versions name hash).map
        fun v => v.retaggedAll metadata.name (Sha256.hex content) metadata.tags := by
  simp only [commit, Versions.retagAll_eq_map]
  exact Versions.lookup_map (Version.keeping_retaggedAll _ _ _)

theorem lookup_commit_target (s : Store) (metadata : UploadMetadata) (content : ByteArray) :
    let v := s.base metadata.name (Sha256.hex content) content
    Versions.lookup (s.commit metadata content).2.versions metadata.name (Sha256.hex content) =
      some { v with tags := v.tags ++ Version.newTags v.tags metadata.tags } := by
  intro v
  obtain ⟨named, keyed⟩ := s.base_key metadata.name (Sha256.hex content) content
  rw [lookup_commit, lookup_addContent_same, Option.map_some,
    Version.retaggedAll_target named keyed]

theorem lookup_commit_sibling (ordered : Versions.Ordered s.versions) {v : Version}
    (stored : v ∈ s.versions) (named : v.name = metadata.name) (apart : v.hash ≠ Sha256.hex content) :
    Versions.lookup (s.commit metadata content).2.versions metadata.name v.hash =
      some { v with tags := v.tags.filter (· ∉ metadata.tags) } := by
  have found : Versions.lookup s.versions metadata.name v.hash = some v :=
    (Versions.lookup_eq_some_iff ordered).mpr ⟨stored, named, rfl⟩
  rw [lookup_commit, lookup_addContent_other fun same => apart same.2.symm, found, Option.map_some,
    Version.retaggedAll_sibling named apart]

/-- The one version more, if it is one more, is the one that was committed. -/
theorem lookup_commit_isSome (s : Store) (metadata : UploadMetadata) (content : ByteArray)
    (key : String) :
    (Versions.lookup (s.commit metadata content).2.versions metadata.name key).isSome ↔
      key = Sha256.hex content ∨ (Versions.lookup s.versions metadata.name key).isSome := by
  rw [lookup_commit, Option.isSome_map]
  by_cases same : key = Sha256.hex content
  · simp [same, lookup_addContent_same]
  · rw [lookup_addContent_other fun equal => same equal.2.symm]
    simp [same]

theorem get_committed (s : Store) (metadata : UploadMetadata) (content : ByteArray) {id : Identifier}
    (named : id.name = metadata.name) (byHash : id.reference = .hash (Sha256.hex content)) :
    (s.commit metadata content).2.get id = .ok (s.commit metadata content).1 := by
  obtain ⟨sameName, sameHash⟩ := s.base_key metadata.name (Sha256.hex content) content
  have answer : (s.commit metadata content).1 =
      ((s.base metadata.name (Sha256.hex content) content).retaggedAll metadata.name
        (Sha256.hex content) metadata.tags).record := rfl
  rw [get, Versions.resolve_hash byHash, named, lookup_commit_target, answer,
    Version.retaggedAll_target sameName sameHash]

end Store

namespace Traffic

open Versions (lookup ofName)

/-- Closing an upload stores its content under its hash, once: a version that was there keeps its
content, its pulls and its time, and a new one has the time that the clock reads, which no version
is younger than unless the clock went back. Behind the tags that it had come those of the upload
that it had not, each where it was sent first. Every other version of the name loses exactly the
tags of the upload, and no other name is touched. No version goes, and the answer is the record that
is found by the hash right afterwards. -/
theorem closed_upload_takes_effect {s : Store} (reachable : Reachable s) {u : Upload}
    {metadata : UploadMetadata} (ready : u.Ready metadata) :
    let name := metadata.name
    let hash := Sha256.hex u.content
    let after := (u.close s).2.2
    (∀ v, lookup s.versions name hash = some v →
      lookup after.versions name hash =
        some { v with tags := v.tags ++ Version.newTags v.tags metadata.tags }) ∧
    (lookup s.versions name hash = none →
      lookup after.versions name hash =
        some ⟨name, hash, u.content, metadata.tags.eraseDups, 0, s.clock⟩) ∧
    (∀ (w : State) (steps : List Step), w.store.versions = [] → (w.after steps).store = s →
      w.Onward steps → ∀ v ∈ s.versions, v.created ≤ s.clock) ∧
    (∀ v ∈ s.versions, v.name = name → v.hash ≠ hash →
      lookup after.versions name v.hash =
        some { v with tags := v.tags.filter (· ∉ metadata.tags) }) ∧
    (∀ other, other ≠ name → ofName other after.versions = ofName other s.versions) ∧
    (∀ key, (lookup after.versions name key).isSome ↔
      key = hash ∨ (lookup s.versions name key).isSome) ∧
    ∃ id artifact, Identifier.ofName name (.hash hash) = .ok id ∧
      (u.close s).1 = .ok artifact ∧ after.get id = .ok artifact := by
  intro name hash after
  have sound := reachable.sound
  have versions : after.versions = (s.commit metadata u.content).2.versions := by
    simp only [after, ready.close, Store.log]
  have target := s.lookup_commit_target metadata u.content
  rw [versions]
  refine ⟨fun v found => ?_, fun absent => ?_, ?_, fun v stored named apart => ?_,
    fun other apart => commit_spares apart.symm u.content,
    s.lookup_commit_isSome metadata u.content, ?_⟩
  · have present : s.base name hash u.content = v := by simp [Store.base, found]
    rwa [present] at target
  · have fresh : s.base name hash u.content = s.freshVersion name hash u.content := by
      simp [Store.base, absent]
    rw [fresh] at target
    rw [target]
    simp [Store.freshVersion, Version.newTags_of_none]
  · rintro w steps empty rfl onward
    have dated : w.store.Dated := by simp [Store.Dated, empty]
    exact after_dated dated onward
  · exact Store.lookup_commit_sibling sound.ordered stored named apart
  · let id : Identifier := ⟨name, .hash hash, Sha256.hex_ne_empty u.content⟩
    have looked : after.get id = (s.commit metadata u.content).2.get id := by
      simp only [Store.get, versions]
    refine ⟨id, (s.commit metadata u.content).1,
      Identifier.ofName_ok name (.hash hash) id.reference_ne, ?_,
      looked.trans (s.get_committed metadata u.content rfl rfl)⟩
    rw [ready.close]

/-! The content of the second tool is uploaded again, in other frames and with other tags. -/

def secondTool : Version where
  name := toolName
  hash := "88d4266fd4e6338d13b845fcf289579d209c897823b9217da3e161936f031589"
  content := "abcd".toUTF8
  tags := ["v2", "latest"]
  pulls := 0
  created := ⟨1, 0⟩

def secondToolAgain : Upload where
  metadata := some ⟨toolName, ["v3", "v1", "v3", "v2"]⟩
  frames := #["ab".toUTF8, "cd".toUTF8]

theorem second_tool_takes_tags :
    let after := (secondToolAgain.close (start.after toolRun).store).2.2
    lookup after.versions toolName secondTool.hash =
      some { secondTool with tags := ["v2", "latest", "v3", "v1"] } ∧
    lookup after.versions toolName firstTool.hash = some { firstTool with tags := [] } := by
  have reachable : Reachable (start.after toolRun).store := ⟨toolRun, rfl⟩
  have versions : (start.after toolRun).store.versions = [secondTool, firstTool] := by
    decide +kernel
  have stored : firstTool ∈ (start.after toolRun).store.versions := by simp [versions]
  have found : lookup (start.after toolRun).store.versions toolName secondTool.hash =
      some secondTool := by rw [versions]; decide
  have addressed : secondTool.hash = Sha256.hex secondTool.content :=
    reachable.sound.addressed secondTool (by simp [versions])
  have content : Sha256.hex secondToolAgain.content = secondTool.hash := by
    rw [addressed]
    exact congrArg _ (by decide)
  have apart : firstTool.hash ≠ secondTool.hash := by decide
  obtain ⟨present, _, _, sibling, _⟩ :=
    closed_upload_takes_effect reachable (u := secondToolAgain) ⟨rfl, rfl⟩
  rw [content] at present sibling
  exact ⟨present secondTool found, sibling firstTool stored rfl apart⟩

end Traffic

end Depot
