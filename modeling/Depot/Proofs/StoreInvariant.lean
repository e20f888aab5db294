import Depot.Proofs.Digest
import Depot.Proofs.Traffic
import Depot.Proofs.Versions

/-! What holds of every store that clients can bring about. Content is addressed by its digest, a
version carries a tag once, and a name carries a tag on one version. -/
namespace Depot

namespace Versions

/-- `single` speaks of hashes: with `ordered`, the two versions are one. -/
structure Sound (versions : List Version) : Prop where
  ordered : Ordered versions
  addressed : ∀ v ∈ versions, v.hash = Sha256.hex v.content
  distinct : ∀ v ∈ versions, v.tags.Nodup
  single : ∀ v ∈ versions, ∀ w ∈ versions, v.name = w.name →
    ∀ tag ∈ v.tags, tag ∈ w.tags → v.hash = w.hash

variable {versions : List Version} {name : QualifiedName} {hash : String}

theorem Sound.nil : Sound [] := by
  constructor <;> simp [Ordered]

theorem Sound.insert (sound : Sound versions) {v : Version} (untagged : v.tags = [])
    (addressed : v.hash = Sha256.hex v.content)
    (fresh : lookup versions v.name v.hash = none) : Sound (insert v versions) where
  ordered := sound.ordered.insert v (lookup_eq_none_iff.mp fresh)
  addressed := by
    intro w member
    rcases (mem_insert v w versions).mp member with rfl | member
    · exact addressed
    · exact sound.addressed w member
  distinct := by
    intro w member
    rcases (mem_insert v w versions).mp member with rfl | member
    · simp [untagged]
    · exact sound.distinct w member
  single := by
    intro a ha b hb same tag tagA tagB
    rcases (mem_insert v a versions).mp ha with rfl | ha
    · simp [untagged] at tagA
    rcases (mem_insert v b versions).mp hb with rfl | hb
    · simp [untagged] at tagB
    exact sound.single a ha b hb same tag tagA tagB

/-- A change that gives no version a tag it had not. -/
theorem Sound.map (sound : Sound versions) {change : Version → Version}
    (keeping : Version.Keeping change) (fewerTags : ∀ v, (change v).tags.Sublist v.tags) :
    Sound (versions.map change) where
  ordered := sound.ordered.map keeping
  addressed := by
    simpa [keeping.hash, keeping.content] using sound.addressed
  distinct := by
    rintro _ member
    obtain ⟨v, old, rfl⟩ := List.mem_map.mp member
    exact (sound.distinct v old).sublist (fewerTags v)
  single := by
    rintro _ memberA _ memberB same tag tagA tagB
    obtain ⟨a, ha, rfl⟩ := List.mem_map.mp memberA
    obtain ⟨b, hb, rfl⟩ := List.mem_map.mp memberB
    rw [keeping.name, keeping.name] at same
    rw [keeping.hash, keeping.hash]
    exact sound.single a ha b hb same tag ((fewerTags a).subset tagA) ((fewerTags b).subset tagB)

theorem Sound.update (sound : Sound versions) {change : Version → Version}
    (keeping : Version.Keeping change) (fewerTags : ∀ v, (change v).tags.Sublist v.tags) :
    Sound (update versions name hash change) := by
  apply sound.map (keeping.onKey name hash)
  intro v
  split
  · exact fewerTags v
  · exact .refl _

theorem Sound.erase (sound : Sound versions) (name : QualifiedName) (hash : String) :
    Sound (erase versions name hash) where
  ordered := sound.ordered.erase name hash
  addressed v member := sound.addressed v (mem_erase.mp member).1
  distinct v member := sound.distinct v (mem_erase.mp member).1
  single v hv w hw := sound.single v (mem_erase.mp hv).1 w (mem_erase.mp hw).1

/-- The sweep: whatever version had the tag before, only the one with the hash has it afterwards. -/
theorem Sound.retag (sound : Sound versions) (name : QualifiedName) (hash tag : String) :
    Sound (retag versions name hash tag) where
  ordered := sound.ordered.map (Version.keeping_retagged name hash tag)
  addressed := by
    simpa [Versions.retag] using sound.addressed
  distinct := by
    rintro _ member
    obtain ⟨v, old, rfl⟩ := List.mem_map.mp member
    exact v.retagged_nodup name hash tag (sound.distinct v old)
  single := by
    rintro _ memberA _ memberB same other tagA tagB
    obtain ⟨a, ha, rfl⟩ := List.mem_map.mp memberA
    obtain ⟨b, hb, rfl⟩ := List.mem_map.mp memberB
    rw [Version.retagged_name, Version.retagged_name] at same
    rw [Version.mem_retagged] at tagA tagB
    rw [Version.retagged_hash, Version.retagged_hash]
    rw [← same] at tagB
    by_cases moved : a.name = name ∧ other = tag
    · rw [if_pos moved] at tagA tagB
      exact tagA.trans tagB.symm
    · rw [if_neg moved] at tagA tagB
      exact sound.single a ha b hb same other tagA tagB

theorem Sound.retagAll (sound : Sound versions) (name : QualifiedName) (hash : String)
    (tags : List String) : Sound (retagAll versions name hash tags) := by
  induction tags generalizing versions with
  | nil => exact sound
  | cons tag tags ih => exact ih (sound.retag name hash tag)

/-- The order of the versions does not matter to a tag: at most one version has it. -/
theorem Sound.resolve_tag (sound : Sound versions) {id : Identifier} {tag : String}
    (byTag : id.reference = .tag tag) {v : Version} : resolve versions id = some v ↔
      v ∈ versions ∧ v.name = id.name ∧ tag ∈ v.tags := by
  have selected (v : Version) : v.isSelected id = true ↔ v.name = id.name ∧ tag ∈ v.tags := by
    simp [Version.isSelected, byTag]
  rw [resolve, find?_eq_some_iff, selected]
  intro v hv w hw meantV meantW
  obtain ⟨nameV, tagV⟩ := (selected v).mp meantV
  obtain ⟨nameW, tagW⟩ := (selected w).mp meantW
  have sameName := nameV.trans nameW.symm
  exact sound.ordered.unique hv hw sameName (sound.single v hv w hw sameName tag tagV tagW)

end Versions

open Versions (Sound)

namespace Store

variable {s : Store}

theorem addContent_present (s : Store) (name : QualifiedName) (hash : String)
    (content : ByteArray) :
    ∃ v ∈ (s.addContent name hash content).versions, v.name = name ∧ v.hash = hash := by
  unfold addContent
  split
  next v found => exact ⟨v, Versions.lookup_found found⟩
  next fresh =>
    exact ⟨s.freshVersion name hash content, (Versions.mem_insert _ _ _).mpr (.inl rfl), rfl, rfl⟩

theorem addContent_sound (sound : Sound s.versions) (name : QualifiedName) (content : ByteArray) :
    Sound (s.addContent name (Sha256.hex content) content).versions := by
  unfold addContent
  split
  · exact sound
  · next fresh => exact sound.insert rfl rfl fresh

theorem commit_sound (sound : Sound s.versions) (metadata : UploadMetadata) (content : ByteArray) :
    Sound (s.commit metadata content).2.versions :=
  (addContent_sound sound metadata.name content).retagAll _ _ _

theorem pull_sound (sound : Sound s.versions) (id : Identifier) : Sound (s.pull id).2.versions := by
  unfold pull
  split
  · exact sound
  · exact sound.update Version.keeping_pulled fun _ => .refl _

theorem delete_sound (sound : Sound s.versions) (id : Identifier) :
    Sound (s.delete id).2.versions := by
  unfold delete
  split
  · exact sound
  · exact sound.erase _ _

theorem addTag_sound (sound : Sound s.versions) (r : TagRequest) :
    Sound (s.addTag r).2.versions := by
  unfold addTag
  split
  · exact sound
  · split
    · exact sound
    · exact sound.retag _ _ _

theorem removeTag_sound (sound : Sound s.versions) (r : TagRequest) :
    Sound (s.removeTag r).2.versions := by
  unfold removeTag
  split
  · exact sound
  · split
    · exact sound.update (Version.keeping_untagged r.tag) fun _ => List.erase_sublist
    · exact sound

/-- What the calls by an identifier do that means this version. -/
structure ActsOn (s : Store) (id : Identifier) (v : Version) : Prop where
  get : s.get id = .ok v.record
  pull : s.pull id = (.ok (Framing.cut maxFrameSize v.content),
    { s with
      versions := Versions.update s.versions v.name v.hash fun v => { v with pulls := v.pulls + 1 }
    }.log (.pull id ((Framing.cut maxFrameSize v.content).map ByteArray.size)))
  delete : s.delete id =
    (.ok v.record, { s with versions := Versions.erase s.versions v.name v.hash })

structure Misses (s : Store) (id : Identifier) : Prop where
  get : s.get id = .error (notFound id.text)
  pull : s.pull id = (.error (notFound id.text), s)
  delete : s.delete id = (.error (notFound id.text), s)

variable {id : Identifier} {v : Version}

theorem acts_of_resolve (found : Versions.resolve s.versions id = some v) : s.ActsOn id v := by
  constructor
  · simp [get, found]
  · simp [pull, found]
  · simp [delete, found]

theorem misses_of_resolve (missing : Versions.resolve s.versions id = none) : s.Misses id := by
  constructor
  · simp [get, missing]
  · simp [pull, missing]
  · simp [delete, missing]

end Store

namespace Traffic

theorem Effect.sound {s t : Store} {step : Step} (effect : Effect s step t) (sound : Sound s.versions) :
    Sound t.versions := by
  cases effect with
  | unchanged => exact sound
  | logged => exact sound
  | committed metadata content => exact Store.commit_sound sound metadata content
  | pulled id => exact Store.pull_sound sound id
  | deleted id _ => exact Store.delete_sound sound id
  | tagged r => exact Store.addTag_sound sound r
  | untagged r => exact Store.removeTag_sound sound r
  | clocked => exact sound

theorem after_sound {w : State} (sound : Sound w.store.versions) (steps : List Step) :
    Sound (w.after steps).store.versions :=
  State.store_invariant (fun s => Sound s.versions) (fun _ _ _ sound effect => effect.sound sound)
    sound steps

theorem Reachable.sound {s : Store} (reachable : Reachable s) : Sound s.versions := by
  obtain ⟨steps, rfl⟩ := reachable
  exact after_sound .nil steps

/-- Every version that clients can bring about is found by its name and hash, is addressed by its
content, and shares no tag with itself or with another version of its name. -/
theorem stored_version_sound {s : Store} (reachable : Reachable s) {v : Version}
    (stored : v ∈ s.versions) :
    Versions.lookup s.versions v.name v.hash = some v ∧
    v.hash = Sha256.hex v.content ∧ v.hash.length = 64 ∧ (∀ c ∈ v.hash.toList, Hex.IsLower c) ∧
    v.tags.Nodup ∧
    (∀ w ∈ s.versions, w.name = v.name → w.hash ≠ v.hash → ∀ tag ∈ w.tags, tag ∉ v.tags) ∧
    v.name.source ≠ "" ∧ v.name.author ≠ "" ∧ v.name.name ≠ "" := by
  have sound := reachable.sound
  have addressed := sound.addressed v stored
  refine ⟨(Versions.lookup_eq_some_iff sound.ordered).mpr ⟨stored, rfl, rfl⟩, addressed, ?_, ?_,
    sound.distinct v stored, ?_, v.name.source_ne, v.name.author_ne, v.name.name_ne⟩
  · rw [addressed]
    exact Sha256.hex_length v.content
  · rw [addressed]
    exact Hex.ofBytes_lower (Sha256.digest v.content)
  · intro w member sameName apart tag tagW tagV
    exact apart (sound.single w member v stored sameName tag tagW tagV)

/-! A run in which a second upload takes a tag from the first, which had named it twice. Between
the two a second passes. -/

def toolName : QualifiedName := ⟨"git", "alice", "tool", by decide, by decide, by decide⟩

def toolRun : List Step := [
  .openUpload 0,
  .openUpload 1,
  .send 0 (.metadata ⟨toolName, ["v1", "latest", "v1"]⟩),
  .send 0 (.content "abc".toUTF8),
  .close 0,
  .send 1 (.metadata ⟨toolName, ["v2", "latest"]⟩),
  .send 1 (.content "abcd".toUTF8),
  .pull ⟨toolName, .tag "latest", by decide⟩,
  .clock ⟨1, 0⟩,
  .close 1]

def firstTool : Version where
  name := toolName
  hash := "ba7816bf8f01cfea414140de5dae2223b00361a396177a9cb410ff61f20015ad"
  content := "abc".toUTF8
  tags := ["v1"]
  pulls := 1
  created := ⟨0, 0⟩

theorem first_tool_sound : firstTool ∈ (start.after toolRun).store.versions ∧
    firstTool.hash = Sha256.hex firstTool.content ∧ firstTool.tags.Nodup ∧
    ∀ w ∈ (start.after toolRun).store.versions, w.name = toolName → w.hash ≠ firstTool.hash →
      ∀ tag ∈ w.tags, tag ∉ firstTool.tags := by
  have stored : firstTool ∈ (start.after toolRun).store.versions := by decide +kernel
  obtain ⟨_, addressed, _, _, distinct, single, _⟩ := stored_version_sound ⟨toolRun, rfl⟩ stored
  exact ⟨stored, addressed, distinct, single⟩

end Traffic

end Depot
