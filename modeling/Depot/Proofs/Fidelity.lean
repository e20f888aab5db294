import Depot.Proofs.Relay
import Depot.Proofs.StoreInvariant
import Depot.Transfer.Download

/-! Content comes back byte for byte. What is uploaded is downloaded again by its hash and by each
of its tags; by its hash as long as nobody deletes it, whatever else clients do. -/
namespace Depot

open Framing (join cut)
open Versions (Sound)

namespace Versions

/-- The content is stored under the name and the hash, with whatever tags and pulls. -/
def Holds (versions : List Version) (name : QualifiedName) (hash : String)
    (content : ByteArray) : Prop :=
  ∃ v ∈ versions, v.name = name ∧ v.hash = hash ∧ v.content = content

variable {versions : List Version} {name : QualifiedName} {hash : String} {content : ByteArray}

theorem Holds.insert (holds : Holds versions name hash content) (v : Version) :
    Holds (insert v versions) name hash content := by
  obtain ⟨w, member, key⟩ := holds
  exact ⟨w, (mem_insert v w versions).mpr (.inr member), key⟩

theorem Holds.map (holds : Holds versions name hash content) {change : Version → Version}
    (keeping : Version.Keeping change) : Holds (versions.map change) name hash content := by
  obtain ⟨v, member, rfl, rfl, rfl⟩ := holds
  exact ⟨change v, List.mem_map_of_mem member, keeping.name v, keeping.hash v, keeping.content v⟩

theorem Holds.erase (holds : Holds versions name hash content) {other : QualifiedName}
    {otherHash : String} (apart : ¬ (name = other ∧ hash = otherHash)) :
    Holds (erase versions other otherHash) name hash content := by
  obtain ⟨v, member, rfl, rfl, same⟩ := holds
  exact ⟨v, mem_erase.mpr ⟨member, apart⟩, rfl, rfl, same⟩

theorem Holds.resolve (holds : Holds versions name hash content) (ordered : Ordered versions)
    {id : Identifier} (named : id.name = name) (byHash : id.reference = .hash hash) :
    ∃ v, resolve versions id = some v ∧ v.content = content := by
  obtain ⟨v, member, sameName, sameHash, same⟩ := holds
  refine ⟨v, ?_, same⟩
  rw [resolve_hash byHash, lookup_eq_some_iff ordered, named]
  exact ⟨member, sameName, sameHash⟩

end Versions

open Versions (Holds)

namespace Store

variable {s : Store} {name : QualifiedName} {hash : String} {content : ByteArray}

/-- A version has the tags and the hash of what was committed, and holds it unless other content
had been stored under the hash. -/
def Took (before after : Store) (metadata : UploadMetadata) (content : ByteArray) : Prop :=
  ∃ v ∈ after.versions, v.name = metadata.name ∧ v.hash = Sha256.hex content ∧
    (∀ tag ∈ metadata.tags, tag ∈ v.tags) ∧
    ((∀ w ∈ before.versions, w.name = metadata.name → w.hash = Sha256.hex content →
      w.content = content) → v.content = content)

theorem addContent_stored (s : Store) (name : QualifiedName) (hash : String) (content : ByteArray) :
    ∃ v ∈ (s.addContent name hash content).versions, v.name = name ∧ v.hash = hash ∧
      ((∀ w ∈ s.versions, w.name = name → w.hash = hash → w.content = content) →
        v.content = content) := by
  unfold addContent
  split
  next v found =>
    obtain ⟨member, sameName, sameHash⟩ := Versions.lookup_found found
    exact ⟨v, member, sameName, sameHash,
      fun unambiguous => unambiguous v member sameName sameHash⟩
  next fresh =>
    exact ⟨s.freshVersion name hash content, (Versions.mem_insert _ _ _).mpr (.inl rfl), rfl, rfl,
      fun _ => rfl⟩

theorem addContent_keeps (holds : Holds s.versions name hash content) (other : QualifiedName)
    (otherHash : String) (added : ByteArray) :
    Holds (s.addContent other otherHash added).versions name hash content := by
  unfold addContent
  split
  · exact holds
  · exact holds.insert _

theorem commit_keeps (holds : Holds s.versions name hash content) (metadata : UploadMetadata)
    (added : ByteArray) : Holds (s.commit metadata added).2.versions name hash content := by
  simp only [commit, Versions.retagAll_eq_map]
  exact (addContent_keeps holds _ _ added).map (Version.keeping_retaggedAll _ _ metadata.tags)

theorem pull_keeps (holds : Holds s.versions name hash content) (id : Identifier) :
    Holds (s.pull id).2.versions name hash content := by
  unfold pull
  split
  · exact holds
  · exact holds.map (Version.keeping_pulled.onKey _ _)

theorem addTag_keeps (holds : Holds s.versions name hash content) (r : TagRequest) :
    Holds (s.addTag r).2.versions name hash content := by
  unfold addTag
  split
  · exact holds
  · split
    · exact holds
    · exact holds.map (Version.keeping_retagged _ _ r.tag)

theorem removeTag_keeps (holds : Holds s.versions name hash content) (r : TagRequest) :
    Holds (s.removeTag r).2.versions name hash content := by
  unfold removeTag
  split
  · exact holds
  · split
    · exact holds.map ((Version.keeping_untagged r.tag).onKey _ _)
    · exact holds

theorem delete_keeps (holds : Holds s.versions name hash content) {id : Identifier}
    (spared : ∀ a, (s.delete id).1 = .ok a → ¬ (a.name = name ∧ a.versionHash = hash)) :
    Holds (s.delete id).2.versions name hash content := by
  unfold delete at spared ⊢
  split
  · exact holds
  next v found =>
    simp only [found] at spared
    have apart := spared v.record rfl
    exact holds.erase fun ⟨sameName, sameHash⟩ => apart ⟨sameName.symm, sameHash.symm⟩

theorem commit_versionHash (s : Store) (metadata : UploadMetadata) (content : ByteArray) :
    (s.commit metadata content).1.versionHash = Sha256.hex content := by
  simp only [commit, Version.record_versionHash]
  rw [← Version.retaggedAll, Version.retaggedAll_hash]
  cases found : Versions.lookup s.versions metadata.name (Sha256.hex content) with
  | none => rfl
  | some v => exact (Versions.lookup_found found).2.2

theorem commit_took (s : Store) (metadata : UploadMetadata) (content : ByteArray) :
    s.Took (s.commit metadata content).2 metadata content := by
  obtain ⟨v, member, sameName, sameHash, same⟩ :=
    s.addContent_stored metadata.name (Sha256.hex content) content
  have keeping := Version.keeping_retaggedAll metadata.name (Sha256.hex content) metadata.tags
  simp only [Took, commit, Versions.retagAll_eq_map]
  refine ⟨_, List.mem_map_of_mem member, (keeping.name v).trans sameName,
    (keeping.hash v).trans sameHash, ?_, fun unambiguous =>
      (keeping.content v).trans (same unambiguous)⟩
  intro tag listed
  rw [Version.mem_retaggedAll, if_pos ⟨sameName, listed⟩]
  exact sameHash

/-- A commit leaves a version with all of its tags on it, which holds its content unless two contents
share a hash. -/
theorem commit_tagged (sound : Sound s.versions) (metadata : UploadMetadata) (content : ByteArray) :
    ∃ v ∈ (s.commit metadata content).2.versions, v.name = metadata.name ∧
      v.hash = Sha256.hex content ∧ (∀ tag ∈ metadata.tags, tag ∈ v.tags) ∧
      ((∀ w ∈ s.versions, w.name = metadata.name →
        Sha256.hex w.content = Sha256.hex content → w.content = content) → v.content = content) := by
  obtain ⟨v, member, named, hashed, tagged, same⟩ := s.commit_took metadata content
  refine ⟨v, member, named, hashed, tagged, fun unambiguous => same fun w stored sameName key => ?_⟩
  exact unambiguous w stored sameName ((sound.addressed w stored).symm.trans key)

theorem commit_stored (sound : Sound s.versions) {metadata : UploadMetadata}
    (unambiguous : ∀ v ∈ s.versions, v.name = metadata.name →
      Sha256.hex v.content = Sha256.hex content → v.content = content) :
    ∃ v ∈ (s.commit metadata content).2.versions, v.name = metadata.name ∧
      v.hash = Sha256.hex content ∧ v.content = content ∧ ∀ tag ∈ metadata.tags, tag ∈ v.tags := by
  obtain ⟨v, member, named, sameHash, tagged, same⟩ := commit_tagged sound metadata content
  exact ⟨v, member, named, sameHash, same unambiguous, tagged⟩

end Store

theorem Identifier.ofName_ok (name : QualifiedName) (reference : Reference)
    (nonempty : reference.raw ≠ "") :
    Identifier.ofName name reference = .ok ⟨name, reference, nonempty⟩ := dif_neg nonempty

theorem PullStream.append_ok (received : ByteArray) (frames : List ByteArray) :
    PullStream.append received (frames.map .ok) = .ok (received ++ join frames) := by
  induction frames generalizing received with
  | nil => simp [PullStream.append]
  | cons frame frames ih => simp [PullStream.append, ih, ByteArray.append_assoc]

theorem PullStream.assemble_ok (frames : List ByteArray) :
    PullStream.assemble (frames.map .ok) = .ok (join frames) := by
  rw [assemble, append_ok, ByteArray.empty_append]

theorem PullStream.assemble_cut (size : Nat) (content : ByteArray) :
    PullStream.assemble ((cut size content).map .ok) = .ok content := by
  rw [assemble_ok, Framing.join_cut]

/-- What an identifier means is downloaded in whole. -/
theorem download_of_resolve {s : Store} {id : Identifier} {v : Version}
    (found : Versions.resolve s.versions id = some v) :
    (download Store.registry id s).1 = .ok (v.record, v.content) := by
  have acts := Store.acts_of_resolve found
  simp only [download, Store.registry, acts.get, acts.pull, Except.map, PullStream.assemble_cut]

namespace Traffic

def Deletes (name : QualifiedName) (hash : String) : Step × Answer → Prop
  | (.delete _, .artifact (.ok a)) => a.name = name ∧ a.versionHash = hash
  | _ => False

variable {name : QualifiedName} {hash : String} {content : ByteArray}

theorem step_keeps {w : State} (holds : Holds w.store.versions name hash content) {step : Step}
    (spared : ¬ Deletes name hash (step, (w.step step).1)) :
    Holds (w.step step).2.store.versions name hash content := by
  have effect := step_effect w step
  generalize (w.step step).2.store = t at effect ⊢
  cases effect with
  | unchanged => exact holds
  | logged => exact holds
  | committed metadata added => exact Store.commit_keeps holds metadata added
  | pulled id => exact Store.pull_keeps holds id
  | deleted id asked =>
    -- Only a delete takes a version out, and its answer says which.
    subst asked
    apply Store.delete_keeps holds
    intro a deleted
    simpa [Deletes, State.step, deleted] using spared
  | tagged r => exact Store.addTag_keeps holds r
  | untagged r => exact Store.removeTag_keeps holds r
  | clocked => exact holds

/-- Content stays until somebody deletes it. -/
theorem after_keeps {w : State} (holds : Holds w.store.versions name hash content)
    {steps : List Step} (spared : ∀ entry ∈ w.history steps, ¬ Deletes name hash entry) :
    Holds (w.after steps).store.versions name hash content := by
  induction steps generalizing w with
  | nil => exact holds
  | cons step steps ih =>
    have spared := List.forall_mem_cons.mp spared
    exact ih (step_keeps holds spared.1) spared.2

def Downloads (s : Store) (id : Identifier) (content : ByteArray) : Prop :=
  ∃ record, (download Store.registry id s).1 = .ok (record, content)

variable {s : Store} {id : Identifier}

theorem Downloads.ofHash (sound : Sound s.versions) (holds : Holds s.versions name hash content)
    (named : id.name = name) (byHash : id.reference = .hash hash) : Downloads s id content := by
  obtain ⟨v, found, rfl⟩ := holds.resolve sound.ordered named byHash
  exact ⟨v.record, download_of_resolve found⟩

theorem Downloads.ofTag {v : Version} {tag : String} (sound : Sound s.versions)
    (member : v ∈ s.versions) (same : v.content = content) (named : v.name = id.name)
    (byTag : id.reference = .tag tag) (carried : tag ∈ v.tags) : Downloads s id content := by
  subst same
  have found := (sound.resolve_tag byTag).mpr ⟨member, named, carried⟩
  exact ⟨v.record, download_of_resolve found⟩

/-- Whatever a clean reader delivers, in pieces of whatever sizes, is uploaded under its own hash
and downloaded again: at once by each of its tags, and by its hash until somebody deletes it. No
other content of the hash may be stored under the name. -/
theorem uploaded_content_downloads {w : State} (reachable : Reachable w.store) (configured : Nat)
    (metadata : UploadMetadata) {reader : Reader} (clean : reader.failure? = none)
    (unambiguous : ∀ v ∈ w.store.versions, v.name = metadata.name →
      Sha256.hex v.content = Sha256.hex reader.available → v.content = reader.available) :
    ∃ artifact s,
      upload Store.registry (frameSize configured) metadata reader w.store = (.ok artifact, s) ∧
      artifact.versionHash = Sha256.hex reader.available ∧
      (∃ id, Identifier.ofName metadata.name (.hash artifact.versionHash) = .ok id ∧
        ∀ later, (∀ entry ∈ (w.setStore s).history later,
            ¬ Deletes metadata.name artifact.versionHash entry) →
          Downloads ((w.setStore s).after later).store id reader.available) ∧
      ∀ tag ∈ metadata.tags, tag ≠ "" → ∃ id, Identifier.ofName metadata.name (.tag tag) = .ok id ∧
        Downloads s id reader.available := by
  have sound := reachable.sound
  have committedSound := Store.commit_sound sound metadata reader.available
  have versionHash := Store.commit_versionHash w.store metadata reader.available
  obtain ⟨v, member, named, sameHash, same, tagged⟩ := Store.commit_stored sound unambiguous
  refine ⟨_, _, upload_clean configured metadata clean w.store, versionHash, ?_, ?_⟩
  · have nonempty : (w.store.commit metadata reader.available).1.versionHash ≠ "" :=
      versionHash ▸ Sha256.hex_ne_empty reader.available
    refine ⟨_, Identifier.ofName_ok metadata.name (.hash _) nonempty, fun later spared => ?_⟩
    have holds := after_keeps ⟨v, member, named, sameHash.trans versionHash.symm, same⟩ spared
    exact .ofHash (after_sound committedSound later) holds rfl rfl
  · intro tag listed nonempty
    refine ⟨_, Identifier.ofName_ok metadata.name (.tag tag) nonempty, ?_⟩
    exact .ofTag committedSound member same named rfl (tagged tag listed)

/-- The content of the first tool again, under other tags, from a reader with an empty piece. -/
theorem first_tool_uploaded_again : ∃ artifact s,
    upload Store.registry (frameSize 2) ⟨toolName, ["v3", ""]⟩
      [.data "ab".toUTF8, .data .empty, .data "c".toUTF8] (start.after toolRun).store =
        (.ok artifact, s) ∧
    artifact.versionHash = firstTool.hash ∧
    ∃ id, Identifier.ofName toolName (.tag "v3") = .ok id ∧ Downloads s id "abc".toUTF8 := by
  have contents : ∀ v ∈ (start.after toolRun).store.versions, v.hash = firstTool.hash →
      v.content = "abc".toUTF8 := by decide +kernel
  have digest : Sha256.hex "abc".toUTF8 = firstTool.hash := by decide +kernel
  have unambiguous : ∀ v ∈ (start.after toolRun).store.versions, v.name = toolName →
      Sha256.hex v.content = Sha256.hex "abc".toUTF8 → v.content = "abc".toUTF8 := by
    intro v member _ sameDigest
    have addressed := (Reachable.sound ⟨toolRun, rfl⟩).addressed v member
    exact contents v member (addressed.trans (sameDigest.trans digest))
  have clean : Reader.failure? [.data "ab".toUTF8, .data .empty, .data "c".toUTF8] = none := rfl
  obtain ⟨artifact, s, uploaded, hash, _, byTag⟩ := uploaded_content_downloads ⟨toolRun, rfl⟩ 2
    ⟨toolName, ["v3", ""]⟩ clean unambiguous
  exact ⟨artifact, s, uploaded, hash.trans digest, byTag "v3" (by decide) (by decide)⟩

end Traffic

end Depot
