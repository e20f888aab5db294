import Depot.Proofs.Accepted
import Depot.Proofs.StoreInvariant

/-! Tags as a map. The store keeps tags in lists, one on each version, and has no map; `TagMap`
is the map from a name and a tag to a hash in which the last writer wins. It is read off what
clients did and were answered, and the calls by tag answer as the map says at every point of every
run. -/
namespace Depot.Traffic

open Versions (Sound lookup)

/-- The hash of the version that a tag of a name stands for. -/
abbrev TagMap := QualifiedName → String → Option String

namespace TagMap

def empty : TagMap := fun _ _ => none

def put (m : TagMap) (name : QualifiedName) (hash tag : String) : TagMap :=
  fun n t => if n = name ∧ t = tag then some hash else m n t

def putAll (m : TagMap) (name : QualifiedName) (hash : String) (tags : List String) : TagMap :=
  tags.foldl (fun m tag => m.put name hash tag) m

def clear (m : TagMap) (name : QualifiedName) (tag : String) : TagMap :=
  fun n t => if n = name ∧ t = tag then none else m n t

def forget (m : TagMap) (name : QualifiedName) (hash : String) : TagMap :=
  fun n t => if n = name ∧ m n t = some hash then none else m n t

/-- What one event does to the map, by what had been answered before: only commits, tag changes and
deletes that succeed count. A commit is of the content that was accepted, under the metadata that
was accepted. -/
def follow (m : TagMap) (past : Trace) : Step × Answer → TagMap
  | (.close i, .artifact (.ok _)) =>
    let t := trail i past
    match acceptedMetadata? t with
    | some metadata => m.putAll metadata.name (Sha256.hex (acceptedContent t)) metadata.tags
    | none => m
  | (.delete _, .artifact (.ok a)) => m.forget a.name a.versionHash
  | (.addTag r, .done (.ok ())) => m.put r.name r.versionHash r.tag
  | (.removeTag r, .done (.ok ())) => m.clear r.name r.tag
  | _ => m

def along (m : TagMap) (past : Trace) : Trace → TagMap
  | [] => m
  | event :: rest => (m.follow past event).along (past ++ [event]) rest

def after (steps : List Step) : TagMap := empty.along [] (start.history steps)

/-- The coupling: the map has a tag exactly where a version carries it. -/
def Agrees (m : TagMap) (versions : List Version) : Prop :=
  ∀ name tag hash, m name tag = some hash ↔
    ∃ v ∈ versions, v.name = name ∧ v.hash = hash ∧ tag ∈ v.tags

variable {m : TagMap} {versions : List Version} {name : QualifiedName} {hash tag : String}

theorem Agrees.empty : Agrees empty [] := by
  simp [Agrees, TagMap.empty]

theorem Agrees.insert (agrees : Agrees m versions) {v : Version} (untagged : v.tags = []) :
    Agrees m (Versions.insert v versions) := by
  intro name tag hash
  rw [agrees]
  simp [Versions.mem_insert, untagged]

theorem Agrees.map (agrees : Agrees m versions) {change : Version → Version}
    (keeping : Version.Keeping change) (sameTags : ∀ v, (change v).tags = v.tags) :
    Agrees m (versions.map change) := by
  intro name tag hash
  rw [agrees]
  simp [keeping.name, keeping.hash, sameTags]

/-- The version that the tag goes to has to be there, or the tag would be lost. -/
theorem Agrees.retag (agrees : Agrees m versions)
    (present : ∃ v ∈ versions, v.name = name ∧ v.hash = hash) (tag : String) :
    Agrees (m.put name hash tag) (Versions.retag versions name hash tag) := by
  intro n t h
  simp only [Versions.retag, List.mem_map, exists_exists_and_eq_and, Version.retagged_name,
    Version.retagged_hash, Version.mem_retagged]
  by_cases moved : n = name ∧ t = tag
  · obtain ⟨rfl, rfl⟩ := moved
    obtain ⟨target, member, sameName, sameHash⟩ := present
    simp only [put, and_self, if_true, Option.some.injEq]
    constructor
    · rintro rfl
      exact ⟨target, member, sameName, sameHash, by simp [sameName, sameHash]⟩
    · rintro ⟨v, _, sameName, rfl, carried⟩
      simpa [sameName, eq_comm] using carried
  · rw [put, if_neg moved, agrees]
    constructor
    · rintro ⟨v, member, rfl, rfl, carried⟩
      exact ⟨v, member, rfl, rfl, by rwa [if_neg moved]⟩
    · rintro ⟨v, member, rfl, rfl, carried⟩
      exact ⟨v, member, rfl, rfl, by rwa [if_neg moved] at carried⟩

theorem Agrees.retagAll (agrees : Agrees m versions)
    (present : ∃ v ∈ versions, v.name = name ∧ v.hash = hash) (tags : List String) :
    Agrees (m.putAll name hash tags) (Versions.retagAll versions name hash tags) := by
  induction tags generalizing m versions with
  | nil => exact agrees
  | cons tag tags ih =>
    apply ih (agrees.retag present tag)
    obtain ⟨v, member, sameName, sameHash⟩ := present
    exact ⟨v.retagged name hash tag, List.mem_map_of_mem member, by simpa, by simpa⟩

theorem Agrees.erase (agrees : Agrees m versions) (name : QualifiedName) (hash : String) :
    Agrees (m.forget name hash) (Versions.erase versions name hash) := by
  intro n t h
  simp only [forget, Versions.mem_erase]
  by_cases gone : n = name ∧ m n t = some hash
  · simp only [if_pos gone, reduceCtorEq, false_iff]
    rintro ⟨v, ⟨member, kept⟩, sameName, sameHash, carried⟩
    have stored := (agrees n t h).mpr ⟨v, member, sameName, sameHash, carried⟩
    have sameHash : v.hash = hash := sameHash.trans (Option.some.inj (stored.symm.trans gone.2))
    exact kept ⟨sameName.trans gone.1, sameHash⟩
  · rw [if_neg gone, agrees]
    constructor
    · rintro ⟨v, member, rfl, rfl, carried⟩
      refine ⟨v, ⟨member, ?_⟩, rfl, rfl, carried⟩
      rintro ⟨sameName, rfl⟩
      exact gone ⟨sameName, (agrees _ _ _).mpr ⟨v, member, rfl, rfl, carried⟩⟩
    · rintro ⟨v, ⟨member, _⟩, rfl, rfl, carried⟩
      exact ⟨v, member, rfl, rfl, carried⟩

/-- The version has the tag once, and no other version of its name has it. -/
theorem mem_untagged (agrees : Agrees m versions) (sound : Sound versions)
    (carried : m name tag = some hash) {v : Version} (member : v ∈ versions) (other : String) :
    other ∈ (if v.hasKey name hash then { v with tags := v.tags.erase tag } else v).tags ↔
      other ∈ v.tags ∧ ¬ (v.name = name ∧ other = tag) := by
  split
  next key =>
    have ⟨sameName, _⟩ := (v.hasKey_iff name hash).mp key
    simp [(sound.distinct v member).mem_erase_iff, sameName, and_comm]
  next key =>
    refine ⟨fun carries => ⟨carries, ?_⟩, And.left⟩
    rintro ⟨rfl, rfl⟩
    have stored := (agrees v.name other v.hash).mpr ⟨v, member, rfl, rfl, carries⟩
    rw [carried] at stored
    exact key ((v.hasKey_iff v.name hash).mpr ⟨rfl, (Option.some.inj stored).symm⟩)

theorem Agrees.untag (agrees : Agrees m versions) (sound : Sound versions)
    (carried : m name tag = some hash) :
    Agrees (m.clear name tag) (Versions.update versions name hash
      fun v => { v with tags := v.tags.erase tag }) := by
  intro n t h
  have cleared : m.clear name tag n t = some h ↔ m n t = some h ∧ ¬ (n = name ∧ t = tag) := by
    unfold clear; split <;> simp [*]
  rw [cleared, agrees]
  have keeping := (Version.keeping_untagged tag).onKey name hash
  simp only [Versions.update, List.mem_map, exists_exists_and_eq_and, keeping.name, keeping.hash]
  constructor
  · rintro ⟨⟨v, member, rfl, rfl, carries⟩, kept⟩
    exact ⟨v, member, rfl, rfl, (mem_untagged agrees sound carried member t).mpr ⟨carries, kept⟩⟩
  · rintro ⟨v, member, rfl, rfl, carries⟩
    have ⟨carries, kept⟩ := (mem_untagged agrees sound carried member t).mp carries
    exact ⟨⟨v, member, rfl, rfl, carries⟩, kept⟩

theorem Agrees.addContent {s : Store} (agrees : Agrees m s.versions) (name : QualifiedName)
    (hash : String) (content : ByteArray) : Agrees m (s.addContent name hash content).versions := by
  unfold Store.addContent
  split
  · exact agrees
  · exact agrees.insert rfl

theorem Agrees.commit {s : Store} (agrees : Agrees m s.versions) (metadata : UploadMetadata)
    (content : ByteArray) :
    Agrees (m.putAll metadata.name (Sha256.hex content) metadata.tags)
      (s.commit metadata content).2.versions :=
  (agrees.addContent _ _ content).retagAll (Store.addContent_present _ _ _ _) metadata.tags

section Steps

variable {w : State} {past : Trace} (agrees : Agrees m w.store.versions)
  (collects : ∀ i, Collects (trail i past) (w.handles i))
include agrees collects

theorem follow_close (i : Nat) : Agrees (m.follow past (.close i, (w.step (.close i)).1))
    (w.step (.close i)).2.store.versions := by
  cases handle : w.handles i with
  | unused => simpa [follow, State.step, handle] using agrees
  | dropped => simpa [follow, State.step, handle] using agrees
  | held u =>
    by_cases finished : u.finished = true
    · simpa [follow, State.step, handle, Upload.close, finished] using agrees
    · have collected := collects i
      rw [handle] at collected
      cases sent : u.metadata with
      | none =>
        simpa [follow, State.step, handle, Upload.close, finished, sent, Store.log] using agrees
      | some metadata =>
        simpa [follow, State.step, collected.metadata, collected.content, handle, Upload.close,
          finished, sent, Store.log] using agrees.commit metadata u.content

/-- One step of the clients is one step of the map. -/
theorem follow_agrees (sound : Sound w.store.versions) (step : Step) :
    Agrees (m.follow past (step, (w.step step).1)) (w.step step).2.store.versions := by
  cases step with
  | openUpload i => simp only [follow, State.step]; split <;> exact agrees
  | send i frame => simp only [follow, State.step]; split <;> exact agrees
  | close i => exact follow_close agrees collects i
  | drop i =>
    simp only [follow, State.step]
    split
    · simp only [State.store_setHandle, State.store_setStore, Upload.cancel]
      split <;> exact agrees
    · exact agrees
  | pull id =>
    simp only [follow, State.step, State.store_setStore, Store.pull]
    split
    · exact agrees
    · apply agrees.map (Version.keeping_pulled.onKey _ _)
      intro v
      split <;> rfl
  | get id => exact agrees
  | query q => exact agrees
  | delete id =>
    simp only [follow, State.step, State.store_setStore]
    cases found : Versions.resolve w.store.versions id with
    | none => simpa [Store.delete, found] using agrees
    | some v => simpa [Store.delete, found] using agrees.erase v.name v.hash
  | addTag r =>
    by_cases empty : r.tag = ""
    · simpa [follow, State.step, Store.addTag, empty] using agrees
    cases found : lookup w.store.versions r.name r.versionHash with
    | none => simpa [follow, State.step, Store.addTag, empty, found] using agrees
    | some v =>
      have present := Versions.lookup_found found
      simpa [follow, State.step, Store.addTag, empty, found]
        using agrees.retag ⟨v, present⟩ r.tag
  | removeTag r =>
    cases found : lookup w.store.versions r.name r.versionHash with
    | none => simpa [follow, State.step, Store.removeTag, found] using agrees
    | some v =>
      obtain ⟨member, sameName, sameHash⟩ := Versions.lookup_found found
      by_cases carried : r.tag ∈ v.tags
      · have stored := (agrees _ _ _).mpr ⟨v, member, sameName, sameHash, carried⟩
        simpa [follow, State.step, Store.removeTag, found, carried]
          using agrees.untag sound stored
      · simpa [follow, State.step, Store.removeTag, found, carried] using agrees
  | clock now => exact agrees

theorem along_agrees (sound : Sound w.store.versions) (steps : List Step) :
    Agrees (m.along past (w.history steps)) (w.after steps).store.versions := by
  induction steps generalizing m w past with
  | nil => exact agrees
  | cons step steps ih =>
    exact ih (follow_agrees agrees collects sound step)
      (collects_tracks.turn (step_turn w step) collects) ((step_effect w step).sound sound)

end Steps

theorem after_agrees (steps : List Step) :
    Agrees (after steps) (start.after steps).store.versions :=
  along_agrees .empty collects_start .nil steps

variable {s : Store}

theorem Agrees.resolve_some (agrees : Agrees m s.versions) (sound : Sound s.versions)
    {id : Identifier} {tag hash : String} (byTag : id.reference = .tag tag)
    (mapped : m id.name tag = some hash) :
    ∃ v ∈ s.versions, v.name = id.name ∧ v.hash = hash ∧ s.ActsOn id v := by
  obtain ⟨v, member, sameName, sameHash, carried⟩ := (agrees id.name tag hash).mp mapped
  have found := (sound.resolve_tag byTag).mpr ⟨member, sameName, carried⟩
  exact ⟨v, member, sameName, sameHash, Store.acts_of_resolve found⟩

theorem Agrees.resolve_none (agrees : Agrees m s.versions) (sound : Sound s.versions)
    {id : Identifier} {tag : String} (byTag : id.reference = .tag tag)
    (unmapped : m id.name tag = none) : s.Misses id := by
  apply Store.misses_of_resolve
  cases found : Versions.resolve s.versions id with
  | none => rfl
  | some v =>
    obtain ⟨member, sameName, carried⟩ := (sound.resolve_tag byTag).mp found
    have mapped := (agrees id.name tag v.hash).mpr ⟨v, member, sameName, rfl, carried⟩
    rw [unmapped] at mapped
    contradiction

/-- Taking a tag off succeeds on the one version that the map has for it. -/
theorem Agrees.removeTag_iff (agrees : Agrees m s.versions) (sound : Sound s.versions)
    (r : TagRequest) : (s.removeTag r).1 = .ok () ↔ m r.name r.tag = some r.versionHash := by
  rw [agrees]
  cases found : lookup s.versions r.name r.versionHash with
  | none =>
    have absent := Versions.lookup_eq_none_iff.mp found
    simp only [Store.removeTag, found, reduceCtorEq, false_iff]
    rintro ⟨v, member, sameName, sameHash, _⟩
    exact absent v member ⟨sameName, sameHash⟩
  | some v =>
    obtain ⟨member, sameName, sameHash⟩ := Versions.lookup_found found
    simp only [Store.removeTag, found]
    split
    next carried => simp only [true_iff]; exact ⟨v, member, sameName, sameHash, carried⟩
    next missing =>
      simp only [reduceCtorEq, false_iff]
      rintro ⟨w, memberW, nameW, hashW, carried⟩
      have same := sound.ordered.unique memberW member (nameW.trans sameName.symm)
        (hashW.trans sameHash.symm)
      exact missing (same ▸ carried)

end TagMap

/-- At every point of every run the calls by tag answer as the last writer left the map. -/
theorem tags_refine_last_writer (steps : List Step) :
    let s := (start.after steps).store
    let m := TagMap.after steps
    (∀ (name : QualifiedName) (tag : String) (nonempty : tag ≠ ""),
      match m name tag with
      | some hash => ∃ v ∈ s.versions, v.name = name ∧ v.hash = hash ∧
          s.ActsOn ⟨name, .tag tag, nonempty⟩ v
      | none => s.Misses ⟨name, .tag tag, nonempty⟩) ∧
    ∀ r : TagRequest, (s.removeTag r).1 = .ok () ↔ m r.name r.tag = some r.versionHash := by
  intro s m
  have agrees : m.Agrees s.versions := TagMap.after_agrees steps
  have sound : Sound s.versions := Reachable.sound ⟨steps, rfl⟩
  refine ⟨fun name tag nonempty => ?_, agrees.removeTag_iff sound⟩
  have byTag : Identifier.reference ⟨name, .tag tag, nonempty⟩ = .tag tag := rfl
  split
  next hash mapped => exact agrees.resolve_some sound byTag mapped
  next unmapped => exact agrees.resolve_none sound byTag unmapped

end Depot.Traffic
