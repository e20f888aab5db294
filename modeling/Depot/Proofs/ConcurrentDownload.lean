import Depot.Proofs.Fidelity
import Depot.Proofs.TagMap

/-! Downloads beside other clients. A download asks the registry twice, and what others do in
between takes effect. Whatever that is, the record is that of the version that was meant at the
lookup, and the content is that of the version meant at the pull: by a hash always the same, by a
tag only if the tag is still where it was. -/
namespace Depot.Traffic

def onStore {α : Type} (call : Call Store α) : Call State α := fun w =>
  ((call w.store).1, w.setStore (call w.store).2)

def shared : Registry State Upload where
  label := Store.registry.label
  openUpload := onStore Store.registry.openUpload
  send frame u w :=
    let (answer, u, s) := Store.registry.send frame u w.store
    (answer, u, w.setStore s)
  close u w :=
    let (answer, u, s) := Store.registry.close u w.store
    (answer, u, w.setStore s)
  cancel u w := w.setStore (Store.registry.cancel u w.store)
  pull id := onStore (Store.registry.pull id)
  get id := onStore (Store.registry.get id)
  query q := onStore (Store.registry.query q)
  delete id := onStore (Store.registry.delete id)
  addTag r := onStore (Store.registry.addTag r)
  removeTag r := onStore (Store.registry.removeTag r)

/-- The store as a client calls it while others do these steps right after each of its lookups. -/
def amid (others : List Step) : Registry State Upload :=
  { shared with
    get := fun id w =>
      let (answer, w) := shared.get id w
      (answer, w.after others) }

/-- The identifier is read twice: before the others act, and after. -/
theorem download_amid (others : List Step) (id : Identifier) (w : State) :
    (download (amid others) id w).1 =
      match Versions.resolve w.store.versions id,
        Versions.resolve (w.after others).store.versions id with
      | none, _ => .error (.ofRegistry "looking up artifact" (Store.notFound id.text))
      | some _, none => .error (.ofRegistry "opening pull stream" (Store.notFound id.text))
      | some v, some v' => .ok (v.record, v'.content) := by
  cases before : Versions.resolve w.store.versions id with
  | none =>
    have misses := Store.misses_of_resolve before
    simp only [download, amid, shared, onStore, Store.registry, misses.get]
  | some v =>
    have acts := Store.acts_of_resolve before
    cases after : Versions.resolve (w.after others).store.versions id with
    | none =>
      have misses := Store.misses_of_resolve after
      simp only [download, amid, shared, onStore, Store.registry, acts.get, State.setStore_self,
        misses.pull, Except.map]
    | some v' =>
      have actsLater := Store.acts_of_resolve after
      simp only [download, amid, shared, onStore, Store.registry, acts.get, State.setStore_self,
        actsLater.pull, Except.map, PullStream.assemble_cut]

theorem download_amid_ok {others : List Step} {id : Identifier} {w : State} {artifact : Artifact}
    {body : ByteArray} (downloaded : (download (amid others) id w).1 = .ok (artifact, body)) :
    (∃ v, Versions.resolve w.store.versions id = some v ∧ v.record = artifact) ∧
      ∃ v, Versions.resolve (w.after others).store.versions id = some v ∧ v.content = body := by
  rw [download_amid] at downloaded
  split at downloaded
  · contradiction
  · contradiction
  next v v' before after =>
    obtain ⟨rfl, rfl⟩ := Prod.mk.inj (Except.ok.inj downloaded)
    exact ⟨⟨v, before, rfl⟩, v', after, rfl⟩

/-- The tag map names the version that a tag finds. -/
theorem resolved_mapped {steps : List Step} {id : Identifier} {tag : String} {v : Version}
    (byTag : id.reference = .tag tag)
    (found : Versions.resolve (start.after steps).store.versions id = some v) :
    TagMap.after steps id.name tag = some v.hash := by
  have sound := after_sound .nil steps (w := start)
  obtain ⟨member, named, carried⟩ := (sound.resolve_tag byTag).mp found
  exact (TagMap.after_agrees steps id.name tag v.hash).mpr ⟨v, member, named, rfl, carried⟩

/-- Record and content of a download are each those of one version under the name, whatever others
do between lookup and pull. By a hash, the content has the hash in the record. By a tag, it has the
hash that the tag stands for at the pull, which is the one in the record exactly if nobody has moved
the tag. -/
theorem download_beside_others (earlier others : List Step) (id : Identifier)
    {artifact : Artifact} {body : ByteArray}
    (downloaded : (download (amid others) id (start.after earlier)).1 = .ok (artifact, body)) :
    (∃ v ∈ (start.after earlier).store.versions, v.name = id.name ∧ v.record = artifact) ∧
    (∃ v ∈ (start.after (earlier ++ others)).store.versions, v.name = id.name ∧
      v.content = body) ∧
    match id.reference with
    | .hash _ => Sha256.hex body = artifact.versionHash
    | .tag tag =>
      TagMap.after earlier id.name tag = some artifact.versionHash ∧
      TagMap.after (earlier ++ others) id.name tag = some (Sha256.hex body) ∧
      (Sha256.hex body = artifact.versionHash ↔
        TagMap.after (earlier ++ others) id.name tag = some artifact.versionHash) := by
  obtain ⟨⟨v, before, rfl⟩, v', after, rfl⟩ := download_amid_ok downloaded
  rw [← State.after_append] at after
  have sound := after_sound .nil (earlier ++ others) (w := start)
  have member' := List.mem_of_find?_eq_some after
  have addressed := sound.addressed v' member'
  refine ⟨⟨v, List.mem_of_find?_eq_some before, Versions.resolve_name before, rfl⟩,
    ⟨v', member', Versions.resolve_name after, rfl⟩, ?_⟩
  rw [← addressed]
  cases reference : id.reference with
  | hash hash =>
    have sameHash := Versions.resolve_hash_found reference after
    exact sameHash.trans (Versions.resolve_hash_found reference before).symm
  | tag tag =>
    have mapped := resolved_mapped reference after
    refine ⟨resolved_mapped reference before, mapped, ?_⟩
    rw [mapped, Option.some_inj]

/-! A download by a tag beside a client that deletes the version and uploads it again a second
later, and beside one that uploads another version under the tag. -/

def toolTag : Identifier := ⟨toolName, .tag "v1", by decide⟩

def uploadsTool (i : Nat) (content : String) : List Step := [
  .openUpload i,
  .send i (.metadata ⟨toolName, ["v1"]⟩),
  .send i (.content content.toUTF8),
  .close i]

def uploadedTool (now : Timestamp) : Version where
  name := toolName
  hash := "ba7816bf8f01cfea414140de5dae2223b00361a396177a9cb410ff61f20015ad"
  content := "abc".toUTF8
  tags := ["v1"]
  pulls := 0
  created := now

theorem toolTag_resolves :
    Versions.resolve (start.after (uploadsTool 0 "abc")).store.versions toolTag =
      some (uploadedTool ⟨0, 0⟩) := by decide +kernel

theorem tool_downloads_beside_reupload :
    (download (amid (.delete toolTag :: .clock ⟨1, 0⟩ :: uploadsTool 1 "abc")) toolTag
      (start.after (uploadsTool 0 "abc"))).1 = .ok ((uploadedTool ⟨0, 0⟩).record, "abc".toUTF8) ∧
    Sha256.hex "abc".toUTF8 = (uploadedTool ⟨0, 0⟩).record.versionHash := by
  let others : List Step := .delete toolTag :: .clock ⟨1, 0⟩ :: uploadsTool 1 "abc"
  have after : Versions.resolve
      ((start.after (uploadsTool 0 "abc")).after others).store.versions toolTag =
        some (uploadedTool ⟨1, 0⟩) := by decide +kernel
  have downloaded : (download (amid others) toolTag (start.after (uploadsTool 0 "abc"))).1 =
      .ok ((uploadedTool ⟨0, 0⟩).record, "abc".toUTF8) := by
    simp only [download_amid, toolTag_resolves, after]
    rfl
  have mapped : TagMap.after (uploadsTool 0 "abc" ++ others) toolName "v1" =
      some (uploadedTool ⟨0, 0⟩).record.versionHash := by decide +kernel
  obtain ⟨_, _, _, _, sameHash⟩ := download_beside_others _ _ toolTag downloaded
  exact ⟨downloaded, sameHash.mpr mapped⟩

/-- Where the tag moves between lookup and pull, the record is not that of the content. -/
theorem moved_tag_parts_record_from_body :
    (download (amid (uploadsTool 1 "abcd")) toolTag (start.after (uploadsTool 0 "abc"))).1 =
      .ok ((uploadedTool ⟨0, 0⟩).record, "abcd".toUTF8) ∧
    Sha256.hex "abcd".toUTF8 ≠ (uploadedTool ⟨0, 0⟩).record.versionHash := by
  have after : (Versions.resolve ((start.after (uploadsTool 0 "abc")).after
      (uploadsTool 1 "abcd")).store.versions toolTag).map Version.content =
        some "abcd".toUTF8 := by decide +kernel
  obtain ⟨moved, found, content⟩ := Option.map_eq_some_iff.mp after
  refine ⟨?_, by decide +kernel⟩
  simp only [download_amid, toolTag_resolves, found, content]

end Depot.Traffic
