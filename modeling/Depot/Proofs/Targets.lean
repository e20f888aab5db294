import Depot.Proofs.CommitEffect
import Mathlib.Data.List.Nodup

/-! What a call changes. A version stands at one place of a store; deletes, tags taken off and pulls
change that place and no other. What a deleted version was found by, and a tag that was taken off,
finds nothing under the name any more: at most one version of a name has a tag, so there is no other
that would come forward. -/
namespace Depot

open Versions (Sound)

/-- A tag that was put on last is the one that is taken off. -/
theorem Version.untagged_retagged {v : Version} {name : QualifiedName} {hash tag : String}
    (uncarried : v.name = name → tag ∉ v.tags) :
    let tagged := v.retagged name hash tag
    (if tagged.hasKey name hash then { tagged with tags := tagged.tags.erase tag } else tagged) =
      v := by
  by_cases named : v.name = name
  · subst named
    have missing := uncarried rfl
    by_cases keyed : v.hash = hash
    · subst keyed
      simp [hasKey, retagged, missing, List.erase_append_right]
    · have swept : v.tags.filter (· ≠ tag) = v.tags :=
        List.filter_eq_self.mpr fun other carried => by
          simpa using ne_of_mem_of_not_mem carried missing
      simp only [hasKey, retagged, keyed, swept, ne_eq, not_true_eq_false, not_false_eq_true,
        if_false, if_true, and_false, decide_false, Bool.false_eq_true]
  · simp [hasKey, retagged, named]

namespace Versions

theorem untag_retag {versions : List Version} {name : QualifiedName} {hash tag : String}
    (uncarried : ∀ w ∈ versions, w.name = name → tag ∉ w.tags) :
    update (retag versions name hash tag) name hash
      (fun v => { v with tags := v.tags.erase tag }) = versions := by
  rw [update, retag, List.map_map]
  conv => rhs; rw [← List.map_id versions]
  exact List.map_congr_left fun w member => Version.untagged_retagged (uncarried w member)

structure Place (versions front : List Version) (v : Version) (back : List Version) : Prop where
  whole : versions = front ++ v :: back
  alone : ∀ w ∈ front ++ back, ¬ (w.name = v.name ∧ w.hash = v.hash)

variable {versions front back : List Version} {v : Version}

/-- In front of a version everything is less, behind it everything is greater. -/
theorem Ordered.exists_place (ordered : Ordered versions) (stored : v ∈ versions) :
    ∃ front back, Place versions front v back := by
  obtain ⟨front, back, rfl⟩ := List.append_of_mem stored
  obtain ⟨_, fromHere, before⟩ := List.pairwise_append.mp ordered
  have behind := (List.pairwise_cons.mp fromHere).1
  refine ⟨front, back, rfl, fun w member ⟨sameName, sameHash⟩ => ?_⟩
  rcases List.mem_append.mp member with inFront | inBack
  · have less := before w inFront v List.mem_cons_self
    rw [(Version.compare_eq_iff w v).mpr ⟨sameName, sameHash⟩] at less
    contradiction
  · have less := behind w inBack
    rw [(Version.compare_eq_iff v w).mpr ⟨sameName.symm, sameHash.symm⟩] at less
    contradiction

namespace Place

variable (place : Place versions front v back)
include place

theorem unkeyed {w : Version} (other : w ∈ front ++ back) : w.hasKey v.name v.hash = false := by
  simpa [Version.hasKey] using place.alone w other

theorem erase : erase versions v.name v.hash = front ++ back := by
  have others : ∀ w ∈ front ++ back, decide (¬ w.hasKey v.name v.hash = true) = true := by
    intro w other
    simp [place.unkeyed other]
  rw [place.whole, Versions.erase, List.filter_append, List.filter_cons_of_neg (by simp),
    ← List.filter_append, List.filter_eq_self.mpr others]

theorem update (change : Version → Version) :
    update versions v.name v.hash change = front ++ change v :: back := by
  have others : ∀ w ∈ front ++ back, (if w.hasKey v.name v.hash then change w else w) = w := by
    intro w other
    simp [place.unkeyed other]
  have spared : ∀ part ⊆ front ++ back,
      part.map (fun w => if w.hasKey v.name v.hash then change w else w) = part := by
    intro part inside
    exact (List.map_congr_left fun w member => others w (inside member)).trans (List.map_id part)
  rw [place.whole, Versions.update, List.map_append, List.map_cons, if_pos (by simp),
    spared front (List.subset_append_left front back),
    spared back (List.subset_append_right front back)]

/-- No other version of the name has a tag of this one. -/
theorem tag_alone (sound : Sound versions) {tag : String} (carried : tag ∈ v.tags) :
    ∀ w ∈ front ++ back, w.name = v.name → tag ∉ w.tags := by
  intro w other sameName also
  have here : v ∈ versions := by simp [place.whole]
  have there : w ∈ versions := by
    rw [place.whole]
    exact ((List.sublist_cons_self v back).append_left front).subset other
  exact place.alone w other ⟨sameName, sound.single w there v here sameName tag also carried⟩

end Place

end Versions

open Versions (Place)

namespace Store

variable {s : Store} {id : Identifier} {v : Version}

theorem delete_eq_get (s : Store) (id : Identifier) : (s.delete id).1 = s.get id := by
  cases found : Versions.resolve s.versions id with
  | none => rw [(misses_of_resolve found).delete, (misses_of_resolve found).get]
  | some v => rw [(acts_of_resolve found).delete, (acts_of_resolve found).get]

theorem exists_of_get {a : Artifact} (got : s.get id = .ok a) :
    ∃ v, Versions.resolve s.versions id = some v ∧ v.record = a := by
  cases found : Versions.resolve s.versions id with
  | none => simp [(misses_of_resolve found).get] at got
  | some v => exact ⟨v, rfl, by simpa [(acts_of_resolve found).get] using got⟩

theorem exists_of_pull {frames : List ByteArray} (pulled : (s.pull id).1 = .ok frames) :
    ∃ v, Versions.resolve s.versions id = some v ∧ Framing.cut maxFrameSize v.content = frames := by
  cases found : Versions.resolve s.versions id with
  | none => simp [(misses_of_resolve found).pull] at pulled
  | some v => exact ⟨v, rfl, by simpa [(acts_of_resolve found).pull] using pulled⟩

theorem addTag_ok_iff {r : TagRequest} : (s.addTag r).1 = .ok () ↔
    r.tag ≠ "" ∧ (Versions.lookup s.versions r.name r.versionHash).isSome := by
  unfold addTag
  split
  next empty => simp [empty]
  next nonempty =>
    cases Versions.lookup s.versions r.name r.versionHash <;> simp [nonempty]

theorem addTag_added {r : TagRequest} (added : (s.addTag r).1 = .ok ()) :
    (s.addTag r).2 =
      { s with versions := Versions.retag s.versions r.name r.versionHash r.tag } := by
  obtain ⟨nonempty, present⟩ := addTag_ok_iff.mp added
  obtain ⟨v, found⟩ := Option.isSome_iff_exists.mp present
  simp only [addTag, nonempty, if_false, found]

theorem exists_of_removeTag {r : TagRequest} (removed : (s.removeTag r).1 = .ok ()) :
    ∃ v, Versions.lookup s.versions r.name r.versionHash = some v ∧ r.tag ∈ v.tags ∧
      (s.removeTag r).2 = { s with
        versions := Versions.update s.versions r.name r.versionHash
          fun v => { v with tags := v.tags.erase r.tag } } := by
  unfold removeTag at removed ⊢
  split at removed
  · contradiction
  next v found =>
    split at removed
    next carried => exact ⟨v, found, carried, by simp [carried]⟩
    · contradiction

theorem tag_misses (sound : Sound s.versions) {name : QualifiedName} {tag : String}
    (uncarried : ∀ w ∈ s.versions, w.name = name → tag ∉ w.tags) (named : id.name = name)
    (byTag : id.reference = .tag tag) : s.Misses id := by
  apply misses_of_resolve
  cases found : Versions.resolve s.versions id with
  | none => rfl
  | some w =>
    obtain ⟨stored, sameName, carried⟩ := (sound.resolve_tag byTag).mp found
    exact absurd carried (uncarried w stored (sameName.trans named))

theorem hash_misses {name : QualifiedName} {hash : String}
    (gone : ∀ w ∈ s.versions, ¬ (w.name = name ∧ w.hash = hash)) (named : id.name = name)
    (byHash : id.reference = .hash hash) : s.Misses id := by
  apply misses_of_resolve
  rw [Versions.resolve_hash byHash, named]
  exact Versions.lookup_eq_none_iff.mpr gone

theorem delete_at_place (sound : Sound s.versions)
    (found : Versions.resolve s.versions id = some v) :
    ∃ front back, Place s.versions front v back ∧
      (s.delete id).2 = { s with versions := front ++ back } := by
  obtain ⟨front, back, place⟩ := sound.ordered.exists_place (List.mem_of_find?_eq_some found)
  exact ⟨front, back, place, by rw [(acts_of_resolve found).delete, place.erase]⟩

/-- Nothing that a deleted version was found by finds anything. -/
theorem deleted_misses (sound : Sound s.versions)
    (found : Versions.resolve s.versions id = some v) {later : Identifier}
    (named : later.name = v.name)
    (former : later.reference = .hash v.hash ∨ ∃ tag ∈ v.tags, later.reference = .tag tag) :
    (s.delete id).2.Misses later := by
  obtain ⟨front, back, place, deleted⟩ := delete_at_place sound found
  rcases former with byHash | ⟨tag, carried, byTag⟩
  · refine hash_misses ?_ named byHash
    rw [deleted]
    exact place.alone
  · refine tag_misses (delete_sound sound id) ?_ named byTag
    rw [deleted]
    exact place.tag_alone sound carried

theorem pull_at_place (sound : Sound s.versions)
    (found : Versions.resolve s.versions id = some v) :
    ∃ front back, Place s.versions front v back ∧
      (s.pull id).2 = { s with
        versions := front ++ { v with pulls := v.pulls + 1 } :: back
        transfers := s.transfers ++
          [.pull id ((Framing.cut maxFrameSize v.content).map ByteArray.size)] } := by
  obtain ⟨front, back, place⟩ := sound.ordered.exists_place (List.mem_of_find?_eq_some found)
  exact ⟨front, back, place, by rw [(acts_of_resolve found).pull, place.update]; rfl⟩

theorem removeTag_at_place (sound : Sound s.versions) {r : TagRequest}
    (removed : (s.removeTag r).1 = .ok ()) :
    ∃ front v back before behind, Place s.versions front v back ∧
      v.name = r.name ∧ v.hash = r.versionHash ∧ v.tags = before ++ r.tag :: behind ∧
      (s.removeTag r).2 =
        { s with versions := front ++ { v with tags := before ++ behind } :: back } := by
  obtain ⟨v, found, carried, after⟩ := exists_of_removeTag removed
  obtain ⟨stored, sameName, sameHash⟩ := Versions.lookup_found found
  obtain ⟨front, back, place⟩ := sound.ordered.exists_place stored
  obtain ⟨before, behind, _, whole, erased⟩ := List.exists_erase_eq carried
  refine ⟨front, v, back, before, behind, place, sameName, sameHash, whole, ?_⟩
  rw [after, ← sameName, ← sameHash, place.update, erased]

/-- A tag that was taken off is on no version of the name. -/
theorem removeTag_uncarried (sound : Sound s.versions) {r : TagRequest}
    (removed : (s.removeTag r).1 = .ok ()) :
    ∀ w ∈ (s.removeTag r).2.versions, w.name = r.name → r.tag ∉ w.tags := by
  obtain ⟨front, v, back, before, behind, place, sameName, _, whole, after⟩ :=
    removeTag_at_place sound removed
  have carried : r.tag ∈ v.tags := by simp [whole]
  have once : r.tag ∉ before ++ behind := by
    have distinct := sound.distinct v (by simp [place.whole])
    rw [whole, List.nodup_middle] at distinct
    exact (List.nodup_cons.mp distinct).1
  rw [after]
  intro w member named
  rcases List.mem_append.mp member with inFront | fromHere
  · exact place.tag_alone sound carried w (List.mem_append_left _ inFront)
      (named.trans sameName.symm)
  · rcases List.mem_cons.mp fromHere with rfl | inBack
    · exact once
    · exact place.tag_alone sound carried w (List.mem_append_right _ inBack)
        (named.trans sameName.symm)

/-- Adding a tag and taking it off again undoes each other where nobody had the tag. -/
theorem addTag_removeTag {r : TagRequest} (sound : Sound s.versions)
    (added : (s.addTag r).1 = .ok ()) :
    ((s.addTag r).2.removeTag r).1 = .ok () ∧
      (((s.addTag r).2.removeTag r).2 = s ↔
        ∀ w ∈ s.versions, w.name = r.name → r.tag ∉ w.tags) := by
  obtain ⟨v, found⟩ := Option.isSome_iff_exists.mp (addTag_ok_iff.mp added).2
  have tagged := addTag_added added
  obtain ⟨_, sameName, sameHash⟩ := Versions.lookup_found found
  have keeping := Version.keeping_retagged r.name r.versionHash r.tag
  have target : Versions.lookup (s.addTag r).2.versions r.name r.versionHash =
      some (v.retagged r.name r.versionHash r.tag) := by
    rw [tagged, Versions.retag, Versions.lookup_map keeping, found, Option.map_some]
  have carried : r.tag ∈ (v.retagged r.name r.versionHash r.tag).tags := by
    simp [Version.mem_retagged, sameName, sameHash]
  have removed : ((s.addTag r).2.removeTag r).1 = .ok () := by simp [removeTag, target, carried]
  refine ⟨removed, fun restored => ?_, fun uncarried => ?_⟩
  · have gone := removeTag_uncarried (addTag_sound sound r) removed
    rwa [restored] at gone
  · obtain ⟨_, _, _, after⟩ := exists_of_removeTag removed
    rw [after, tagged, Versions.untag_retag uncarried]

end Store

namespace Traffic

/-- A delete, a tag taken off and a pull that succeed change one place of the store, and nothing
else but the log of a pull. A deleted version is answered as it was found just before, and neither
its hash nor a tag that it had means anything under its name afterwards. A tag that is taken off was
once on the version named, leaves the others in their order and means nothing under the name any
more. Adding a tag to a stored version and taking it off again leaves the store as it was exactly if
no version of the name had the tag. -/
theorem calls_touch_only_their_target {s : Store} (reachable : Reachable s) :
    (∀ id a, (s.delete id).1 = .ok a → s.get id = .ok a ∧
      ∃ front v back, Place s.versions front v back ∧ v.record = a ∧
        (s.delete id).2 = { s with versions := front ++ back } ∧
        ∀ later : Identifier, later.name = v.name →
          (later.reference = .hash v.hash ∨ ∃ tag ∈ v.tags, later.reference = .tag tag) →
          (s.delete id).2.Misses later) ∧
    (∀ r, (s.removeTag r).1 = .ok () →
      (∃ front v back before behind, Place s.versions front v back ∧
        v.name = r.name ∧ v.hash = r.versionHash ∧ v.tags = before ++ r.tag :: behind ∧
        (s.removeTag r).2 =
          { s with versions := front ++ { v with tags := before ++ behind } :: back }) ∧
      (∀ w ∈ (s.removeTag r).2.versions, w.name = r.name → r.tag ∉ w.tags) ∧
      ∀ later : Identifier, later.name = r.name → later.reference = .tag r.tag →
        (s.removeTag r).2.Misses later) ∧
    (∀ r, r.tag ≠ "" → (∃ v ∈ s.versions, v.name = r.name ∧ v.hash = r.versionHash) →
      (s.addTag r).1 = .ok () ∧ ((s.addTag r).2.removeTag r).1 = .ok () ∧
      (((s.addTag r).2.removeTag r).2 = s ↔
        ∀ w ∈ s.versions, w.name = r.name → r.tag ∉ w.tags)) ∧
    ∀ id frames, (s.pull id).1 = .ok frames →
      ∃ front v back, Place s.versions front v back ∧ s.get id = .ok v.record ∧
        (s.pull id).2 = { s with
          versions := front ++ { v with pulls := v.pulls + 1 } :: back
          transfers := s.transfers ++ [.pull id (frames.map ByteArray.size)] } := by
  have sound := reachable.sound
  refine ⟨fun id a deleted => ?_, fun r removed => ?_, fun r nonempty stored => ?_,
    fun id frames pulled => ?_⟩
  · rw [Store.delete_eq_get] at deleted
    obtain ⟨v, found, answered⟩ := Store.exists_of_get deleted
    obtain ⟨front, back, place, after⟩ := Store.delete_at_place sound found
    exact ⟨deleted, front, v, back, place, answered, after,
      fun later named former => Store.deleted_misses sound found named former⟩
  · have uncarried := Store.removeTag_uncarried sound removed
    exact ⟨Store.removeTag_at_place sound removed, uncarried, fun later named byTag =>
      Store.tag_misses (Store.removeTag_sound sound r) uncarried named byTag⟩
  · obtain ⟨v, target⟩ := stored
    have found := (Versions.lookup_eq_some_iff sound.ordered).mpr target
    have added := Store.addTag_ok_iff.mpr ⟨nonempty, Option.isSome_of_eq_some found⟩
    exact ⟨added, Store.addTag_removeTag sound added⟩
  · obtain ⟨v, found, rfl⟩ := Store.exists_of_pull pulled
    obtain ⟨front, back, place, after⟩ := Store.pull_at_place sound found
    exact ⟨front, v, back, place, (Store.acts_of_resolve found).get, after⟩

/-! The second tool is deleted by one of its tags. -/

theorem second_tool_deleted :
    let s := (start.after toolRun).store
    let latest : Identifier := ⟨toolName, .tag "latest", by decide⟩
    s.get latest = .ok secondTool.record ∧
    (s.delete latest).2.Misses ⟨toolName, .tag "v2", by decide⟩ ∧
    (s.delete latest).2.Misses ⟨toolName, .hash secondTool.hash, by decide⟩ := by
  intro s latest
  have versions : s.versions = [secondTool, firstTool] := by decide +kernel
  have found : Versions.resolve s.versions latest = some secondTool := by rw [versions]; decide
  have deleted : (s.delete latest).1 = .ok secondTool.record := by
    rw [(Store.acts_of_resolve found).delete]
  obtain ⟨deletes, _⟩ := calls_touch_only_their_target ⟨toolRun, rfl⟩ (s := s)
  obtain ⟨got, front, v, back, place, answered, _, misses⟩ := deletes latest _ deleted
  obtain rfl : v = secondTool := by
    have stored : v ∈ [secondTool, firstTool] := by simp [← versions, place.whole]
    rcases List.mem_cons.mp stored with same | other
    · exact same
    · obtain rfl := List.mem_singleton.mp other
      exact absurd answered (by decide)
  exact ⟨got, misses _ rfl (.inr ⟨"v2", by decide, rfl⟩), misses _ rfl (.inl rfl)⟩

end Traffic

end Depot
