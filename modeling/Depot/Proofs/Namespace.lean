import Depot.Proofs.Versions
import Depot.Store.Basic

/-! The versions of one name. A call under the name is answered by them, and leaves versions of the
name that depend on them only; a change under another name leaves them as they are. Times of
creation are left out of sight. -/
namespace Depot

def Version.undated (v : Version) : Version := { v with created := ⟨0, 0⟩ }

def Artifact.undated (a : Artifact) : Artifact := { a with created := ⟨0, 0⟩ }

namespace Version

variable (v w : Version)

@[simp] theorem undated_name : v.undated.name = v.name := rfl
@[simp] theorem undated_hash : v.undated.hash = v.hash := rfl
@[simp] theorem undated_content : v.undated.content = v.content := rfl
@[simp] theorem undated_tags : v.undated.tags = v.tags := rfl
@[simp] theorem record_undated : v.undated.record = v.record.undated := rfl

theorem keeping_undated : Keeping undated := ⟨fun _ => rfl, fun _ => rfl, fun _ => rfl⟩

def Timeless (change : Version → Version) : Prop := ∀ v, (change v).undated = change v.undated

theorem timeless_pulled : Timeless fun v => { v with pulls := v.pulls + 1 } := fun _ => rfl

theorem timeless_untagged (tag : String) : Timeless fun v => { v with tags := v.tags.erase tag } :=
  fun _ => rfl

theorem timeless_retagged (name : QualifiedName) (hash tag : String) :
    Timeless fun v => v.retagged name hash tag := by
  intro v
  by_cases named : v.name = name
  · by_cases keyed : v.hash = hash
    · by_cases carried : tag ∈ v.tags
      · simp [retagged, named, keyed, carried]
      · simp [retagged, named, keyed, carried, undated]
    · simp [retagged, named, keyed, undated]
  · simp [retagged, named]

theorem timeless_retaggedAll (name : QualifiedName) (hash : String) (tags : List String) :
    Timeless fun v => v.retaggedAll name hash tags := by
  intro v
  induction tags generalizing v with
  | nil => rfl
  | cons tag tags ih =>
    have first := timeless_retagged name hash tag v
    simp only [retaggedAll, List.foldl_cons] at first ih ⊢
    rw [ih, first]

theorem Timeless.onKey {change : Version → Version} (timeless : Timeless change)
    (name : QualifiedName) (hash : String) :
    Timeless fun v => if v.hasKey name hash then change v else v := by
  intro v
  have sameKey : v.undated.hasKey name hash = v.hasKey name hash := rfl
  simp only [sameKey]
  split
  · exact timeless v
  · rfl

end Version

namespace Versions

open Version (Timeless Keeping)

variable {versions : List Version} {name other : QualifiedName} {hash : String}
  {change : Version → Version}

def ofName (name : QualifiedName) (versions : List Version) : List Version :=
  versions.filter fun v => v.name = name

/-- The versions of one name, whenever they were created. -/
def under (name : QualifiedName) (versions : List Version) : List Version :=
  (ofName name versions).map Version.undated

theorem ofName_cons_same {v : Version} (named : v.name = name) :
    ofName name (v :: versions) = v :: ofName name versions :=
  List.filter_cons_of_pos (by simpa using named)

theorem ofName_cons_other {v : Version} (apart : v.name ≠ name) :
    ofName name (v :: versions) = ofName name versions :=
  List.filter_cons_of_neg (by simpa using apart)

/-! ### Changes under another name -/

theorem ofName_map_other (keeping : Keeping change)
    (spares : ∀ v, v.name = name → change v = v) :
    ofName name (versions.map change) = ofName name versions := by
  induction versions with
  | nil => rfl
  | cons v rest ih =>
    rw [List.map_cons]
    by_cases named : v.name = name
    · rw [spares v named, ofName_cons_same named, ofName_cons_same named, ih]
    · rw [ofName_cons_other named, ofName_cons_other (by rwa [keeping.name]), ih]

theorem ofName_update_other (keeping : Keeping change) (apart : other ≠ name) :
    ofName name (update versions other hash change) = ofName name versions := by
  apply ofName_map_other (keeping.onKey other hash)
  intro v named
  have unkeyed : v.hasKey other hash = false := by simp [Version.hasKey, named, apart.symm]
  simp [unkeyed]

theorem ofName_erase_other (apart : other ≠ name) :
    ofName name (erase versions other hash) = ofName name versions := by
  rw [ofName, erase, List.filter_filter, ofName]
  apply List.filter_congr
  intro v _
  by_cases named : v.name = name
  · simp [Version.hasKey, named, apart.symm]
  · simp [named]

theorem ofName_retag_other (apart : other ≠ name) (tag : String) :
    ofName name (retag versions other hash tag) = ofName name versions := by
  apply ofName_map_other (Version.keeping_retagged other hash tag)
  intro v named
  simp [Version.retagged, named, apart.symm]

theorem ofName_retagAll_other (apart : other ≠ name) (tags : List String) :
    ofName name (retagAll versions other hash tags) = ofName name versions := by
  induction tags generalizing versions with
  | nil => rfl
  | cons tag tags ih => exact ih.trans (ofName_retag_other apart tag)

theorem ofName_insert_other {v : Version} (apart : v.name ≠ name) :
    ofName name (insert v versions) = ofName name versions := by
  induction versions with
  | nil => simp [insert, ofName, apart]
  | cons w rest ih =>
    simp only [insert]
    split
    · exact ofName_cons_other apart
    · by_cases named : w.name = name
      · rw [ofName_cons_same named, ofName_cons_same named, ih]
      · rw [ofName_cons_other named, ofName_cons_other named, ih]

/-! ### Changes under the name itself -/

theorem under_map (keeping : Keeping change) (timeless : Timeless change) :
    under name (versions.map change) = (under name versions).map change := by
  induction versions with
  | nil => rfl
  | cons v rest ih =>
    rw [under] at ih
    rw [List.map_cons, under, under]
    by_cases named : v.name = name
    · rw [ofName_cons_same named, ofName_cons_same (by rwa [keeping.name]), List.map_cons,
        List.map_cons, List.map_cons, timeless v, ih, under]
    · rw [ofName_cons_other named, ofName_cons_other (by rwa [keeping.name]), ih, under]

theorem under_erase (name : QualifiedName) (hash : String) :
    under name (erase versions name hash) = erase (under name versions) name hash := by
  simp only [under, ofName, erase, List.filter_map, List.filter_filter]
  congr 1
  apply List.filter_congr
  intro v _
  exact Bool.and_comm _ _

theorem insert_least {v : Version} (least : ∀ w ∈ versions, Version.compare v w = .lt) :
    insert v versions = v :: versions := by
  cases versions with
  | nil => rfl
  | cons w rest => simp [insert, least w List.mem_cons_self]

theorem ofName_insert (ordered : Ordered versions) (v : Version) :
    ofName v.name (insert v versions) = insert v (ofName v.name versions) := by
  induction versions with
  | nil => simp [insert, ofName]
  | cons w rest ih =>
    obtain ⟨least, restOrdered⟩ := List.pairwise_cons.mp ordered
    by_cases before : (Version.compare v w).isLT = true
    · -- What is less than the first is less than all.
      have less : Version.compare v w = .lt := by simpa using before
      have first : ∀ x ∈ ofName v.name (w :: rest), Version.compare v x = .lt := by
        intro x member
        rcases List.mem_cons.mp (List.mem_filter.mp member).1 with rfl | member
        · exact less
        · exact Std.TransCmp.lt_trans less (least x member)
      rw [insert_least first]
      simp [insert, before, ofName]
    · rw [insert, if_neg before]
      by_cases named : w.name = v.name
      · rw [ofName_cons_same named, ofName_cons_same named, insert, if_neg before, ih restOrdered]
      · rw [ofName_cons_other named, ofName_cons_other named, ih restOrdered]

theorem under_insert (ordered : Ordered versions) (v : Version) :
    under v.name (insert v versions) = insert v.undated (under v.name versions) := by
  rw [under, ofName_insert ordered, map_insert Version.keeping_undated, under]

/-! ### Finding versions of the name -/

theorem find?_under {meant : Version → Bool} (timeless : ∀ v, meant v.undated = meant v)
    (own : ∀ v, meant v = true → v.name = name) :
    (under name versions).find? meant = (versions.find? meant).map Version.undated := by
  have sameMeant : meant ∘ Version.undated = meant := funext timeless
  rw [under, List.find?_map, sameMeant, ofName, List.find?_filter]
  congr 2
  funext v
  cases found : meant v with
  | true => simp [own v found]
  | false => simp

theorem resolve_under {id : Identifier} (named : id.name = name) :
    resolve (under name versions) id = (resolve versions id).map Version.undated := by
  apply find?_under
  · exact fun _ => rfl
  · intro v meant
    unfold Version.isSelected at meant
    split at meant
    · rw [Version.hasKey_iff] at meant
      exact meant.1.trans named
    · exact (of_decide_eq_true meant).1.trans named

theorem lookup_under (name : QualifiedName) (hash : String) :
    lookup (under name versions) name hash = (lookup versions name hash).map Version.undated :=
  find?_under (fun _ => rfl) fun v key => ((v.hasKey_iff name hash).mp key).1

end Versions

/-- The versions are the same but for their time. -/
structure Version.Twins (v w : Version) : Prop where
  undated : v.undated = w.undated
  name : v.name = w.name
  hash : v.hash = w.hash
  content : v.content = w.content
  tags : v.tags = w.tags

theorem Version.twins_of_undated {v w : Version} (same : v.undated = w.undated) : v.Twins w := by
  refine ⟨same, ?_, ?_, ?_, ?_⟩
  · rw [← v.undated_name, same, undated_name]
  · rw [← v.undated_hash, same, undated_hash]
  · rw [← v.undated_content, same, undated_content]
  · rw [← v.undated_tags, same, undated_tags]

inductive Found : Option Version → Option Version → Prop where
  | nothing : Found none none
  | twins {v w : Version} (twins : v.Twins w) : Found (some v) (some w)

theorem Found.of_map {a b : Option Version}
    (same : a.map Version.undated = b.map Version.undated) : Found a b := by
  cases a with
  | none =>
    cases b with
    | none => exact .nothing
    | some w => simp at same
  | some v =>
    cases b with
    | none => simp at same
    | some w => exact .twins (Version.twins_of_undated (Option.some.inj same))

namespace Store

open Versions (under ofName Ordered)

def Alike (name : QualifiedName) (s t : Store) : Prop :=
  under name s.versions = under name t.versions

variable {name : QualifiedName} {s t : Store} (alike : Alike name s t)
include alike

theorem Alike.resolve {id : Identifier} (named : id.name = name) :
    Found (Versions.resolve s.versions id) (Versions.resolve t.versions id) := by
  apply Found.of_map
  rw [← Versions.resolve_under named, ← Versions.resolve_under named, alike]

theorem Alike.lookup (hash : String) :
    Found (Versions.lookup s.versions name hash) (Versions.lookup t.versions name hash) := by
  apply Found.of_map
  rw [← Versions.lookup_under, ← Versions.lookup_under, alike]

theorem Alike.map {change : Version → Version} (keeping : Version.Keeping change)
    (timeless : Version.Timeless change) :
    under name (s.versions.map change) = under name (t.versions.map change) := by
  rw [Versions.under_map keeping timeless, Versions.under_map keeping timeless, alike]

theorem get_alike {id : Identifier} (named : id.name = name) :
    (s.get id).map Artifact.undated = (t.get id).map Artifact.undated := by
  have found := alike.resolve named
  unfold get
  generalize Versions.resolve s.versions id = foundS at found ⊢
  generalize Versions.resolve t.versions id = foundT at found ⊢
  cases found with
  | nothing => rfl
  | twins twins => simp only [Except.map, ← Version.record_undated, twins.undated]

theorem pull_alike {id : Identifier} (named : id.name = name) :
    (s.pull id).1 = (t.pull id).1 ∧ Alike name (s.pull id).2 (t.pull id).2 := by
  have found := alike.resolve named
  unfold pull
  generalize Versions.resolve s.versions id = foundS at found ⊢
  generalize Versions.resolve t.versions id = foundT at found ⊢
  cases found with
  | nothing => exact ⟨rfl, alike⟩
  | @twins v w twins =>
    simp only [twins.name, twins.hash, twins.content]
    refine ⟨trivial, ?_⟩
    exact alike.map (Version.keeping_pulled.onKey w.name w.hash)
      (Version.timeless_pulled.onKey w.name w.hash)

theorem delete_alike {id : Identifier} (named : id.name = name) :
    (s.delete id).1.map Artifact.undated = (t.delete id).1.map Artifact.undated ∧
      Alike name (s.delete id).2 (t.delete id).2 := by
  have found := alike.resolve named
  unfold delete
  generalize Versions.resolve s.versions id = foundS at found ⊢
  generalize resolved : Versions.resolve t.versions id = foundT at found ⊢
  cases found with
  | nothing => exact ⟨rfl, alike⟩
  | @twins v w twins =>
    have own : w.name = name := (Versions.resolve_name resolved).trans named
    simp only [Except.map, ← Version.record_undated, twins.undated, twins.name, twins.hash, own]
    refine ⟨trivial, ?_⟩
    rw [Alike, Versions.under_erase, Versions.under_erase, alike]

theorem addTag_alike {r : TagRequest} (named : r.name = name) :
    (s.addTag r).1 = (t.addTag r).1 ∧ Alike name (s.addTag r).2 (t.addTag r).2 := by
  subst named
  have found := alike.lookup r.versionHash
  unfold addTag
  generalize Versions.lookup s.versions r.name r.versionHash = foundS at found ⊢
  generalize Versions.lookup t.versions r.name r.versionHash = foundT at found ⊢
  split
  · exact ⟨rfl, alike⟩
  · cases found with
    | nothing => exact ⟨rfl, alike⟩
    | twins twins =>
      exact ⟨rfl, alike.map (Version.keeping_retagged r.name r.versionHash r.tag)
        (Version.timeless_retagged r.name r.versionHash r.tag)⟩

theorem removeTag_alike {r : TagRequest} (named : r.name = name) :
    (s.removeTag r).1 = (t.removeTag r).1 ∧ Alike name (s.removeTag r).2 (t.removeTag r).2 := by
  subst named
  have found := alike.lookup r.versionHash
  unfold removeTag
  generalize Versions.lookup s.versions r.name r.versionHash = foundS at found ⊢
  generalize Versions.lookup t.versions r.name r.versionHash = foundT at found ⊢
  cases found with
  | nothing => exact ⟨rfl, alike⟩
  | twins twins =>
    simp only [twins.tags]
    split
    · exact ⟨rfl, alike.map ((Version.keeping_untagged r.tag).onKey r.name r.versionHash)
        ((Version.timeless_untagged r.tag).onKey r.name r.versionHash)⟩
    · exact ⟨rfl, alike⟩

omit alike in
theorem query_under {q : ArtifactQuery} (own : ∀ other, q.accepts other = true → other = name) :
    (s.query q).map Artifact.undated =
      ((under name s.versions).filter fun v => q.accepts v.name).map Version.record := by
  simp only [query, under, ofName, List.map_map, List.filter_map, List.filter_filter]
  have sameRecord : Artifact.undated ∘ Version.record = Version.record ∘ Version.undated := rfl
  rw [sameRecord]
  congr 1
  apply List.filter_congr
  intro v _
  simp only [Function.comp_apply, Version.undated_name]
  cases accepted : q.accepts v.name with
  | true => simp [own v.name accepted]
  | false => rfl

theorem query_alike {q : ArtifactQuery} (own : ∀ other, q.accepts other = true → other = name) :
    (s.query q).map Artifact.undated = (t.query q).map Artifact.undated := by
  rw [query_under own, query_under own, alike]

theorem addContent_alike (orderedS : Ordered s.versions) (orderedT : Ordered t.versions)
    (hash : String) (content : ByteArray) :
    Alike name (s.addContent name hash content) (t.addContent name hash content) := by
  have found := alike.lookup hash
  unfold addContent
  generalize Versions.lookup s.versions name hash = foundS at found ⊢
  generalize Versions.lookup t.versions name hash = foundT at found ⊢
  cases found with
  | nothing =>
    have addedS := Versions.under_insert orderedS (s.freshVersion name hash content)
    have addedT := Versions.under_insert orderedT (t.freshVersion name hash content)
    have sameUnder : under name s.versions = under name t.versions := alike
    refine addedS.trans (Eq.trans ?_ addedT.symm)
    exact congrArg (Versions.insert (s.freshVersion name hash content).undated) sameUnder
  | twins _ => exact alike

/-- What is committed: the version that was there, or a fresh one. -/
theorem base_alike (hash : String) (content : ByteArray) :
    ((Versions.lookup s.versions name hash).getD (s.freshVersion name hash content)).undated =
      ((Versions.lookup t.versions name hash).getD (t.freshVersion name hash content)).undated := by
  have found := alike.lookup hash
  generalize Versions.lookup s.versions name hash = foundS at found ⊢
  generalize Versions.lookup t.versions name hash = foundT at found ⊢
  cases found with
  | nothing => rfl
  | twins twins => exact twins.undated

theorem commit_alike {metadata : UploadMetadata} (named : metadata.name = name)
    (orderedS : Ordered s.versions) (orderedT : Ordered t.versions) (content : ByteArray) :
    (s.commit metadata content).1.undated = (t.commit metadata content).1.undated ∧
      Alike name (s.commit metadata content).2 (t.commit metadata content).2 := by
  subst named
  let hash := Sha256.hex content
  have retagging := Version.timeless_retaggedAll metadata.name hash metadata.tags
  constructor
  · have retagged := congrArg (fun v => v.retaggedAll metadata.name hash metadata.tags)
      (base_alike alike hash content)
    exact congrArg Version.record ((retagging _).trans (retagged.trans (retagging _).symm))
  · simp only [commit, Alike, Versions.retagAll_eq_map]
    exact (addContent_alike alike orderedS orderedT hash content).map
      (Version.keeping_retaggedAll metadata.name hash metadata.tags) retagging

end Store

end Depot
