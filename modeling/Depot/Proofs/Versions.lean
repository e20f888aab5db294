import Depot.Store.Version
import Mathlib.Tactic.SplitIfs

/-! The versions of a store as a finite map. An ordered list has one version for each name and
hash, so its members say what every lookup finds; each change is stated by the members it leaves. -/
namespace Depot

instance : Ord QualifiedName := ⟨QualifiedName.compare⟩

instance : Std.TransOrd QualifiedName :=
  inferInstanceAs (Std.TransCmp (compareLex
    (compareLex (compareOn QualifiedName.source) (compareOn QualifiedName.author))
    (compareOn QualifiedName.name)))

instance : Std.TransCmp Version.compare :=
  inferInstanceAs (Std.TransCmp (compareLex (compareOn Version.name) (compareOn Version.hash)))

theorem QualifiedName.compare_eq_iff (a b : QualifiedName) : compare a b = .eq ↔ a = b := by
  cases a; cases b
  simp [compare, Ordering.then_eq_eq, and_assoc]

namespace Version

theorem compare_eq_iff (v w : Version) : compare v w = .eq ↔ v.name = w.name ∧ v.hash = w.hash := by
  simp [compare, Ordering.then_eq_eq, QualifiedName.compare_eq_iff]

@[simp] theorem record_name (v : Version) : v.record.name = v.name := rfl
@[simp] theorem record_versionHash (v : Version) : v.record.versionHash = v.hash := rfl

@[simp] theorem hasKey_iff (v : Version) (name : QualifiedName) (hash : String) :
    v.hasKey name hash = true ↔ v.name = name ∧ v.hash = hash := by
  simp [hasKey]

variable (v : Version) (name : QualifiedName) (hash tag : String)

/-- Only the tags change. -/
theorem retagged_eq :
    v.retagged name hash tag = { v with tags := (v.retagged name hash tag).tags } := by
  unfold retagged; split_ifs <;> rfl

@[simp] theorem retagged_name : (v.retagged name hash tag).name = v.name := by
  rw [retagged_eq]

@[simp] theorem retagged_hash : (v.retagged name hash tag).hash = v.hash := by
  rw [retagged_eq]

@[simp] theorem retagged_content : (v.retagged name hash tag).content = v.content := by
  rw [retagged_eq]

@[simp] theorem retagged_pulls : (v.retagged name hash tag).pulls = v.pulls := by
  rw [retagged_eq]

@[simp] theorem retagged_created : (v.retagged name hash tag).created = v.created := by
  rw [retagged_eq]

/-- A tag that moves is added to the version it goes to and leaves the others of the name. -/
theorem mem_retagged (other : String) : other ∈ (v.retagged name hash tag).tags ↔
    if v.name = name ∧ other = tag then v.hash = hash else other ∈ v.tags := by
  unfold retagged
  split_ifs <;> grind

theorem retagged_nodup (distinct : v.tags.Nodup) : (v.retagged name hash tag).tags.Nodup := by
  unfold retagged
  split_ifs with h₁ h₂ h₃
  · exact distinct
  · exact distinct.filter _
  · exact distinct
  · exact List.nodup_append.mpr ⟨distinct, by simp, by grind⟩

/-- The version after tags of its name went, one after the other, to the version with the hash. -/
def retaggedAll (tags : List String) : Version :=
  tags.foldl (fun v tag => v.retagged name hash tag) v

theorem retaggedAll_eq (tags : List String) :
    v.retaggedAll name hash tags = { v with tags := (v.retaggedAll name hash tags).tags } := by
  induction tags generalizing v with
  | nil => rfl
  | cons tag tags ih =>
    refine (ih (v.retagged name hash tag)).trans ?_
    simp only [retagged_name, retagged_hash, retagged_content, retagged_pulls, retagged_created]
    rfl

variable (tags : List String)

@[simp] theorem retaggedAll_name : (v.retaggedAll name hash tags).name = v.name := by
  rw [retaggedAll_eq]

@[simp] theorem retaggedAll_hash : (v.retaggedAll name hash tags).hash = v.hash := by
  rw [retaggedAll_eq]

@[simp] theorem retaggedAll_content : (v.retaggedAll name hash tags).content = v.content := by
  rw [retaggedAll_eq]

@[simp] theorem retaggedAll_pulls : (v.retaggedAll name hash tags).pulls = v.pulls := by
  rw [retaggedAll_eq]

@[simp] theorem retaggedAll_created : (v.retaggedAll name hash tags).created = v.created := by
  rw [retaggedAll_eq]

structure Keeping (change : Version → Version) : Prop where
  name (v : Version) : (change v).name = v.name
  hash (v : Version) : (change v).hash = v.hash
  content (v : Version) : (change v).content = v.content

theorem Keeping.onKey {change : Version → Version} (keeping : Keeping change)
    (name : QualifiedName) (hash : String) :
    Keeping fun v => if v.hasKey name hash then change v else v where
  name v := by
    split
    · exact keeping.name v
    · rfl
  hash v := by
    split
    · exact keeping.hash v
    · rfl
  content v := by
    split
    · exact keeping.content v
    · rfl

theorem keeping_pulled : Keeping fun v => { v with pulls := v.pulls + 1 } :=
  ⟨fun _ => rfl, fun _ => rfl, fun _ => rfl⟩

theorem keeping_untagged (tag : String) : Keeping fun v => { v with tags := v.tags.erase tag } :=
  ⟨fun _ => rfl, fun _ => rfl, fun _ => rfl⟩

theorem keeping_retagged (name : QualifiedName) (hash tag : String) :
    Keeping fun v => v.retagged name hash tag where
  name v := v.retagged_name name hash tag
  hash v := v.retagged_hash name hash tag
  content v := v.retagged_content name hash tag

theorem keeping_retaggedAll (name : QualifiedName) (hash : String) (tags : List String) :
    Keeping fun v => v.retaggedAll name hash tags where
  name v := v.retaggedAll_name name hash tags
  hash v := v.retaggedAll_hash name hash tags
  content v := v.retaggedAll_content name hash tags

theorem mem_retaggedAll (tags : List String) (other : String) :
    other ∈ (v.retaggedAll name hash tags).tags ↔
      if v.name = name ∧ other ∈ tags then v.hash = hash else other ∈ v.tags := by
  induction tags generalizing v with
  | nil => simp [retaggedAll]
  | cons tag tags ih =>
    rw [retaggedAll, List.foldl_cons, ← retaggedAll, ih, mem_retagged, retagged_name, retagged_hash]
    grind

end Version

namespace Versions

def Ordered (versions : List Version) : Prop :=
  versions.Pairwise fun v w => Version.compare v w = .lt

variable {versions : List Version} {name : QualifiedName} {hash : String} {v w : Version}

theorem Ordered.unique (ordered : Ordered versions) (hv : v ∈ versions) (hw : w ∈ versions)
    (sameName : v.name = w.name) (sameHash : v.hash = w.hash) : v = w := by
  let R (v w : Version) : Prop := v.name = w.name → v.hash = w.hash → v = w
  have apart {v w : Version} (less : Version.compare v w = .lt) : R v w := by
    intro sameName sameHash
    simp [(Version.compare_eq_iff v w).mpr ⟨sameName, sameHash⟩] at less
  have forward : versions.Pairwise R := ordered.imp apart
  have backward : versions.Pairwise (flip R) :=
    forward.imp fun h sameName sameHash => (h sameName.symm sameHash.symm).symm
  exact List.Pairwise.forall_of_forall_of_flip (fun _ _ _ _ => rfl) forward backward
    hv hw sameName sameHash

theorem Ordered.map (ordered : Ordered versions) {change : Version → Version}
    (keeping : Version.Keeping change) : Ordered (versions.map change) := by
  apply List.pairwise_map.mpr
  apply ordered.imp
  intro v w less
  simpa [Version.compare, keeping.name, keeping.hash] using less

theorem map_insert {change : Version → Version} (keeping : Version.Keeping change) (v : Version)
    (versions : List Version) :
    (insert v versions).map change = insert (change v) (versions.map change) := by
  induction versions with
  | nil => rfl
  | cons w rest ih =>
    have same : Version.compare (change v) (change w) = Version.compare v w := by
      simp only [Version.compare, keeping.name, keeping.hash]
    simp only [insert, List.map_cons, same]
    split
    · rfl
    · rw [List.map_cons, ih]

theorem mem_insert (v w : Version) (versions : List Version) :
    w ∈ insert v versions ↔ w = v ∨ w ∈ versions := by
  induction versions with
  | nil => simp [insert]
  | cons head rest ih =>
    simp only [insert]
    split
    · simp
    · simp only [List.mem_cons, ih, or_left_comm]

theorem Ordered.insert (ordered : Ordered versions) (v : Version)
    (fresh : ∀ w ∈ versions, ¬ (w.name = v.name ∧ w.hash = v.hash)) :
    Ordered (insert v versions) := by
  induction versions with
  | nil => exact List.pairwise_singleton _ _
  | cons head rest ih =>
    have ⟨least, restOrdered⟩ := List.pairwise_cons.mp ordered
    simp only [Versions.insert]
    split
    next less =>
      have less : Version.compare v head = .lt := by simpa using less
      refine List.pairwise_cons.mpr ⟨fun w member => ?_, ordered⟩
      rcases List.mem_cons.mp member with rfl | member
      · exact less
      · exact Std.TransCmp.lt_trans less (least w member)
    next notLess =>
      have different : Version.compare v head ≠ .eq := fun equal =>
        have ⟨sameName, sameHash⟩ := (Version.compare_eq_iff v head).mp equal
        fresh head List.mem_cons_self ⟨sameName.symm, sameHash.symm⟩
      have greater : Version.compare head v = .lt := by
        rw [← Std.OrientedCmp.gt_iff_lt]
        cases h : Version.compare v head <;> simp_all
      refine List.pairwise_cons.mpr ⟨fun w member => ?_, ih restOrdered ?_⟩
      · rcases (mem_insert v w rest).mp member with rfl | member
        · exact greater
        · exact least w member
      · exact fun w member => fresh w (List.mem_cons_of_mem _ member)

theorem retagAll_eq_map (versions : List Version) (name : QualifiedName) (hash : String)
    (tags : List String) :
    retagAll versions name hash tags = versions.map fun v => v.retaggedAll name hash tags := by
  induction tags generalizing versions with
  | nil => simp [retagAll, Version.retaggedAll]
  | cons tag tags ih =>
    rw [retagAll, List.foldl_cons, ← retagAll, ih, retag, List.map_map]
    rfl

theorem Ordered.erase (ordered : Ordered versions) (name : QualifiedName) (hash : String) :
    Ordered (erase versions name hash) := ordered.filter _

theorem mem_erase : v ∈ erase versions name hash ↔
    v ∈ versions ∧ ¬ (v.name = name ∧ v.hash = hash) := by
  simp [erase, Decidable.imp_iff_not_or]

/-- Where at most one version is meant, finding the first finds it. -/
theorem find?_eq_some_iff {meant : Version → Bool}
    (unique : ∀ v ∈ versions, ∀ w ∈ versions, meant v → meant w → v = w) :
    versions.find? meant = some v ↔ v ∈ versions ∧ meant v = true := by
  constructor
  · intro found
    exact ⟨List.mem_of_find?_eq_some found, List.find?_some found⟩
  · rintro ⟨member, hv⟩
    cases found : versions.find? meant with
    | none => exact absurd hv (List.find?_eq_none.mp found v member)
    | some w =>
      rw [unique w (List.mem_of_find?_eq_some found) v member (List.find?_some found) hv]

theorem lookup_found (found : lookup versions name hash = some v) :
    v ∈ versions ∧ v.name = name ∧ v.hash = hash := by
  have key := List.find?_some found
  exact ⟨List.mem_of_find?_eq_some found, (v.hasKey_iff name hash).mp key⟩

theorem lookup_eq_some_iff (ordered : Ordered versions) : lookup versions name hash = some v ↔
    v ∈ versions ∧ v.name = name ∧ v.hash = hash := by
  rw [lookup, find?_eq_some_iff, Version.hasKey_iff]
  intro v hv w hw keyV keyW
  rw [Version.hasKey_iff] at keyV keyW
  exact ordered.unique hv hw (keyV.1.trans keyW.1.symm) (keyV.2.trans keyW.2.symm)

theorem lookup_eq_none_iff : lookup versions name hash = none ↔
    ∀ v ∈ versions, ¬ (v.name = name ∧ v.hash = hash) := by
  simp [lookup]

theorem resolve_hash {id : Identifier} (byHash : id.reference = .hash hash) :
    resolve versions id = lookup versions id.name hash := by
  simp [resolve, lookup, Version.isSelected, byHash]

theorem resolve_name {id : Identifier} (found : resolve versions id = some v) :
    v.name = id.name := by
  have meant := List.find?_some found
  unfold Version.isSelected at meant
  split at meant
  · exact ((v.hasKey_iff _ _).mp meant).1
  · exact (of_decide_eq_true meant).1

theorem resolve_hash_found {id : Identifier} (byHash : id.reference = .hash hash)
    (found : resolve versions id = some v) : v.hash = hash := by
  rw [resolve_hash byHash] at found
  exact (lookup_found found).2.2

end Versions

end Depot
