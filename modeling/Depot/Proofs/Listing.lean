import Depot.Proofs.ByteOrder
import Depot.Proofs.Fidelity
import Mathlib.Data.List.Sort

/-! Listings. A listing has every version that its question asks for, once, in the order of names
and hashes, and each of its records is what the version's identifiers find. -/
namespace Depot

open Versions (Sound)

structure ArtifactQuery.Asks (q : ArtifactQuery) (name : QualifiedName) : Prop where
  source : ∀ text, q.source = some text → name.source = text
  author : ∀ text, q.author = some text → name.author = text
  name : ∀ text, q.name = some text → name.name = text

theorem ArtifactQuery.accepts_iff (q : ArtifactQuery) (name : QualifiedName) :
    q.accepts name = true ↔ q.Asks name := by
  have all_iff (filter : Option String) (component : String) :
      filter.all (· = component) = true ↔ ∀ text, filter = some text → component = text := by
    cases filter <;> simp [eq_comm]
  rw [accepts, Bool.and_eq_true, Bool.and_eq_true, all_iff, all_iff, all_iff]
  constructor
  · rintro ⟨⟨source, author⟩, name⟩
    exact ⟨source, author, name⟩
  · rintro ⟨source, author, name⟩
    exact ⟨⟨source, author⟩, name⟩

/-- Where a record stands in a listing: the components of its name and its hash, each as its
bytes. -/
def Artifact.place (a : Artifact) : List (List UInt8) :=
  [a.name.source, a.name.author, a.name.name, a.versionHash].map fun text =>
    text.toUTF8.data.toList

theorem Artifact.place_eq_iff (a b : Artifact) :
    a.place = b.place ↔ a.name = b.name ∧ a.versionHash = b.versionHash := by
  obtain ⟨⟨source, author, name, _, _, _⟩, _⟩ := a
  obtain ⟨⟨source, author, name, _, _, _⟩, _⟩ := b
  simp only [place, List.map_cons, List.map_nil, List.cons.injEq, Utf8.toUTF8_inj,
    QualifiedName.mk.injEq, and_true, and_assoc]

theorem Version.compare_lt_iff (v w : Version) :
    Version.compare v w = .lt ↔ v.record.place < w.record.place := by
  simp only [Version.compare, QualifiedName.compare, Ordering.then_eq_lt, Ordering.then_eq_eq,
    Utf8.compare_lt_iff, Std.LawfulEqCmp.compare_eq_iff_eq, Artifact.place, List.map_cons,
    List.map_nil, List.cons_lt_cons_iff, Utf8.toUTF8_inj, record]
  simp only [List.not_lt_nil, and_false, or_false, and_or_left, or_assoc, and_assoc]

namespace Store

variable {s t : Store} {q : ArtifactQuery}

theorem mem_query {a : Artifact} :
    a ∈ s.query q ↔ ∃ v ∈ s.versions, q.Asks v.name ∧ a = v.record := by
  simp only [query, List.mem_map, List.mem_filter, q.accepts_iff]
  constructor
  · rintro ⟨v, ⟨stored, asked⟩, rfl⟩
    exact ⟨v, stored, asked, rfl⟩
  · rintro ⟨v, stored, asked, rfl⟩
    exact ⟨v, ⟨stored, asked⟩, rfl⟩

theorem query_increases (sound : Sound s.versions) (q : ArtifactQuery) :
    ((s.query q).map Artifact.place).Pairwise (· < ·) := by
  rw [query, List.map_map, List.pairwise_map]
  apply (sound.ordered.filter _).imp
  intro v w less
  exact (Version.compare_lt_iff v w).mp less

theorem query_nodup (sound : Sound s.versions) (q : ArtifactQuery) : (s.query q).Nodup :=
  (query_increases sound q).nodup.of_map

theorem query_once (sound : Sound s.versions) {v : Version} (stored : v ∈ s.versions)
    (asked : q.Asks v.name) :
    (s.query q).filter (fun a => a.name = v.name ∧ a.versionHash = v.hash) = [v.record] := by
  rw [← List.perm_singleton]
  apply (List.perm_ext_iff_of_nodup ((query_nodup sound q).filter _) (List.nodup_singleton _)).mpr
  intro a
  simp only [List.mem_filter, mem_query, decide_eq_true_iff, List.mem_singleton]
  constructor
  · rintro ⟨⟨w, other, _, rfl⟩, sameName, sameHash⟩
    rw [sound.ordered.unique other stored sameName sameHash]
  · rintro rfl
    exact ⟨⟨v, stored, asked, rfl⟩, rfl, rfl⟩

def Holds (s : Store) (name : QualifiedName) (hash : String) : Prop :=
  ∃ v ∈ s.versions, v.name = name ∧ v.hash = hash

theorem query_places_subset (kept : ∀ name hash, s.Holds name hash → t.Holds name hash)
    (q : ArtifactQuery) : (s.query q).map Artifact.place ⊆ (t.query q).map Artifact.place := by
  intro place member
  obtain ⟨a, listed, rfl⟩ := List.mem_map.mp member
  obtain ⟨v, stored, asked, rfl⟩ := mem_query.mp listed
  obtain ⟨w, other, sameName, sameHash⟩ := kept v.name v.hash ⟨v, stored, rfl, rfl⟩
  have asked : q.Asks w.name := by rwa [sameName]
  exact List.mem_map.mpr ⟨w.record, mem_query.mpr ⟨w, other, asked, rfl⟩,
    (Artifact.place_eq_iff _ _).mpr ⟨sameName, sameHash⟩⟩

/-- The order of a listing is that of its places, and not that of the calls before it. -/
theorem query_places_eq (soundS : Sound s.versions) (soundT : Sound t.versions)
    (same : ∀ name hash, s.Holds name hash ↔ t.Holds name hash) (q : ArtifactQuery) :
    (s.query q).map Artifact.place = (t.query q).map Artifact.place := by
  apply List.Subset.antisymm_of_pairwise (query_increases soundS q) (query_increases soundT q)
  · exact query_places_subset (fun name hash => (same name hash).mp) q
  · exact query_places_subset (fun name hash => (same name hash).mpr) q

variable {v : Version}

theorem get_hash (sound : Sound s.versions) (stored : v ∈ s.versions) :
    ∃ id, Identifier.ofName v.name (.hash v.hash) = .ok id ∧ s.get id = .ok v.record := by
  have nonempty : v.hash ≠ "" := by
    rw [sound.addressed v stored]
    exact Sha256.hex_ne_empty v.content
  refine ⟨_, Identifier.ofName_ok v.name (.hash v.hash) nonempty, (acts_of_resolve ?_).get⟩
  rw [Versions.resolve_hash rfl]
  exact (Versions.lookup_eq_some_iff sound.ordered).mpr ⟨stored, rfl, rfl⟩

theorem get_tag (sound : Sound s.versions) (stored : v ∈ s.versions) {tag : String}
    (listed : tag ∈ v.tags) (nonempty : tag ≠ "") :
    ∃ id, Identifier.ofName v.name (.tag tag) = .ok id ∧ s.get id = .ok v.record :=
  ⟨_, Identifier.ofName_ok v.name (.tag tag) nonempty,
    (acts_of_resolve ((sound.resolve_tag rfl).mpr ⟨stored, rfl, listed⟩)).get⟩

end Store

namespace Traffic

variable {s : Store}

/-- A listing has each version that has what the filters ask for, in one record, and nothing else.
Its records increase by the bytes of their names and hashes, and so a store that came about in any
other way lists the same versions in the same order. Each record is also what its hash finds, and
what each of its tags finds. -/
theorem listing_agrees_with_lookup (reachable : Reachable s) (q : ArtifactQuery) :
    ∃ listed, Store.registry.query q s = (.ok listed, s) ∧
      (∀ v ∈ s.versions, q.Asks v.name →
        listed.filter (fun a => a.name = v.name ∧ a.versionHash = v.hash) = [v.record]) ∧
      (∀ a ∈ listed, ∃ v ∈ s.versions, q.Asks v.name ∧ a = v.record) ∧
      (listed.map Artifact.place).Pairwise (· < ·) ∧
      (∀ t, Reachable t → (∀ name hash, t.Holds name hash ↔ s.Holds name hash) →
        (t.query q).map Artifact.place = listed.map Artifact.place) ∧
      ∀ a ∈ listed,
        (∃ id, Identifier.ofName a.name (.hash a.versionHash) = .ok id ∧
          Store.registry.get id s = (.ok a, s)) ∧
        ∀ tag ∈ a.tags, tag ≠ "" → ∃ id, Identifier.ofName a.name (.tag tag) = .ok id ∧
          Store.registry.get id s = (.ok a, s) := by
  have sound := reachable.sound
  refine ⟨s.query q, rfl, fun v stored asked => Store.query_once sound stored asked,
    fun a listed => Store.mem_query.mp listed, Store.query_increases sound q,
    fun t other same => Store.query_places_eq other.sound sound same q, fun a listed => ?_⟩
  obtain ⟨v, stored, _, rfl⟩ := Store.mem_query.mp listed
  refine ⟨?_, fun tag carried nonempty => ?_⟩
  · obtain ⟨id, named, found⟩ := Store.get_hash sound stored
    exact ⟨id, named, congrArg (·, s) found⟩
  · obtain ⟨id, named, found⟩ := Store.get_tag sound stored carried nonempty
    exact ⟨id, named, congrArg (·, s) found⟩

theorem tools_listed_in_order :
    let s := (start.after toolRun).store
    ∃ listed, Store.registry.query { author := some "alice" } s = (.ok listed, s) ∧
      listed.filter (fun a => a.name = toolName ∧ a.versionHash = firstTool.hash) =
        [firstTool.record] ∧
      (listed.map Artifact.place).Pairwise (· < ·) := by
  have stored : firstTool ∈ (start.after toolRun).store.versions := by decide +kernel
  have asked : ArtifactQuery.Asks { author := some "alice" } toolName :=
    (ArtifactQuery.accepts_iff _ _).mp (by decide)
  obtain ⟨listed, answered, once, _, increasing, _⟩ :=
    listing_agrees_with_lookup ⟨toolRun, rfl⟩ { author := some "alice" }
  exact ⟨listed, answered, once firstTool stored asked, increasing⟩

end Traffic

end Depot
