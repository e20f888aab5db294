import Depot.Proofs.Served

/-! Tags as tokens. A tag is written as free text, but a token that starts with the mark of version
hashes is read as a hash. So a tag is read back as itself unless it starts with the mark; then it
stands for the version whose hash it spells, wherever the tag is put. -/
namespace Depot

namespace Store

variable {s : Store} {v : Version} {id : Identifier}

theorem ActsOn.resolved (acts : s.ActsOn id v) :
    ∃ w, Versions.resolve s.versions id = some w ∧ w.hash = v.hash := by
  cases found : Versions.resolve s.versions id with
  | none =>
    have missed := acts.get.symm.trans (misses_of_resolve found).get
    contradiction
  | some w =>
    have same := acts.get.symm.trans (acts_of_resolve found).get
    have sameRecord : v.record = w.record := Except.ok.inj same
    exact ⟨w, rfl, congrArg Artifact.versionHash sameRecord.symm⟩

end Store

namespace Gateway

open Reference (hashPrefix)

variable {wording : Wording} {limits : Limits} {state : GatewayState Store} {v : Version}
  {tag : String}

/-- Whatever is requested, every tag that a version lists is read as an identifier of the version,
unless it starts with the mark of version hashes. Such a tag is read as the hash behind the mark,
and finds the version if and only if that is its own hash. A deletion reads its token as the other
endpoints do. -/
theorem listed_tag_addresses_version (served : Served wording limits state)
    (stored : v ∈ state.registry.versions) (listed : tag ∈ v.tags) (nonempty : tag ≠ "") :
    let read := Identifier.ofParts v.name.source v.name.author v.name.name tag
    DeleteRequest.identifier ⟨v.name, tag⟩ = read.mapError .invalidIdentifier ∧
    ((∀ hash, tag ≠ hashPrefix ++ hash) → ∃ id, read = .ok id ∧ state.registry.ActsOn id v) ∧
    ∀ hash, tag = hashPrefix ++ hash →
      ((∃ id, read = .ok id ∧ state.registry.ActsOn id v) ↔ hash = v.hash) := by
  intro read
  have sound := served.sound
  have reading : read = Identifier.ofName v.name (Reference.parse tag) :=
    Identifier.ofParts_self v.name tag
  refine ⟨by rw [DeleteRequest.identifier, reading], fun unmarked => ?_, fun hash marked => ?_⟩
  · rw [Reference.parse_unmarked unmarked] at reading
    refine ⟨_, reading.trans (Identifier.ofName_ok v.name (.tag tag) nonempty), ?_⟩
    exact Store.acts_of_resolve ((sound.resolve_tag rfl).mpr ⟨stored, rfl, listed⟩)
  · rw [marked, Reference.parse_marked] at reading
    constructor
    · rintro ⟨id, ok, acts⟩
      have byHash : id.reference = .hash hash := by
        rw [reading, Identifier.ofName] at ok
        split at ok
        · contradiction
        · rw [← Except.ok.inj ok]
      obtain ⟨w, found, same⟩ := acts.resolved
      exact (Versions.resolve_hash_found byHash found).symm.trans same
    · rintro rfl
      have nonemptyHash : v.hash ≠ "" := by
        rw [sound.addressed v stored]
        exact Sha256.hex_ne_empty v.content
      refine ⟨_, reading.trans (Identifier.ofName_ok v.name (.hash v.hash) nonemptyHash), ?_⟩
      apply Store.acts_of_resolve
      rw [Versions.resolve_hash rfl, Versions.lookup_eq_some_iff sound.ordered]
      exact ⟨stored, rfl, rfl⟩

def taggedForm (tag : String) : Form where
  parts := [
    ⟨"source", .ofBytes "git".toUTF8⟩,
    ⟨"author", .ofBytes "alice".toUTF8⟩,
    ⟨"name", .ofBytes "tool".toUTF8⟩,
    ⟨"tag", .ofBytes tag.toUTF8⟩,
    ⟨"file", .ofBytes "abc".toUTF8⟩]

def posted (tag : String) : GatewayState Store :=
  ((ofStore default {}).upload (taggedForm tag) emptyState).2

theorem served_posted (tag : String) : Served default {} (posted tag) :=
  .form (.start _) (taggedForm tag)

def postedTool (tag : String) : Version :=
  { Traffic.firstTool with tags := [tag], pulls := 0 }

theorem posted_tag_addresses_tool : ∃ id,
    Identifier.ofParts "git" "alice" "tool" "v3" = .ok id ∧
      (posted "v3").registry.ActsOn id (postedTool "v3") := by
  have stored : postedTool "v3" ∈ (posted "v3").registry.versions := by decide +kernel
  have listed : "v3" ∈ (postedTool "v3").tags := by decide
  have unmarked : ∀ hash, "v3" ≠ hashPrefix ++ hash := by
    intro hash same
    have first := congrArg (fun text => text.toList.head?) same
    simp [hashPrefix] at first
  obtain ⟨_, addresses, _⟩ :=
    listed_tag_addresses_version (served_posted "v3") stored listed (by decide)
  exact addresses unmarked

def markedTagLookup : Request where
  method := .get
  target := "/artifacts?source=git&author=alice&name=tool&identifier=hash%3Av1"

/-- A tag with the mark is listed, but who asks for it asks for a version with the hash behind. -/
theorem marked_tag_finds_nothing :
    Served default {} (posted "hash:v1") ∧
    postedTool "hash:v1" ∈ (posted "hash:v1").registry.versions ∧
    (∃ id, Identifier.ofParts "git" "alice" "tool" "hash:v1" = .ok id ∧
      (posted "hash:v1").registry.Misses id) ∧
    ((ofStore default {}).answer markedTagLookup (posted "hash:v1")).1.status = 404 := by
  let byHash : Identifier := ⟨Traffic.toolName, .hash "v1", by decide⟩
  have read : Identifier.ofParts "git" "alice" "tool" "hash:v1" = .ok byHash := by decide +kernel
  have missing : Versions.resolve (posted "hash:v1").registry.versions byHash = none := by
    decide +kernel
  exact ⟨served_posted "hash:v1", by decide +kernel,
    ⟨byHash, read, Store.misses_of_resolve missing⟩, by decide +kernel⟩

end Gateway

end Depot
