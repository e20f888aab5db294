import Depot.Proofs.IdentifierGrammar

/-! Identifiers as texts. Reading is undone by writing, always; writing is undone by reading exactly
where no separator is in a part. The two ways to read an identifier, in one text or with its
reference apart, never make different identifiers of the same parts: they agree wherever the parts
come apart again in the one text, and elsewhere that is malformed. -/
namespace Depot

/-- There is one way to cut a text at its first mark. -/
theorem first_cut_unique {α : Type} {mark : α} {front back other rest : List α}
    (same : front ++ mark :: back = other ++ mark :: rest) (inFront : mark ∉ front)
    (inOther : mark ∉ other) : front = other ∧ back = rest := by
  induction front generalizing other with
  | nil =>
    cases other with
    | nil => exact ⟨rfl, (List.cons.inj same).2⟩
    | cons second other => exact absurd ((List.cons.inj same).1 ▸ List.mem_cons_self) inOther
  | cons first front ih =>
    cases other with
    | nil => exact absurd ((List.cons.inj same).1 ▸ List.mem_cons_self) inFront
    | cons second other =>
      obtain ⟨rfl, behind⟩ := List.cons.inj same
      have ⟨sameFront, sameBack⟩ := ih behind (mt (.tail first) inFront) (mt (.tail first) inOther)
      exact ⟨congrArg _ sameFront, sameBack⟩

namespace Reference

variable {token : String}

theorem text_parse (token : String) : (parse token).text = token := by
  by_cases marked : ∃ hash, token = hashPrefix ++ hash
  · obtain ⟨hash, rfl⟩ := marked
    rw [parse_marked, text]
  · rw [parse_unmarked (not_exists.mp marked), text]

theorem parse_text {reference : Reference} (noColon : ':' ∉ reference.raw.toList) :
    parse reference.text = reference := by
  cases reference with
  | hash hash => exact parse_marked hash
  | tag tag =>
    apply parse_unmarked
    rintro hash rfl
    simp [raw, hashPrefix] at noColon

theorem parse_raw_eq_empty : (parse token).raw = "" ↔ token = "" ∨ token = hashPrefix := by
  by_cases marked : ∃ hash, token = hashPrefix ++ hash
  · obtain ⟨hash, rfl⟩ := marked
    have marked : hashPrefix ++ hash ≠ "" := by simp [hashPrefix]
    simp [parse_marked, raw, marked]
  · have other : token ≠ hashPrefix := fun same => marked ⟨"", by simp [same]⟩
    simp [parse_unmarked (not_exists.mp marked), raw, other]

/-- There is a colon in the token, and it is not the one colon of a mark in front of a hash. -/
def HasStrayColon (token : String) : Prop :=
  ':' ∈ token.toList ∧ ¬ ∃ hash, token = hashPrefix ++ hash ∧ ':' ∉ hash.toList

theorem colon_in_raw : ':' ∈ (parse token).raw.toList ↔ HasStrayColon token := by
  by_cases marked : ∃ hash, token = hashPrefix ++ hash
  · obtain ⟨hash, rfl⟩ := marked
    rw [parse_marked, raw]
    simp [HasStrayColon, hashPrefix]
  · have unmarked := not_exists.mp marked
    simp [parse_unmarked unmarked, raw, HasStrayColon, unmarked]

end Reference

namespace Identifier

variable {token : String} {id : Identifier}

theorem parse_eq_ok_iff : parse token = .ok id ↔
    Writes token id.name.source id.name.author id.name.name id.reference := by
  rw [parse_eq_iff (by simp)]
  simp only [ofComponents_eq_ok_iff]
  constructor
  · rintro ⟨_, _, _, _, writes, rfl, rfl, rfl, rfl⟩
    exact writes
  · intro writes
    exact ⟨_, _, _, _, writes, rfl, rfl, rfl, rfl⟩

theorem text_of_parse (taken : parse token = .ok id) : id.text = token :=
  (parse_eq_ok_iff.mp taken).whole.symm

/-- What is read as an identifier is its text, so no two texts are read as the same. The text of an
identifier, of whatever parts it is built, is read as that identifier if and only if no part has a
slash in it, and neither the name nor the tag or hash has a colon. -/
theorem texts_round_trip :
    (∀ token id, parse token = .ok id → id.text = token) ∧
    (∀ token other id, parse token = .ok id → parse other = .ok id → token = other) ∧
    ∀ source author name reference id, ofComponents source author name reference = .ok id →
      (parse id.text = .ok id ↔
        (∀ part ∈ [source, author, name, reference.raw], '/' ∉ part.toList) ∧
          ∀ part ∈ [name, reference.raw], ':' ∉ part.toList) := by
  refine ⟨fun token id => text_of_parse, fun token other id taken again => ?_, ?_⟩
  · exact (text_of_parse taken).symm.trans (text_of_parse again)
  · intro source author name reference id built
    obtain ⟨rfl, rfl, rfl, rfl⟩ := ofComponents_eq_ok_iff.mp built
    rw [parse_eq_ok_iff]
    exact ⟨fun writes => ⟨writes.noSlash, writes.noColon⟩,
      fun ⟨noSlash, noColon⟩ => ⟨rfl, noSlash, noColon⟩⟩

/-- A plain tag comes back; one that starts with the mark of hashes is written, but not read. -/
theorem tool_texts_round_trip :
    (∃ id, ofComponents "git" "alice" "tool" (.tag "v1") = .ok id ∧
      id.text = "git/alice/tool:v1" ∧ parse "git/alice/tool:v1" = .ok id) ∧
    ∃ id, ofComponents "git" "alice" "tool" (.tag "hash:v1") = .ok id ∧
      parse "git/alice/tool:hash:v1" ≠ .ok id := by
  let tool : QualifiedName := ⟨"git", "alice", "tool", by decide, by decide, by decide⟩
  obtain ⟨_, _, writing⟩ := texts_round_trip
  constructor
  · let id : Identifier := ⟨tool, .tag "v1", by decide⟩
    have built : ofComponents "git" "alice" "tool" (.tag "v1") = .ok id :=
      ofComponents_eq_ok_iff.mpr ⟨rfl, rfl, rfl, rfl⟩
    have text : id.text = "git/alice/tool:v1" := by decide
    exact ⟨id, built, text, text ▸ (writing _ _ _ _ id built).mpr ⟨by decide, by decide⟩⟩
  · let id : Identifier := ⟨tool, .tag "hash:v1", by decide⟩
    have built : ofComponents "git" "alice" "tool" (.tag "hash:v1") = .ok id :=
      ofComponents_eq_ok_iff.mpr ⟨rfl, rfl, rfl, rfl⟩
    have text : id.text = "git/alice/tool:hash:v1" := by decide
    exact ⟨id, built, text ▸ mt (writing _ _ _ _ id built).mp (by decide)⟩

/-- The parts come apart again as they were put together. -/
theorem Writes.unique {name : QualifiedName} {source author last : String} {reference : Reference}
    (inSource : '/' ∉ name.source.toList) (inAuthor : '/' ∉ name.author.toList)
    (inName : ':' ∉ name.name.toList)
    (writes : Writes (name.text ++ ":" ++ token) source author last reference) :
    reference = Reference.parse token := by
  obtain ⟨whole, noSlash, noColon⟩ := writes
  simp only [List.forall_mem_cons, List.not_mem_nil, false_implies, implies_true, and_true]
    at noSlash noColon
  obtain ⟨slashSource, slashAuthor, _, _⟩ := noSlash
  obtain ⟨colonName, colonReference⟩ := noColon
  have joined : name.source.toList ++ '/' :: (name.author.toList ++ '/' ::
        (name.name.toList ++ ':' :: token.toList)) =
      source.toList ++ '/' :: (author.toList ++ '/' ::
        (last.toList ++ ':' :: reference.text.toList)) := by
    simpa [QualifiedName.text] using congrArg String.toList whole
  have behindSource := (first_cut_unique joined inSource slashSource).2
  have behindAuthor := (first_cut_unique behindSource inAuthor slashAuthor).2
  have behindName := (first_cut_unique behindAuthor inName colonName).2
  rw [String.toList_inj.mp behindName, Reference.parse_text colonReference]

section Joined

variable {name : QualifiedName}
  (noSlash : ∀ part ∈ [name.source, name.author, name.name], '/' ∉ part.toList)
  (noColon : ':' ∉ name.name.toList)
include noSlash noColon

theorem parse_joined_clean (slash : '/' ∉ token.toList) (stray : ¬ Reference.HasStrayColon token) :
    parse (name.text ++ ":" ++ token) = ofParts name.source name.author name.name token := by
  have text := Reference.text_parse token
  have writes : Writes (name.text ++ ":" ++ token) name.source name.author name.name
      (Reference.parse token) := by
    refine ⟨by rw [text]; rfl, ?_, ?_⟩
    · have inRaw := (text_slash (Reference.parse token)).mp (text.symm ▸ slash)
      simpa [inRaw] using noSlash
    · have inRaw := mt Reference.colon_in_raw.mp stray
      simp [inRaw, noColon]
  rw [parse_eq_read, writes.read, ofParts]

theorem parse_joined_unclean (unclean : '/' ∈ token.toList ∨ Reference.HasStrayColon token) :
    parse (name.text ++ ":" ++ token) = .error (.malformed (name.text ++ ":" ++ token)) := by
  refine parse_malformed_iff.mpr ⟨rfl, fun form => ?_⟩
  obtain ⟨source, author, last, reference, writes⟩ := writes_of_hasForm form
  have same := writes.unique (noSlash _ (by simp)) (noSlash _ (by simp)) noColon
  have slashRaw : '/' ∉ reference.raw.toList := writes.noSlash _ (by simp)
  have colonRaw : ':' ∉ reference.raw.toList := writes.noColon _ (by simp)
  rw [← text_slash, same, Reference.text_parse] at slashRaw
  rw [same, Reference.colon_in_raw] at colonRaw
  exact unclean.elim slashRaw colonRaw

end Joined

theorem ofParts_empty_iff {name : QualifiedName} :
    ofParts name.source name.author name.name token = .error .emptyReference ↔
      token = "" ∨ token = Reference.hashPrefix := by
  rw [ofParts_self, ← Reference.parse_raw_eq_empty, ofName]
  split <;> simp_all

/-- However a reference token is written, in one text behind its name or apart from it, it never
stands for two identifiers. In the one text it is malformed if and only if it has a slash in it, or
a colon other than the one of a leading mark; else both readings are the same, also where they
refuse an empty tag or an empty hash. -/
theorem readings_agree {name : QualifiedName}
    (noSlash : ∀ part ∈ [name.source, name.author, name.name], '/' ∉ part.toList)
    (noColon : ':' ∉ name.name.toList) (token : String) :
    let joined := name.text ++ ":" ++ token
    let apart := ofParts name.source name.author name.name token
    (∀ id, parse joined = .ok id → apart = .ok id) ∧
    (∀ id, apart = .ok id →
      (parse joined = .ok id ∨ parse joined = .error (.malformed joined)) ∧
      (parse joined = .error (.malformed joined) ↔
        '/' ∈ token.toList ∨ Reference.HasStrayColon token)) ∧
    (apart = .error .emptyReference ↔ token = "" ∨ token = Reference.hashPrefix) ∧
    (apart = .error .emptyReference → parse joined = .error .emptyReference) := by
  intro joined apart
  by_cases unclean : '/' ∈ token.toList ∨ Reference.HasStrayColon token
  · have malformed : parse joined = .error (.malformed joined) :=
      parse_joined_unclean noSlash noColon unclean
    refine ⟨fun id taken => ?_, fun id _ => ⟨.inr malformed, iff_of_true malformed unclean⟩,
      ofParts_empty_iff, fun refused => ?_⟩
    · rw [malformed] at taken
      contradiction
    · -- A token without tag and hash has nothing in it that could be malformed.
      have empty := Reference.parse_raw_eq_empty.mpr (ofParts_empty_iff.mp refused)
      have slash : '/' ∉ token.toList := by
        rw [← Reference.text_parse token, text_slash, empty]
        exact List.not_mem_nil
      have stray : ¬ Reference.HasStrayColon token := by
        rw [← Reference.colon_in_raw, empty]
        exact List.not_mem_nil
      exact absurd unclean (not_or.mpr ⟨slash, stray⟩)
  · obtain ⟨slash, stray⟩ := not_or.mp unclean
    have same : parse joined = apart := parse_joined_clean noSlash noColon slash stray
    refine ⟨fun id taken => same.symm.trans taken, fun id taken => ⟨.inl (same.trans taken), ?_⟩,
      ofParts_empty_iff, fun refused => same.trans refused⟩
    refine iff_of_false ?_ unclean
    rw [same, taken]
    exact nofun

/-- A hash is read both ways; a hash that looks like a marked one itself has to come apart. -/
theorem tool_readings_agree :
    (∃ id, parse "git/alice/tool:hash:0123" = .ok id ∧
      ofParts "git" "alice" "tool" "hash:0123" = .ok id) ∧
    ∃ id, ofParts "git" "alice" "tool" "hash:hash:0123" = .ok id ∧
      parse "git/alice/tool:hash:hash:0123" =
        .error (.malformed "git/alice/tool:hash:hash:0123") := by
  let tool : QualifiedName := ⟨"git", "alice", "tool", by decide, by decide, by decide⟩
  have agree := @readings_agree tool (by decide) (by decide)
  constructor
  · let id : Identifier := ⟨tool, .hash "0123", by decide⟩
    have read : parse "git/alice/tool:hash:0123" = .ok id :=
      parse_eq_ok_iff.mpr ⟨by decide, by decide, by decide⟩
    exact ⟨id, read, (agree "hash:0123").1 id read⟩
  · let id : Identifier := ⟨tool, .hash "hash:0123", by decide⟩
    have apart : ofParts "git" "alice" "tool" "hash:hash:0123" = .ok id :=
      ofComponents_eq_ok_iff.mpr ⟨rfl, rfl, rfl, by decide⟩
    have stray : Reference.HasStrayColon "hash:hash:0123" :=
      Reference.colon_in_raw.mp (by decide)
    exact ⟨id, apart, ((agree "hash:hash:0123").2.1 id apart).2.mpr (.inr stray)⟩

end Identifier

end Depot
