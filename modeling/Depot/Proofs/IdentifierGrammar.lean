import Depot.Identifier.Parser

/-! The grammar of identifiers. A token is accepted if and only if it writes three components and a
reference, none of them empty; every other token is refused for the first thing that is wrong with
it, and the check at the end of the reading refuses none. -/
namespace Depot

section Splitting

variable {α : Type} [DecidableEq α] {mark : α} {text : List α}

theorem not_mem_of_mem_splitOn {part : List α} (member : part ∈ text.splitOn mark) :
    mark ∉ part := by
  induction text generalizing part with
  | nil => simp_all
  | cons first rest ih =>
    rw [List.splitOn_cons_eq_if_modifyHead] at member
    split at member
    · rcases List.mem_cons.mp member with rfl | later
      · exact List.not_mem_nil
      · exact ih later
    · next other =>
      obtain ⟨front, parts, split⟩ := List.exists_cons_of_ne_nil (List.splitOn_ne_nil mark rest)
      rw [split, List.modifyHead_cons] at member
      rcases List.mem_cons.mp member with rfl | later
      · have unmarked : mark ∉ front := ih (split ▸ List.mem_cons_self)
        rintro (_ | ⟨_, inside⟩)
        · simp at other
        · exact unmarked inside
      · exact ih (split ▸ List.mem_cons_of_mem front later)

/-- Splitting undoes joining with marks, and nothing else. -/
theorem splitOn_eq_iff {parts : List (List α)} (some : parts ≠ []) :
    text.splitOn mark = parts ↔ text = [mark].intercalate parts ∧ ∀ part ∈ parts, mark ∉ part := by
  constructor
  · rintro rfl
    exact ⟨(List.intercalate_splitOn mark).symm, fun part => not_mem_of_mem_splitOn⟩
  · rintro ⟨rfl, unmarked⟩
    exact List.splitOn_intercalate mark unmarked some

theorem splitOn_eq_two {front back : List α} :
    text.splitOn mark = [front, back] ↔
      text = front ++ mark :: back ∧ mark ∉ front ∧ mark ∉ back := by
  simp [splitOn_eq_iff]

theorem splitOn_eq_three {front middle back : List α} :
    text.splitOn mark = [front, middle, back] ↔
      text = front ++ mark :: (middle ++ mark :: back) ∧
        mark ∉ front ∧ mark ∉ middle ∧ mark ∉ back := by
  simp [splitOn_eq_iff]

/-- What contains the mark once is cut by it in two. -/
theorem split_of_count_one (once : text.count mark = 1) :
    ∃ front back, text = front ++ mark :: back ∧ mark ∉ front ∧ mark ∉ back := by
  have member : mark ∈ text := List.count_pos_iff.mp (by omega)
  obtain ⟨front, back, rfl⟩ := List.append_of_mem member
  rw [List.count_append, List.count_cons_self] at once
  exact ⟨front, back, rfl, List.count_eq_zero.mp (by omega), List.count_eq_zero.mp (by omega)⟩

end Splitting

namespace Identifier

/-- The token is `source/author/name:reference`, where slashes separate the components and colons
the parts of the last of them. -/
structure Writes (token source author name : String) (reference : Reference) : Prop where
  whole : token = source ++ "/" ++ author ++ "/" ++ name ++ ":" ++ reference.text
  noSlash : ∀ part ∈ [source, author, name, reference.raw], '/' ∉ part.toList
  noColon : ∀ part ∈ [name, reference.raw], ':' ∉ part.toList

/-- There are two slashes, and behind the second one colon, or two with the marker between them. -/
def HasForm (token : String) : Prop :=
  token.toList.count '/' = 2 ∧ ∃ front last, token.toList = front ++ '/' :: last ∧ '/' ∉ last ∧
    (last.count ':' = 1 ∨ ∃ name hash, last = name ++ ':' :: (hashMarker ++ ':' :: hash) ∧
      ':' ∉ name ∧ ':' ∉ hash)

/-- The component is empty and those before it are not. -/
def FirstEmpty (source author name : String) : NameComponent → Prop
  | .source => source = ""
  | .author => source ≠ "" ∧ author = ""
  | .name => source ≠ "" ∧ author ≠ "" ∧ name = ""

variable {token source author name : String} {reference : Reference}

theorem text_slash (reference : Reference) :
    '/' ∉ reference.text.toList ↔ '/' ∉ reference.raw.toList := by
  cases reference <;> simp [Reference.text, Reference.raw, Reference.hashPrefix]

theorem writes_ofList {source author name : List Char}
    (whole : token.toList = source ++ '/' :: (author ++ '/' :: (name ++ ':' :: reference.text.toList)))
    (inSource : '/' ∉ source) (inAuthor : '/' ∉ author)
    (inLast : '/' ∉ name ++ ':' :: reference.text.toList)
    (inName : ':' ∉ name) (inReference : ':' ∉ reference.raw.toList) :
    Writes token (.ofList source) (.ofList author) (.ofList name) reference := by
  have ⟨slashName, slashText⟩ : '/' ∉ name ∧ '/' ∉ reference.text.toList := by simpa using inLast
  refine ⟨?_, ?_, ?_⟩
  · rw [← String.toList_inj]
    simp [whole]
  · simp [inSource, inAuthor, slashName, (text_slash reference).mp slashText]
  · simp [inName, inReference]

/-- The parts behind the second slash are a name with a tag, or a name with a hash behind the
marker. -/
def EndsInReference (last : List Char) : Prop :=
  (∃ name tag, last = name ++ ':' :: tag ∧ ':' ∉ name ∧ ':' ∉ tag) ∨
    ∃ name hash, last = name ++ ':' :: (hashMarker ++ ':' :: hash) ∧ ':' ∉ name ∧ ':' ∉ hash

theorem exists_writes {source author last : List Char}
    (whole : token.toList = source ++ '/' :: (author ++ '/' :: last))
    (inSource : '/' ∉ source) (inAuthor : '/' ∉ author) (inLast : '/' ∉ last)
    (ends : EndsInReference last) :
    ∃ source author name reference, Writes token source author name reference := by
  rcases ends with ⟨name, tag, rfl, inName, inTag⟩ | ⟨name, hash, rfl, inName, inHash⟩
  · have writes : Writes token _ _ _ (.tag (.ofList tag)) :=
      writes_ofList (by simp [whole, Reference.text]) inSource inAuthor
        (by simpa [Reference.text] using inLast) inName (by simpa [Reference.raw] using inTag)
    exact ⟨_, _, _, _, writes⟩
  · have behindMarker : (Reference.hash (.ofList hash)).text.toList = hashMarker ++ ':' :: hash := by
      simp [hashMarker, Reference.text, Reference.hashPrefix]
    have writes : Writes token _ _ _ (.hash (.ofList hash)) :=
      writes_ofList (by rw [whole, behindMarker]) inSource inAuthor (by rwa [behindMarker]) inName
        (by simpa [Reference.raw] using inHash)
    exact ⟨_, _, _, _, writes⟩

/-! ### Reading -/

theorem Writes.read (writes : Writes token source author name reference) :
    read token = ofComponents source author name reference := by
  obtain ⟨rfl, noSlash, noColon⟩ := writes
  simp only [List.forall_mem_cons, List.not_mem_nil, false_implies, implies_true, and_true]
    at noSlash noColon
  obtain ⟨inSource, inAuthor, inName, inReference⟩ := noSlash
  have segments : (source ++ "/" ++ author ++ "/" ++ name ++ ":" ++ reference.text).toList.splitOn
      '/' = [source.toList, author.toList, name.toList ++ ':' :: reference.text.toList] := by
    have behind := (text_slash reference).mpr inReference
    exact splitOn_eq_three.mpr ⟨by simp, inSource, inAuthor, by simp [inName, behind]⟩
  cases reference with
  | tag tag =>
    have parts : (name.toList ++ ':' :: (Reference.tag tag).text.toList).splitOn ':' =
        [name.toList, tag.toList] := splitOn_eq_two.mpr ⟨rfl, noColon⟩
    simp only [Identifier.read, segments, parts, String.ofList_toList]
  | hash hash =>
    have parts : (name.toList ++ ':' :: (Reference.hash hash).text.toList).splitOn ':' =
        [name.toList, hashMarker, hash.toList] := by
      refine splitOn_eq_three.mpr ⟨?_, noColon.1, by decide, noColon.2⟩
      simp [Reference.text, Reference.hashPrefix, hashMarker]
    simp only [Identifier.read, segments, parts, String.ofList_toList, if_true]

theorem read_cases (token : String) :
    read token = .error (.malformed token) ∨
      ∃ source author name reference, Writes token source author name reference := by
  unfold Identifier.read
  split
  · next segments =>
    obtain ⟨whole, inSource, inAuthor, inLast⟩ := splitOn_eq_three.mp segments
    split
    · next parts =>
      exact .inr (exists_writes whole inSource inAuthor inLast
        (.inl ⟨_, _, splitOn_eq_two.mp parts⟩))
    · next name marker hash parts =>
      by_cases marked : marker = hashMarker
      · obtain ⟨joined, inName, _, inHash⟩ := splitOn_eq_three.mp parts
        exact .inr (exists_writes whole inSource inAuthor inLast
          (.inr ⟨name, hash, marked ▸ joined, inName, inHash⟩))
      · exact .inl (if_neg marked)
    · exact .inl rfl
  · exact .inl rfl

/-- What is read selects by its tag or by its hash, so that the last check refuses nothing. -/
theorem selects_once (id : Identifier) : id.tag?.isSome ≠ id.hash?.isSome := by
  obtain ⟨name, _ | _, _⟩ := id <;> simp [tag?, hash?]

theorem parse_eq_read (token : String) : parse token = read token := by
  unfold parse
  cases answer : read token with
  | error error => rfl
  | ok id => exact if_neg (selects_once id)

/-! ### The form of a token -/

theorem hasForm_of_writes (writes : Writes token source author name reference) : HasForm token := by
  obtain ⟨rfl, noSlash, noColon⟩ := writes
  simp only [List.forall_mem_cons, List.not_mem_nil, false_implies, implies_true, and_true]
    at noSlash noColon
  obtain ⟨inSource, inAuthor, inName, inReference⟩ := noSlash
  have behind := (text_slash reference).mpr inReference
  refine ⟨?_, source.toList ++ '/' :: author.toList, name.toList ++ ':' :: reference.text.toList,
    by simp, by simp [inName, behind], ?_⟩
  · simp [List.count_append, List.count_eq_zero.mpr inSource, List.count_eq_zero.mpr inAuthor,
      List.count_eq_zero.mpr inName, List.count_eq_zero.mpr behind]
  · cases reference with
    | tag tag =>
      refine .inl ?_
      have inTag : ':' ∉ tag.toList := noColon.2
      simp [Reference.text, List.count_append, List.count_eq_zero.mpr noColon.1,
        List.count_eq_zero.mpr inTag]
    | hash hash =>
      refine .inr ⟨name.toList, hash.toList, ?_, noColon.1, noColon.2⟩
      simp [Reference.text, Reference.hashPrefix, hashMarker]

theorem writes_of_hasForm (form : HasForm token) :
    ∃ source author name reference, Writes token source author name reference := by
  obtain ⟨twice, front, last, whole, inLast, ends⟩ := form
  have once : front.count '/' = 1 := by
    have none := List.count_eq_zero.mpr inLast
    rw [whole, List.count_append, List.count_cons_self] at twice
    omega
  obtain ⟨source, author, rfl, inSource, inAuthor⟩ := split_of_count_one once
  have joined : token.toList = source ++ '/' :: (author ++ '/' :: last) := by simp [whole]
  rcases ends with single | marked
  · exact exists_writes joined inSource inAuthor inLast (.inl (split_of_count_one single))
  · exact exists_writes joined inSource inAuthor inLast (.inr marked)

/-! ### The components -/

theorem ofComponents_eq_ok_iff {id : Identifier} :
    ofComponents source author name reference = .ok id ↔
      id.name.source = source ∧ id.name.author = author ∧ id.name.name = name ∧
        id.reference = reference := by
  constructor
  · intro taken
    unfold ofComponents QualifiedName.ofComponents ofName at taken
    grind
  · rintro ⟨rfl, rfl, rfl, rfl⟩
    simp [ofComponents, QualifiedName.ofComponents, ofName, id.name.source_ne, id.name.author_ne,
      id.name.name_ne, id.reference_ne]

theorem ofComponents_missing_iff {component : NameComponent} :
    ofComponents source author name reference = .error (.missingComponent component) ↔
      FirstEmpty source author name component := by
  unfold ofComponents QualifiedName.ofComponents ofName
  cases component <;> grind [FirstEmpty]

theorem ofComponents_empty_iff :
    ofComponents source author name reference = .error .emptyReference ↔
      source ≠ "" ∧ author ≠ "" ∧ name ≠ "" ∧ reference.raw = "" := by
  unfold ofComponents QualifiedName.ofComponents ofName
  grind

theorem ofComponents_formed (culprit : String) :
    ofComponents source author name reference ≠ .error (.malformed culprit) := by
  unfold ofComponents QualifiedName.ofComponents ofName
  grind

/-- Whatever else is wrong with a token is seen only if it has the form. -/
theorem parse_eq_iff {answer : Except IdentifierError Identifier}
    (formed : ∀ culprit, answer ≠ .error (.malformed culprit)) :
    parse token = answer ↔ ∃ source author name reference,
      Writes token source author name reference ∧
        ofComponents source author name reference = answer := by
  rw [parse_eq_read]
  constructor
  · rintro rfl
    rcases read_cases token with malformed | ⟨source, author, name, reference, writes⟩
    · exact absurd malformed (formed token)
    · exact ⟨source, author, name, reference, writes, writes.read.symm⟩
  · rintro ⟨source, author, name, reference, writes, rfl⟩
    exact writes.read

theorem parse_malformed_iff {culprit : String} :
    parse token = .error (.malformed culprit) ↔ culprit = token ∧ ¬ HasForm token := by
  rw [parse_eq_read]
  constructor
  · intro malformed
    have formless : ¬ HasForm token := by
      intro form
      obtain ⟨source, author, name, reference, writes⟩ := writes_of_hasForm form
      exact ofComponents_formed culprit (writes.read.symm.trans malformed)
    rcases read_cases token with same | ⟨_, _, _, _, writes⟩
    · obtain rfl : culprit = token := by simpa [same] using malformed.symm
      exact ⟨rfl, formless⟩
    · exact absurd (hasForm_of_writes writes) formless
  · rintro ⟨rfl, formless⟩
    refine (read_cases culprit).resolve_right ?_
    rintro ⟨_, _, _, _, writes⟩
    exact formless (hasForm_of_writes writes)

/-- A token is accepted if and only if it is `source/author/name:tag` or
`source/author/name:hash:digest` with no part empty, and then stands for just these. It is malformed
if and only if it has not that form, whatever its parts; otherwise the first empty component is
reported, and an empty reference only if no component is. The last check refuses nothing. -/
theorem parse_follows_grammar (token : String) :
    (∀ id, parse token = .ok id ↔
      Writes token id.name.source id.name.author id.name.name id.reference) ∧
    ((∃ id, parse token = .ok id) ↔ ∃ source author name reference,
      Writes token source author name reference ∧
        source ≠ "" ∧ author ≠ "" ∧ name ≠ "" ∧ reference.raw ≠ "") ∧
    (∀ culprit, parse token = .error (.malformed culprit) ↔ culprit = token ∧ ¬ HasForm token) ∧
    (∀ component, parse token = .error (.missingComponent component) ↔
      ∃ source author name reference, Writes token source author name reference ∧
        FirstEmpty source author name component) ∧
    (parse token = .error .emptyReference ↔ ∃ source author name reference,
      Writes token source author name reference ∧
        source ≠ "" ∧ author ≠ "" ∧ name ≠ "" ∧ reference.raw = "") ∧
    parse token = read token := by
  have accepted (id : Identifier) : parse token = .ok id ↔
      Writes token id.name.source id.name.author id.name.name id.reference := by
    rw [parse_eq_iff (by simp)]
    constructor
    · rintro ⟨source, author, name, reference, writes, taken⟩
      obtain ⟨rfl, rfl, rfl, rfl⟩ := ofComponents_eq_ok_iff.mp taken
      exact writes
    · intro writes
      exact ⟨_, _, _, _, writes, ofComponents_eq_ok_iff.mpr ⟨rfl, rfl, rfl, rfl⟩⟩
  refine ⟨accepted, ⟨?_, ?_⟩, fun culprit => parse_malformed_iff, fun component => ?_, ?_,
    parse_eq_read token⟩
  · rintro ⟨id, taken⟩
    exact ⟨_, _, _, _, (accepted id).mp taken, id.name.source_ne, id.name.author_ne,
      id.name.name_ne, id.reference_ne⟩
  · rintro ⟨source, author, name, reference, writes, sourceNe, authorNe, nameNe, referenceNe⟩
    exact ⟨⟨⟨source, author, name, sourceNe, authorNe, nameNe⟩, reference, referenceNe⟩,
      (accepted _).mpr writes⟩
  · rw [parse_eq_iff (by simp)]
    simp only [ofComponents_missing_iff]
  · rw [parse_eq_iff (by simp)]
    simp only [ofComponents_empty_iff]

end Identifier

end Depot
