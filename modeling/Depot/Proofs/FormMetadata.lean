import Depot.Proofs.PartAcceptance
import Mathlib.Data.List.Perm.Basic

/-! What a form has to say in front of its payload. The parts are scanned in order, each against the
ones before it and with the budget that those have left; what the scan accepts does not depend on
their order. -/
namespace Depot

namespace MetadataField

def among (field : MetadataField) (parts : List Part) : List Part :=
  parts.filter fun part => part.name = field.label

theorem among_snoc {field : MetadataField} {part : Part} (named : part.name = field.label)
    (other : MetadataField) (parts : List Part) :
    other.among (parts ++ [part]) =
      if other = field then other.among parts ++ [part] else other.among parts := by
  unfold among
  rw [List.filter_append]
  by_cases same : other = field
  · simp [same, named]
  · have apart : part.name ≠ other.label := fun also => same (label_injective (also.symm.trans named))
    simp [same, apart]

theorem mem_among {field : MetadataField} {part : Part} {parts : List Part} :
    part ∈ field.among parts ↔ part ∈ parts ∧ part.name = field.label := by
  simp [among]

theorem among_append (field : MetadataField) (parts rest : List Part) :
    field.among (parts ++ rest) = field.among parts ++ field.among rest :=
  List.filter_append parts rest

end MetadataField

def Part.totalSize : List Part → Nat
  | [] => 0
  | part :: rest => part.bytes.size + totalSize rest

theorem Part.totalSize_append (parts rest : List Part) :
    totalSize (parts ++ rest) = totalSize parts + totalSize rest := by
  induction parts with
  | nil => simp [totalSize]
  | cons part parts ih => simp [totalSize, ih, Nat.add_assoc]

theorem Part.totalSize_perm {parts other : List Part} (permuted : parts.Perm other) :
    totalSize parts = totalSize other := by
  induction permuted with
  | nil => rfl
  | cons part _ ih => simp only [totalSize, ih]
  | swap a b rest => simp only [totalSize, Nat.add_left_comm]
  | trans _ _ first second => exact first.trans second

namespace QualifiedName

def component (n : QualifiedName) : NameComponent → String
  | .source => n.source
  | .author => n.author
  | .name => n.name

theorem component_ne (n : QualifiedName) (c : NameComponent) : n.component c ≠ "" := by
  cases c with
  | source => exact n.source_ne
  | author => exact n.author_ne
  | name => exact n.name_ne

end QualifiedName

/-- What the parts in front of a payload say, in whatever order they are sent: each component of the
name once, below its limit, and any number of tags, together below theirs. A name has no empty
component. -/
structure Describes (limits : Limits) (front : List Part) (metadata : UploadMetadata) : Prop where
  known : ∀ part ∈ front, ∃ field : MetadataField, part.name = field.label
  components (c : NameComponent) : ∃ part, (MetadataField.component c).among front = [part] ∧
    part.text? = some (metadata.name.component c) ∧ part.bytes.size < limits.fieldMaxSize
  tags : List.Forall₂ (fun part tag => part.text? = some tag)
    (MetadataField.tag.among front) metadata.tags
  budget : MetadataField.tag.among front ≠ [] →
    Part.totalSize (MetadataField.tag.among front) < limits.tagBudget

/-- What is said does not depend on the order, but for the order of the tags. -/
theorem Describes.perm {limits : Limits} {front other : List Part} {metadata : UploadMetadata}
    (describes : Describes limits front metadata) (permuted : other.Perm front) :
    ∃ tags, Describes limits other ⟨metadata.name, tags⟩ ∧ tags.Perm metadata.tags := by
  have sameParts (field : MetadataField) : (field.among other).Perm (field.among front) :=
    permuted.filter _
  obtain ⟨tags, read, sameTags⟩ :=
    List.perm_comp_forall₂ (sameParts .tag) describes.tags
  refine ⟨tags, ⟨?_, ?_, read, ?_⟩, sameTags⟩
  · exact fun part member => describes.known part (permuted.mem_iff.mp member)
  · intro c
    obtain ⟨part, single, rest⟩ := describes.components c
    have same := sameParts (.component c)
    rw [single] at same
    exact ⟨part, List.perm_singleton.mp same, rest⟩
  · intro some
    rw [Part.totalSize_perm (sameParts .tag)]
    exact describes.budget fun none => some (List.perm_nil.mp (none ▸ sameParts .tag))

namespace MetadataDraft

variable {d d' : MetadataDraft} {limits : Limits} {part : Part} {front rest : List Part}
  {metadata : UploadMetadata} {text : String}

theorem component_setComponent (d : MetadataDraft) (text : String) (named c : NameComponent) :
    (d.setComponent text named).component c = if c = named then some text else d.component c := by
  cases c <;> cases named <;> rfl

@[simp] theorem tags_setComponent (d : MetadataDraft) (text : String) (named : NameComponent) :
    (d.setComponent text named).tags = d.tags := by
  cases named <;> rfl

@[simp] theorem tagBytes_setComponent (d : MetadataDraft) (text : String) (named : NameComponent) :
    (d.setComponent text named).tagBytes = d.tagBytes := by
  cases named <;> rfl

@[simp] theorem component_addTag (d : MetadataDraft) (tag : String) (c : NameComponent) :
    (d.addTag tag).component c = d.component c := by
  cases c <;> rfl

/-- Of parts that are delivered in whole. -/
theorem accept_eq_ok (clean : part.content.failure? = none) :
    d.accept limits part = .ok d' ↔ ∃ field text, part.name = field.label ∧
      d.isTaken field = false ∧ part.text? = some text ∧
      part.bytes.size < d.limit limits field ∧ d' = d.set field text := by
  have same := Part.delivered_clean clean
  have sameText : String.fromUTF8? part.delivered = part.text? := congrArg String.fromUTF8? same
  rw [accept_ok_iff]
  constructor
  · rintro ⟨field, text, ⟨named, free, fits, _, read⟩, rfl⟩
    exact ⟨field, text, named, free, sameText ▸ read, same ▸ fits, rfl⟩
  · rintro ⟨field, text, named, free, read, fits, rfl⟩
    have fits : part.delivered.size < d.limit limits field := same ▸ fits
    exact ⟨field, text, ⟨named, free, fits, Part.break_clean clean, sameText.trans read⟩, rfl⟩

/-- The scan has come so far: the draft holds what these parts say. -/
structure Collects (limits : Limits) (front : List Part) (d : MetadataDraft) : Prop where
  known : ∀ part ∈ front, ∃ field : MetadataField, part.name = field.label
  missing (c : NameComponent) : d.component c = none → (MetadataField.component c).among front = []
  components (c : NameComponent) (text : String) : d.component c = some text →
    ∃ part, (MetadataField.component c).among front = [part] ∧ part.text? = some text ∧
      part.bytes.size < limits.fieldMaxSize
  tags : List.Forall₂ (fun part tag => part.text? = some tag)
    (MetadataField.tag.among front) d.tags.toList
  size : d.tagBytes = Part.totalSize (MetadataField.tag.among front)
  budget : MetadataField.tag.among front ≠ [] → d.tagBytes < limits.tagBudget

namespace Collects

theorem empty : Collects limits [] {} where
  known := by simp
  missing _ _ := rfl
  components c text := by cases c <;> simp [component]
  tags := .nil
  size := rfl
  budget := by simp [MetadataField.among]

theorem accept (collects : Collects limits front d) (clean : part.content.failure? = none)
    (accepted : d.accept limits part = .ok d') : Collects limits (front ++ [part]) d' := by
  obtain ⟨field, text, named, free, read, fits, rfl⟩ := (accept_eq_ok clean).mp accepted
  have sent (other : MetadataField) := MetadataField.among_snoc named other front
  have known : ∀ p ∈ front ++ [part], ∃ field : MetadataField, p.name = field.label := by
    simpa [or_imp, forall_and] using ⟨collects.known, field, named⟩
  cases field with
  | component own =>
    have free : d.component own = none := by simpa [isTaken] using free
    simp only [set]
    refine ⟨known, fun c => ?_, fun c other => ?_, ?_, ?_, ?_⟩
    · rw [component_setComponent, sent]
      by_cases same : c = own
      · simp [same]
      · simpa [same] using collects.missing c
    · rw [component_setComponent, sent]
      by_cases same : c = own
      · subst same
        simp only [if_true, collects.missing c free, List.nil_append]
        rintro ⟨⟩
        exact ⟨part, rfl, read, fits⟩
      · simpa [same] using collects.components c other
    · simpa [sent] using collects.tags
    · simpa [sent] using collects.size
    · simpa [sent] using collects.budget
  | tag =>
    simp only [set]
    simp only [limit] at fits
    have added : (d.addTag text).tagBytes = d.tagBytes + part.bytes.size := by
      rw [Part.size_of_text read]
      rfl
    refine ⟨known, fun c => ?_, fun c other => ?_, ?_, ?_, ?_⟩
    · simpa [sent] using collects.missing c
    · simpa [sent] using collects.components c other
    · simp only [sent, if_true, addTag, Array.toList_push]
      exact List.rel_append collects.tags (.cons read .nil)
    · simp only [sent, if_true, added, collects.size, Part.totalSize_append]
      rfl
    · intro _
      rw [added]
      omega

/-- The scan takes every part of a description. -/
theorem takes (collects : Collects limits front d) (clean : part.content.failure? = none)
    (describes : Describes limits (front ++ part :: rest) metadata) :
    ∃ d', d.accept limits part = .ok d' := by
  obtain ⟨field, named⟩ := describes.known part (by simp)
  have member : part ∈ field.among (front ++ part :: rest) :=
    MetadataField.mem_among.mpr ⟨by simp, named⟩
  have sent (other : MetadataField) := MetadataField.among_append other front (part :: rest)
  suffices acceptable : ∃ text, d.isTaken field = false ∧ part.text? = some text ∧
      part.bytes.size < d.limit limits field by
    obtain ⟨text, free, read, fits⟩ := acceptable
    exact ⟨_, (accept_eq_ok clean).mpr ⟨field, text, named, free, read, fits, rfl⟩⟩
  cases field with
  | component c =>
    obtain ⟨only, single, read, fits⟩ := describes.components c
    rw [single] at member
    obtain rfl := List.mem_singleton.mp member
    refine ⟨_, ?_, read, fits⟩
    cases taken : d.component c with
    | none => simp [isTaken, taken]
    | some text =>
      -- A part before this one would be a second part of the component.
      obtain ⟨earlier, before, _⟩ := collects.components c text taken
      rw [sent, before, MetadataField.among, List.filter_cons_of_pos (by simpa using named)] at single
      simp at single
  | tag =>
    obtain ⟨⟨i, bound⟩, found⟩ := List.get_of_mem member
    have read := describes.tags.get bound (describes.tags.length_eq ▸ bound)
    rw [found] at read
    have behind : MetadataField.tag.among (part :: rest) = part :: MetadataField.tag.among rest :=
      List.filter_cons_of_pos (by simpa using named)
    have budget := describes.budget (List.ne_nil_of_mem member)
    rw [sent, behind, Part.totalSize_append, ← collects.size, Part.totalSize] at budget
    refine ⟨_, rfl, read, ?_⟩
    simp only [limit]
    omega

end Collects

theorem finish_eq_ok : d.finish = .ok metadata ↔
    (∀ c, d.component c = some (metadata.name.component c)) ∧ d.tags.toList = metadata.tags := by
  have given (c : NameComponent) (name : QualifiedName) :
      name.component c = (d.component c).getD "" ↔ d.component c = some (name.component c) := by
    cases d.component c with
    | none => simp [name.component_ne]
    | some text => simp [eq_comm]
  have complete (name : QualifiedName) : (∀ c, d.component c = some (name.component c)) ↔
      QualifiedName.ofComponents (d.source.getD "") (d.author.getD "") (d.name.getD "") = .ok name := by
    simp only [QualifiedName.ofComponents_eq_ok, ← given]
    exact ⟨fun all => ⟨all .source, all .author, all .name⟩,
      fun ⟨source, author, name⟩ c => by cases c <;> assumption⟩
  rw [complete, finish]
  cases QualifiedName.ofComponents (d.source.getD "") (d.author.getD "") (d.name.getD "") with
  | error c => simp
  | ok name =>
    obtain ⟨_, _⟩ := metadata
    simp

theorem Collects.finish (collects : Collects limits front d) :
    d.finish = .ok metadata ↔ Describes limits front metadata := by
  rw [finish_eq_ok]
  constructor
  · rintro ⟨named, tags⟩
    refine ⟨collects.known, fun c => collects.components c _ (named c), tags ▸ collects.tags, ?_⟩
    exact collects.size ▸ collects.budget
  · intro describes
    refine ⟨fun c => ?_, ?_⟩
    · obtain ⟨part, single, read, _⟩ := describes.components c
      cases taken : d.component c with
      | none => simp [collects.missing c taken] at single
      | some text =>
        obtain ⟨other, also, readOther, _⟩ := collects.components c text taken
        obtain rfl := List.singleton_inj.mp (single.symm.trans also)
        exact readOther.symm.trans read
    · exact List.right_unique_forall₂' (fun _ _ _ a b => Option.some.inj (a.symm.trans b))
        collects.tags describes.tags

end MetadataDraft

/-- The first payload among the parts, with what stands in front of it and behind it. -/
structure Form.CutAt (parts front : List Part) (payload : Part) (rest : List Part) : Prop where
  whole : parts = front ++ payload :: rest
  payload : payload.name = payloadField
  first : ∀ part ∈ front, part.name ≠ payloadField

theorem Form.CutAt.unique {parts front front' rest rest' : List Part} {payload payload' : Part}
    (cut : CutAt parts front payload rest) (other : CutAt parts front' payload' rest') :
    front = front' ∧ payload = payload' ∧ rest = rest' := by
  obtain ⟨whole, isPayload, first⟩ := cut
  obtain ⟨whole', isPayload', first'⟩ := other
  induction front generalizing parts front' with
  | nil =>
    cases front' with
    | nil => simpa using whole.symm.trans whole'
    | cons part front' =>
      have same := (List.cons.inj (whole.symm.trans whole')).1
      exact absurd (same ▸ isPayload) (first' part List.mem_cons_self)
  | cons part front ih =>
    cases front' with
    | nil =>
      have same := (List.cons.inj (whole'.symm.trans whole)).1
      exact absurd (same ▸ isPayload') (first part List.mem_cons_self)
    | cons part' front' =>
      obtain ⟨samePart, sameRest⟩ := List.cons.inj (whole.symm.trans whole')
      have tails := ih rfl (fun p member => first p (List.mem_cons_of_mem _ member)) sameRest
        fun p member => first' p (List.mem_cons_of_mem _ member)
      exact ⟨by rw [samePart, tails.1], tails.2⟩

namespace MetadataDraft

open Form (CutAt)

variable {d d' : MetadataDraft} {limits : Limits} {ending : Except FormError Unit} {payload : Part}
  {before front parts rest : List Part} {metadata : UploadMetadata}

/-- What the scan collects is what stands in front of the first payload. -/
theorem Collects.found (collects : Collects limits before d)
    (clean : ∀ part ∈ parts, part.content.failure? = none)
    (found : collect limits ending d parts = .ok (d', payload, rest)) :
    ∃ front, CutAt parts front payload rest ∧ Collects limits (before ++ front) d' := by
  induction parts generalizing d before with
  | nil => cases ending <;> simp [collect] at found
  | cons part parts ih =>
    have clean := List.forall_mem_cons.mp clean
    unfold collect at found
    split at found
    next isPayload =>
      obtain ⟨rfl, rfl, rfl⟩ := found
      refine ⟨[], ⟨rfl, of_decide_eq_true isPayload, by simp⟩, ?_⟩
      rwa [List.append_nil]
    next other =>
      split at found
      · contradiction
      next accepted =>
        obtain ⟨front, cut, collected⟩ := ih (collects.accept clean.1 accepted) clean.2 found
        refine ⟨part :: front, ⟨?_, cut.payload, ?_⟩, ?_⟩
        · rw [cut.whole, List.cons_append]
        · have other : part.name ≠ payloadField := by simpa [Part.isPayload] using other
          exact List.forall_mem_cons.mpr ⟨other, cut.first⟩
        · rwa [List.append_assoc] at collected

/-- What is described is collected, whatever follows its payload. -/
theorem Collects.described (ending : Except FormError Unit) (collects : Collects limits before d)
    (clean : ∀ part ∈ front, part.content.failure? = none)
    (first : ∀ part ∈ front, part.name ≠ payloadField) (isPayload : payload.name = payloadField)
    (describes : Describes limits (before ++ front) metadata) :
    ∃ d', collect limits ending d (front ++ payload :: rest) = .ok (d', payload, rest) ∧
      Collects limits (before ++ front) d' := by
  induction front generalizing d before with
  | nil =>
    refine ⟨d, ?_, (List.append_nil before).symm ▸ collects⟩
    simp [collect, Part.isPayload, isPayload]
  | cons part front ih =>
    have clean := List.forall_mem_cons.mp clean
    have first := List.forall_mem_cons.mp first
    obtain ⟨next, accepted⟩ := collects.takes clean.1 describes
    have split : before ++ part :: front = before ++ [part] ++ front := by simp
    rw [split] at describes ⊢
    obtain ⟨d', collected, whole⟩ := ih (collects.accept clean.1 accepted) clean.2 first.2 describes
    refine ⟨d', ?_, whole⟩
    simpa [collect, Part.isPayload, first.1, accepted] using collected

/-- A scan succeeds exactly if what stands in front of the first payload is a description. -/
theorem collect_iff (ending : Except FormError Unit)
    (clean : ∀ part ∈ parts, part.content.failure? = none) :
    (∃ d, collect limits ending {} parts = .ok (d, payload, rest) ∧ d.finish = .ok metadata) ↔
      ∃ front, CutAt parts front payload rest ∧ Describes limits front metadata := by
  constructor
  · rintro ⟨d, found, finished⟩
    obtain ⟨front, cut, collected⟩ := Collects.empty.found clean found
    exact ⟨front, cut, collected.finish.mp finished⟩
  · rintro ⟨front, ⟨rfl, isPayload, first⟩, describes⟩
    have clean : ∀ part ∈ front, part.content.failure? = none :=
      fun part member => clean part (List.mem_append_left _ member)
    obtain ⟨d, found, collected⟩ :=
      Collects.empty.described ending clean first isPayload describes
    exact ⟨d, found, collected.finish.mpr describes⟩

end MetadataDraft

end Depot
