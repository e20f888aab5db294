import Depot.Proofs.BoundedRead
import Depot.Transfer.Metadata

/-! What becomes of one part in front of a payload. It is accepted for a field that is free, with a
text that fits; otherwise it is refused for the first reason there is. -/
namespace Depot

namespace Part

def bytes (part : Part) : ByteArray := part.content.available

def text? (part : Part) : Option String := String.fromUTF8? part.bytes

/-- The bytes that the part delivers to someone who tries interrupted reads again. -/
def delivered (part : Part) : ByteArray := part.content.uninterrupted.available

def break? (part : Part) : Option ReadError := part.content.uninterrupted.failure?

variable {part : Part} {text : String}

theorem size_of_utf8 {bytes : ByteArray} (read : String.fromUTF8? bytes = some text) :
    bytes.size = text.utf8ByteSize := by
  unfold String.fromUTF8? at read
  split at read
  next valid =>
    obtain rfl := Option.some.inj read
    rfl
  next => contradiction

theorem size_of_text (read : part.text? = some text) : part.bytes.size = text.utf8ByteSize :=
  size_of_utf8 read

theorem delivered_clean (clean : part.content.failure? = none) : part.delivered = part.bytes :=
  congrArg Reader.available (Reader.uninterrupted_clean clean)

theorem break_clean (clean : part.content.failure? = none) : part.break? = none := by
  rw [break?, Reader.uninterrupted_clean clean, clean]

/-- A read that ends below its ceiling without a failure has seen the end. -/
theorem whole_of_read {limit : Nat} {bounded : Reader.Bounded}
    (read : (part.content.readBounded limit).1 = .ok bounded)
    (fits : part.delivered.size < limit) : part.break? = none := by
  have short : ¬ limit ≤ part.content.uninterrupted.available.size := Nat.not_le.mpr fits
  rw [Reader.readBounded_answer, if_neg short] at read
  cases broken : part.break? with
  | none => rfl
  | some error =>
    rw [break?] at broken
    simp only [broken, reduceCtorEq] at read

end Part

namespace MetadataField

def label : MetadataField → String
  | .component c => c.label
  | .tag => "tag"

theorem label_injective : Function.Injective label := by
  intro a b same
  rcases a with (_ | _ | _) | _ <;> rcases b with (_ | _ | _) | _ <;>
    first | rfl | exact absurd same (by decide)

theorem ofName?_label (field : MetadataField) : ofName? field.label = some field := by
  rcases field with (_ | _ | _) | _ <;> decide

theorem ofName?_eq_some {name : String} {field : MetadataField} :
    ofName? name = some field ↔ name = field.label := by
  constructor
  · intro found
    unfold ofName? at found
    split at found
    next isTag =>
      obtain rfl := Option.some.inj found
      exact isTag
    next =>
      obtain ⟨c, listed, rfl⟩ := Option.map_eq_some_iff.mp found
      have named := List.find?_some listed
      exact of_decide_eq_true named
  · rintro rfl
    exact ofName?_label field

end MetadataField

namespace MetadataDraft

variable {limits : Limits} {d d' : MetadataDraft} {part : Part} {field : MetadataField}
  {text : String} {error : GatewayError}

theorem readText_eq (limit : Nat) (part : Part) :
    readText limit part =
      if limit ≤ part.delivered.size then .error (.fieldTooLarge part.name limit)
      else
        match part.break? with
        | some error => .error (.ofRead "reading multipart field" error)
        | none =>
          match String.fromUTF8? part.delivered with
          | none => .error (.malformedRequest (.fieldNotText part.name))
          | some text => .ok text := by
  have bounded := Reader.readBounded_answer limit part.content
  simp only [readText, bounded, Part.delivered, Part.break?]
  by_cases long : limit ≤ part.content.uninterrupted.available.size
  · simp only [long, if_true]
  · simp only [long, if_false]
    cases part.content.uninterrupted.failure? with
    | none => rfl
    | some error => rfl

structure Accepts (limits : Limits) (d : MetadataDraft) (part : Part) (field : MetadataField)
    (text : String) : Prop where
  named : part.name = field.label
  free : d.isTaken field = false
  fits : part.delivered.size < d.limit limits field
  whole : part.break? = none
  read : String.fromUTF8? part.delivered = some text

/-- Why a part is refused. Each reason counts only if none of those before it does. -/
inductive Refuses (limits : Limits) (d : MetadataDraft) (part : Part) : GatewayError → Prop
  | unknown (unnamed : ∀ field : MetadataField, part.name ≠ field.label) :
    Refuses limits d part (.unexpectedField .unknown part.name)
  | repeated (field : MetadataField) (named : part.name = field.label)
      (taken : d.isTaken field = true) :
    Refuses limits d part (.unexpectedField .repeated part.name)
  | tooLarge (field : MetadataField) (named : part.name = field.label)
      (free : d.isTaken field = false) (long : d.limit limits field ≤ part.delivered.size) :
    Refuses limits d part (.fieldTooLarge part.name (d.limit limits field))
  | unread (field : MetadataField) (named : part.name = field.label)
      (free : d.isTaken field = false) (fits : part.delivered.size < d.limit limits field)
      (cause : ReadError) (broken : part.break? = some cause) :
    Refuses limits d part (.ofRead "reading multipart field" cause)
  | notText (field : MetadataField) (named : part.name = field.label)
      (free : d.isTaken field = false) (fits : part.delivered.size < d.limit limits field)
      (whole : part.break? = none) (garbled : String.fromUTF8? part.delivered = none) :
    Refuses limits d part (.malformedRequest (.fieldNotText part.name))

theorem accepts_or_refuses (limits : Limits) (d : MetadataDraft) (part : Part) :
    (∃ field text, Accepts limits d part field text) ∨ ∃ error, Refuses limits d part error := by
  by_cases known : ∃ field : MetadataField, part.name = field.label
  · obtain ⟨field, named⟩ := known
    cases free : d.isTaken field with
    | true => exact .inr ⟨_, .repeated field named free⟩
    | false =>
      by_cases fits : part.delivered.size < d.limit limits field
      · cases whole : part.break? with
        | some cause => exact .inr ⟨_, .unread field named free fits cause whole⟩
        | none =>
          cases read : String.fromUTF8? part.delivered with
          | none => exact .inr ⟨_, .notText field named free fits whole read⟩
          | some text => exact .inl ⟨field, text, named, free, fits, whole, read⟩
      · exact .inr ⟨_, .tooLarge field named free (Nat.not_lt.mp fits)⟩
  · exact .inr ⟨_, .unknown fun field named => known ⟨field, named⟩⟩

theorem accept_free (named : part.name = field.label) (free : d.isTaken field = false) :
    d.accept limits part = (readText (d.limit limits field) part).map (d.set field) := by
  simp only [accept, MetadataField.ofName?_eq_some.mpr named, free, Bool.false_eq_true, if_false]

theorem Accepts.accept (accepts : Accepts limits d part field text) :
    d.accept limits part = .ok (d.set field text) := by
  have short := Nat.not_le.mpr accepts.fits
  rw [accept_free accepts.named accepts.free, readText_eq, if_neg short, accepts.whole]
  simp only [accepts.read, Except.map]

theorem Refuses.accept (refuses : Refuses limits d part error) :
    d.accept limits part = .error error := by
  cases refuses with
  | unknown unnamed =>
    cases found : MetadataField.ofName? part.name with
    | none => simp only [MetadataDraft.accept, found]
    | some field => exact absurd (MetadataField.ofName?_eq_some.mp found) (unnamed field)
  | repeated field named taken =>
    simp only [MetadataDraft.accept, MetadataField.ofName?_eq_some.mpr named, taken, if_true]
  | tooLarge field named free long =>
    rw [accept_free named free, readText_eq, if_pos long]
    rfl
  | unread field named free fits cause broken =>
    rw [accept_free named free, readText_eq, if_neg (Nat.not_le.mpr fits), broken]
    rfl
  | notText field named free fits whole garbled =>
    rw [accept_free named free, readText_eq, if_neg (Nat.not_le.mpr fits), whole]
    simp only [garbled, Except.map]

theorem accept_ok_iff : d.accept limits part = .ok d' ↔
    ∃ field text, Accepts limits d part field text ∧ d' = d.set field text := by
  constructor
  · intro accepted
    rcases accepts_or_refuses limits d part with ⟨field, text, accepts⟩ | ⟨error, refuses⟩
    · rw [accepts.accept] at accepted
      exact ⟨field, text, accepts, (Except.ok.inj accepted).symm⟩
    · rw [refuses.accept] at accepted
      contradiction
  · rintro ⟨field, text, accepts, rfl⟩
    exact accepts.accept

theorem accept_error_iff : d.accept limits part = .error error ↔ Refuses limits d part error := by
  constructor
  · intro refused
    rcases accepts_or_refuses limits d part with ⟨field, text, accepts⟩ | ⟨other, refuses⟩
    · rw [accepts.accept] at refused
      contradiction
    · rw [refuses.accept] at refused
      exact Except.error.inj refused ▸ refuses
  · exact Refuses.accept

end MetadataDraft

end Depot
