import Depot.Proofs.FormMetadata
import Mathlib.Algebra.GroupWithZero.Nat

/-! What the collector of metadata keeps, whatever it is fed. A part that is refused leaves no
trace, and what is accepted stays below the limits, so that the budget of the tags is never
overdrawn. -/
namespace Depot.MetadataDraft

/-- Takes parts one after another, also those behind a refused one. -/
def takeAll (limits : Limits) : MetadataDraft → List Part →
    List (Except GatewayError Unit) × MetadataDraft
  | d, [] => ([], d)
  | d, part :: rest =>
    let (answer, d) := d.take limits part
    let (answers, d) := takeAll limits d rest
    (answer :: answers, d)

/-- The tags among the parts that were accepted, as often as they were sent. -/
def acceptedTags : List Part → List (Except GatewayError Unit) → List String
  | part :: rest, .ok () :: answers =>
    if part.name = "tag" then (String.fromUTF8? part.delivered).toList ++ acceptedTags rest answers
    else acceptedTags rest answers
  | _ :: rest, .error _ :: answers => acceptedTags rest answers
  | _, _ => []

structure Within (limits : Limits) (d : MetadataDraft) : Prop where
  size : d.tagBytes = (d.tags.toList.map String.utf8ByteSize).sum
  budget : d.tags ≠ #[] → d.tagBytes < limits.tagBudget
  components (c : NameComponent) (text : String) :
    d.component c = some text → text.utf8ByteSize < limits.fieldMaxSize

variable {limits : Limits} {d d' : MetadataDraft} {part : Part} {field : MetadataField}
  {text : String} {error : GatewayError}

section Running

variable {α β : Type}

theorem run_get (next : MetadataDraft → ExceptT GatewayError (StateM MetadataDraft) β)
    (d : MetadataDraft) : (get >>= next).run.run d = (next d).run.run d := rfl

theorem run_lift (result : Except GatewayError α)
    (next : α → ExceptT GatewayError (StateM MetadataDraft) β) (d : MetadataDraft) :
    (liftM result >>= next).run.run d =
      match result with
      | .ok a => (next a).run.run d
      | .error error => (.error error, d) := by
  cases result <;> rfl

end Running

theorem take_eq : d.take limits part =
    match d.accept limits part with
    | .ok d' => (.ok (), d')
    | .error error => (.error error, d) := by
  unfold take acceptInPlace accept
  cases MetadataField.ofName? part.name with
  | none => rfl
  | some field =>
    simp only [run_get]
    cases d.isTaken field with
    | true => rfl
    | false =>
      simp only [Bool.false_eq_true, if_false, run_get, run_lift]
      cases readText (d.limit limits field) part with
      | ok text => rfl
      | error error => rfl

/-- A part is accepted with its text, or refused without a trace. -/
theorem take_cases (limits : Limits) (d : MetadataDraft) (part : Part) :
    (∃ field text, Accepts limits d part field text ∧
      d.take limits part = (.ok (), d.set field text)) ∨
    ∃ error, Refuses limits d part error ∧ d.take limits part = (.error error, d) := by
  rcases accepts_or_refuses limits d part with ⟨field, text, accepts⟩ | ⟨error, refuses⟩
  · exact .inl ⟨field, text, accepts, by rw [take_eq, accepts.accept]⟩
  · exact .inr ⟨error, refuses, by rw [take_eq, refuses.accept]⟩

theorem take_accepted_iff : (d.take limits part).1 = .ok () ↔
    ∃ field text, Accepts limits d part field text := by
  rcases take_cases limits d part with ⟨field, text, accepts, taken⟩ | ⟨error, refuses, taken⟩
  · simp only [taken, true_iff]
    exact ⟨field, text, accepts⟩
  · simp only [taken, reduceCtorEq, false_iff]
    rintro ⟨field, text, accepts⟩
    have refused := refuses.accept
    rw [accepts.accept] at refused
    contradiction

theorem take_refused_iff : d.take limits part = (.error error, d') ↔
    Refuses limits d part error ∧ d' = d := by
  rw [← accept_error_iff, take_eq]
  cases d.accept limits part with
  | ok accepted => simp
  | error cause => simp [eq_comm]

/-- What is asked of a part that can be read: a field that is free, a length below what is left for
it, and text. -/
theorem accepts_iff (readable : ∀ field : MetadataField, part.name = field.label →
      ∃ bounded, (part.content.readBounded (d.limit limits field)).1 = .ok bounded) :
    (∃ field text, Accepts limits d part field text) ↔
      (part.name = "tag" ∧ part.delivered.size < limits.tagBudget - d.tagBytes ∨
        ∃ c : NameComponent, part.name = c.label ∧ d.component c = none ∧
          part.delivered.size < limits.fieldMaxSize) ∧
      ∃ text, String.fromUTF8? part.delivered = some text := by
  constructor
  · rintro ⟨field | _, text, accepts⟩
    · have free : d.component field = none := by simpa [isTaken] using accepts.free
      exact ⟨.inr ⟨field, accepts.named, free, accepts.fits⟩, text, accepts.read⟩
    · exact ⟨.inl ⟨accepts.named, accepts.fits⟩, text, accepts.read⟩
  · rintro ⟨⟨named, fits⟩ | ⟨c, named, free, fits⟩, text, read⟩
    · obtain ⟨_, unbroken⟩ := readable .tag named
      exact ⟨.tag, text, named, rfl, fits, Part.whole_of_read unbroken fits, read⟩
    · obtain ⟨_, unbroken⟩ := readable (.component c) named
      have free : d.isTaken (.component c) = false := by simp [isTaken, free]
      exact ⟨.component c, text, named, free, fits, Part.whole_of_read unbroken fits, read⟩

namespace Within

theorem empty (limits : Limits) : Within limits {} where
  size := rfl
  budget := by simp
  components c text := by cases c <;> simp [component]

/-- The budget is not overdrawn. -/
theorem tagBytes_le (within : Within limits d) : d.tagBytes ≤ limits.tagBudget := by
  by_cases none : d.tags = #[]
  · have size := within.size
    simp only [none, List.map_nil, List.sum_nil] at size
    omega
  · exact Nat.le_of_lt (within.budget none)

theorem set (within : Within limits d) (fits : text.utf8ByteSize < d.limit limits field) :
    Within limits (d.set field text) := by
  cases field with
  | component own =>
    refine ⟨?_, ?_, fun c other => ?_⟩
    · simpa [MetadataDraft.set] using within.size
    · simpa [MetadataDraft.set] using within.budget
    · rw [MetadataDraft.set, component_setComponent]
      split
      · rintro ⟨⟩
        exact fits
      · exact within.components c other
  | tag =>
    simp only [limit] at fits
    refine ⟨?_, fun _ => ?_, fun c other => ?_⟩
    · simp [MetadataDraft.set, addTag, within.size]
    · simp only [MetadataDraft.set, addTag]
      omega
    · simpa [MetadataDraft.set] using within.components c other

theorem take (within : Within limits d) (part : Part) :
    Within limits (d.take limits part).2 := by
  rcases take_cases limits d part with ⟨field, text, accepts, taken⟩ | ⟨error, _, taken⟩
  · rw [taken]
    exact within.set (Part.size_of_utf8 accepts.read ▸ accepts.fits)
  · rwa [taken]

theorem takeAll (within : Within limits d) (parts : List Part) :
    Within limits (d.takeAll limits parts).2 := by
  induction parts generalizing d with
  | nil => exact within
  | cons part rest ih => exact ih (within.take part)

end Within

theorem takeAll_tags (limits : Limits) (d : MetadataDraft) (parts : List Part) :
    (d.takeAll limits parts).2.tags.toList =
      d.tags.toList ++ acceptedTags parts (d.takeAll limits parts).1 := by
  induction parts generalizing d with
  | nil => exact (List.append_nil _).symm
  | cons part rest ih =>
    have later := ih (d.take limits part).2
    rcases take_cases limits d part with ⟨field, text, accepts, taken⟩ | ⟨error, _, taken⟩
    · rw [taken] at later
      simp only [takeAll, taken, later, acceptedTags, accepts.read, Option.toList_some]
      cases field with
      | component own =>
        have other : part.name ≠ "tag" := by rw [accepts.named]; cases own <;> decide
        simp only [MetadataDraft.set, tags_setComponent, other, if_false]
      | tag =>
        have named : part.name = "tag" := accepts.named
        simp only [MetadataDraft.set, addTag, Array.toList_push, named, if_true, List.append_assoc]
    · rw [taken] at later
      simp only [takeAll, taken, later, acceptedTags]

/-- Whatever parts a collector was fed, in whatever pieces and whether or not it took them: it
counts the bytes of its tags, has not overdrawn their budget, and holds no component that reaches
its limit; its tags are those it accepted, in order and with repeats. The next part, if reading it
does not fail, is accepted exactly if its field is free, its length is below what is left and it is
text. Otherwise it is refused for the first reason there is, and nothing changes. -/
theorem collector_keeps_its_limits (limits : Limits) (parts : List Part) :
    let answers := (takeAll limits {} parts).1
    let d := (takeAll limits {} parts).2
    d.tagBytes = (d.tags.toList.map String.utf8ByteSize).sum ∧
    (d.tags ≠ #[] → d.tagBytes < limits.tagBudget) ∧ d.tagBytes ≤ limits.tagBudget ∧
    (∀ c text, d.component c = some text → text.utf8ByteSize < limits.fieldMaxSize) ∧
    d.tags.toList = acceptedTags parts answers ∧
    ∀ part,
      ((∀ field : MetadataField, part.name = field.label →
          ∃ bounded, (part.content.readBounded (d.limit limits field)).1 = .ok bounded) →
        ((d.take limits part).1 = .ok () ↔
          (part.name = "tag" ∧ part.delivered.size < limits.tagBudget - d.tagBytes ∨
            ∃ c : NameComponent, part.name = c.label ∧ d.component c = none ∧
              part.delivered.size < limits.fieldMaxSize) ∧
          ∃ text, String.fromUTF8? part.delivered = some text)) ∧
      ∀ error d', d.take limits part = (.error error, d') ↔
        Refuses limits d part error ∧ d' = d := by
  intro answers d
  have within : Within limits d := (Within.empty limits).takeAll parts
  have tags : d.tags.toList = acceptedTags parts answers := takeAll_tags limits {} parts
  refine ⟨within.size, within.budget, within.tagBytes_le, within.components, tags, fun part => ?_⟩
  exact ⟨fun readable => take_accepted_iff.trans (accepts_iff readable),
    fun error d' => take_refused_iff⟩

def tightLimits : Limits := { fieldMaxSize := 4, tagBudget := 6 }

/-- The second source is both repeated and too large, the third tag one byte too large. -/
def sentParts : List Part :=
  [⟨"source", .ofBytes "git".toUTF8⟩, ⟨"source", .ofBytes "gitlab".toUTF8⟩,
    ⟨"tag", .ofBytes "ab".toUTF8⟩, ⟨"tag", .ofBytes "ab".toUTF8⟩, ⟨"tag", .ofBytes "cd".toUTF8⟩,
    ⟨"tag", [.data "x".toUTF8, .data .empty]⟩]

/-- With one byte left, no tag fits but the empty one. -/
theorem empty_tag_fits :
    let d := (takeAll tightLimits {} sentParts).2
    d.tags = #["ab", "ab", "x"] ∧ d.source = some "git" ∧
    (d.take tightLimits ⟨"tag", .ofBytes .empty⟩).1 = .ok () ∧
    d.take tightLimits ⟨"tag", .ofBytes "y".toUTF8⟩ = (.error (.fieldTooLarge "tag" 1), d) := by
  intro d
  obtain ⟨_, _, _, _, _, next⟩ := collector_keeps_its_limits tightLimits sentParts
  have used : d.tagBytes = 5 := by decide +kernel
  refine ⟨by decide +kernel, by decide +kernel, ?_, ?_⟩
  · apply ((next ⟨"tag", .ofBytes .empty⟩).1 fun field named => ?_).mpr
    · exact ⟨.inl ⟨rfl, by decide +kernel⟩, "", by decide +kernel⟩
    · obtain rfl : field = .tag := MetadataField.label_injective named.symm
      exact ⟨.complete .empty, by decide +kernel⟩
  · apply ((next ⟨"tag", .ofBytes "y".toUTF8⟩).2 _ d).mpr
    refine ⟨?_, rfl⟩
    exact .tooLarge .tag rfl rfl (by decide +kernel)

end Depot.MetadataDraft
