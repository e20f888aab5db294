import Depot.Manifest
import Depot.Proofs.RecordGrammar

/-! # Written manifests

Which tokens write a manifest. An object has one kind and at most one specification, in any order
and among members of any other key; an array has them as its items. A blueprint is found in the
value that is the specification.
-/

namespace Depot

namespace Manifest

open Json (Token IsValue)
open Json.Decoder
open Json.Token (arrayOf objectOf)

def valuesOf (key : String) (members : List (String × List Token)) : List (List Token) :=
  (members.filter fun member => member.1 = key).map fun member => member.2

inductive WritesSpec : List (List Token) → Json → Prop
  | missing : WritesSpec [] .null
  | given {value : List Token} {spec : Json} : Json.Written (Json.maxDepth - 1) value spec →
      WritesSpec [value] spec

/-- The tokens write the manifest: an object with further members of any kind, or an array. -/
inductive Written : List Token → Manifest → Prop
  | object {members : List (String × List Token)} {kind : String} {spec : Json} :
      valuesOf "kind" members = [[.string (some kind)]] →
      WritesSpec (valuesOf "spec" members) spec →
      (∀ member ∈ members, member.1 ≠ "kind" → member.1 ≠ "spec" → IsValue member.2) →
      Written (objectOf members) ⟨kind, spec⟩
  | array {kind : String} {parts : List (List Token)} {spec : Json} : WritesSpec parts spec →
      Written (arrayOf ([.string (some kind)] :: parts)) ⟨kind, spec⟩

variable {ε : Type}

def kindField : Field ε Draft := .text "kind" Draft.kind fun d text => { d with kind := some text }

def specField : Field ε Draft where
  key := "spec"
  isRead d := d.spec.isSome
  read d tokens := (Json.decoder (Json.maxDepth - 1) tokens).map fun (spec, rest) =>
    ({ d with spec := some spec }, rest)

def fields : List (Field ε Draft) := [kindField, specField]

theorem decoder_eq : decoder (ε := ε) = record fields 1 {} Draft.finish := rfl

theorem follows_kind (d : Draft) : Follows (kindField (ε := ε).read d) fun tokens next =>
    ∃ kind, tokens = [.string (some kind)] ∧ { d with kind := some kind } = next :=
  follows_string.map fun kind => ({ d with kind := some kind } : Draft)

theorem follows_spec (d : Draft) : Follows (specField (ε := ε).read d) fun tokens next =>
    ∃ spec, Json.Written (Json.maxDepth - 1) tokens spec ∧ { d with spec := some spec } = next :=
  (follows_value _).map fun spec => ({ d with spec := some spec } : Draft)

theorem follows_fields (field : Field ε Draft) (mem : field ∈ fields) (d : Draft) :
    Follows (field.read d) (Reads (field.read d)) := by
  simp only [fields, List.mem_cons, List.not_mem_nil, or_false] at mem
  rcases mem with rfl | rfl
  · exact (follows_kind d).reads
  · exact (follows_spec d).reads

/-- A part of a draft is what it was, or the one value that there is for it. -/
inductive Sets {β : Type} (grammar : List Token → β → Prop) :
    Option β → List (List Token) → Option β → Prop
  | kept {part : Option β} : Sets grammar part [] part
  | filled {value : List Token} {b : β} : grammar value b → Sets grammar none [value] (some b)

section Sets

variable {β : Type} {grammar : List Token → β → Prop} {part last : Option β}

theorem sets_nil_iff : Sets grammar part [] last ↔ part = last := by
  constructor
  · rintro ⟨⟩
    rfl
  · rintro rfl
    exact .kept

theorem sets_cons_iff {value : List Token} {values : List (List Token)} :
    Sets grammar part (value :: values) last ↔
      part = none ∧ ∃ b, grammar value b ∧ Sets grammar (some b) values last := by
  constructor
  · rintro (_ | derived)
    exact ⟨rfl, _, derived, .kept⟩
  · rintro ⟨rfl, b, derived, ⟨⟩⟩
    exact .filled derived

end Sets

theorem valuesOf_cons (key own : String) (value : List Token)
    (members : List (String × List Token)) : valuesOf key ((own, value) :: members) =
      if own = key then value :: valuesOf key members else valuesOf key members := by
  by_cases same : own = key <;> simp [valuesOf, same]

theorem reads_kind_iff {d next : Draft} {value : List Token} :
    Reads (member (ε := ε) fields "kind" d) value next ↔ d.kind = none ∧
      ∃ kind, value = [.string (some kind)] ∧ { d with kind := some kind } = next := by
  rw [reads_field_iff rfl, (follows_kind d).reads_iff]
  simp [kindField, Field.text]

theorem reads_spec_iff {d next : Draft} {value : List Token} :
    Reads (member (ε := ε) fields "spec" d) value next ↔ d.spec = none ∧
      ∃ spec, Json.Written (Json.maxDepth - 1) value spec ∧
        { d with spec := some spec } = next := by
  rw [reads_field_iff rfl, (follows_spec d).reads_iff]
  simp [specField]

theorem reads_other_iff {key : String} (noKind : key ≠ "kind") (noSpec : key ≠ "spec")
    {d next : Draft} {value : List Token} :
    Reads (member (ε := ε) fields key d) value next ↔ IsValue value ∧ d = next :=
  reads_unknown_iff (by
    simp [fields, kindField, specField, Field.text, Ne.symm noKind, Ne.symm noSpec])

theorem fills_iff {members : List (String × List Token)} {d last : Draft} :
    Fills (ε := ε) fields d members last ↔
      Sets (fun value kind => value = [.string (some kind)]) d.kind (valuesOf "kind" members)
        last.kind ∧
      Sets (Json.Written (Json.maxDepth - 1)) d.spec (valuesOf "spec" members) last.spec ∧
      ∀ member ∈ members, member.1 ≠ "kind" → member.1 ≠ "spec" → IsValue member.2 := by
  induction members generalizing d with
  | nil =>
    simp only [valuesOf, List.filter_nil, List.map_nil, sets_nil_iff, List.not_mem_nil]
    constructor
    · rintro ⟨⟩
      exact ⟨rfl, rfl, nofun⟩
    · rintro ⟨kind, spec, _⟩
      obtain rfl : d = last := by cases d; cases last; congr
      exact .nil
  | cons member members ih =>
    obtain ⟨key, value⟩ := member
    simp only [fills_cons_iff, valuesOf_cons, List.forall_mem_cons, ih]
    by_cases isKind : key = "kind"
    · subst isKind
      simp only [reads_kind_iff, sets_cons_iff, if_true, ne_eq, not_true, false_implies, true_and,
        if_neg (by decide : ¬ "kind" = "spec")]
      constructor
      · rintro ⟨_, ⟨unset, kind, written, rfl⟩, kinds, specs, others⟩
        exact ⟨⟨unset, kind, written, kinds⟩, specs, others⟩
      · rintro ⟨⟨unset, kind, written, kinds⟩, specs, others⟩
        exact ⟨_, ⟨unset, kind, written, rfl⟩, kinds, specs, others⟩
    by_cases isSpec : key = "spec"
    · subst isSpec
      simp only [reads_spec_iff, sets_cons_iff, if_true, ne_eq, not_true, false_implies, true_and,
        implies_true, if_neg (by decide : ¬ "spec" = "kind")]
      constructor
      · rintro ⟨_, ⟨unset, spec, written, rfl⟩, kinds, specs, others⟩
        exact ⟨kinds, ⟨unset, spec, written, specs⟩, others⟩
      · rintro ⟨kinds, ⟨unset, spec, written, specs⟩, others⟩
        exact ⟨_, ⟨unset, spec, written, rfl⟩, kinds, specs, others⟩
    · simp only [reads_other_iff isKind isSpec, ne_eq, isKind, isSpec, if_false,
        not_false_eq_true, true_implies]
      constructor
      · rintro ⟨_, ⟨value, rfl⟩, kinds, specs, others⟩
        exact ⟨kinds, specs, value, others⟩
      · rintro ⟨kinds, specs, value, others⟩
        exact ⟨_, ⟨value, rfl⟩, kinds, specs, others⟩

theorem fillsInOrder_iff {last : Draft} {value : List Token} {values : List (List Token)} :
    FillsInOrder (ε := ε) fields {} (value :: values) last ↔
      ∃ kind, value = [.string (some kind)] ∧ last.kind = some kind ∧
        Sets (Json.Written (Json.maxDepth - 1)) none values last.spec := by
  constructor
  · rintro (_ | ⟨reads, fills⟩)
    obtain ⟨kind, rfl, rfl⟩ := (follows_kind {}).reads_iff.mp reads
    refine ⟨kind, rfl, ?_⟩
    rcases fills with _ | ⟨reads, ⟨⟩⟩
    · exact ⟨rfl, .kept⟩
    · obtain ⟨spec, written, rfl⟩ := (follows_spec _).reads_iff.mp reads
      exact ⟨rfl, .filled written⟩
  · rintro ⟨kind, rfl, isKind, sets⟩
    refine .cons ((follows_kind {}).reads_iff.mpr ⟨kind, rfl, rfl⟩) ?_
    obtain ⟨lastKind, lastSpec⟩ := last
    obtain rfl := isKind
    rcases sets with _ | written
    · exact .nil
    · exact .cons ((follows_spec _).reads_iff.mpr ⟨_, written, rfl⟩) .nil

theorem finish_eq_ok_iff {d : Draft} {m : Manifest} :
    (d.finish : Except (Json.DecodeError ε) Manifest) = .ok m ↔
      d.kind = some m.kind ∧ d.spec.getD .null = m.spec := by
  unfold Draft.finish
  cases d.kind with
  | none => simp
  | some kind => cases m; simp

theorem sets_kind_iff {kind : String} {values : List (List Token)} :
    Sets (fun value kind => value = [.string (some kind)]) none values (some kind) ↔
      values = [[.string (some kind)]] := by
  constructor
  · rintro (_ | rfl)
    rfl
  · rintro rfl
    exact .filled rfl

theorem writesSpec_iff {spec : Json} {values : List (List Token)} : WritesSpec values spec ↔
    ∃ part : Option Json, Sets (Json.Written (Json.maxDepth - 1)) none values part ∧
      part.getD .null = spec := by
  constructor
  · rintro (_ | written)
    · exact ⟨none, .kept, rfl⟩
    · exact ⟨some spec, .filled written, rfl⟩
  · rintro ⟨part, _ | written, rfl⟩
    · exact .missing
    · exact .given written

theorem follows_decoder : Follows (decoder (ε := ε)) Written where
  iff := by
    intro tokens m rest
    rw [decoder_eq]
    constructor
    · intro read
      cases tokens with
      | nil => cases read
      | cons token tokens =>
        cases token with
        | leftBrace =>
          obtain ⟨members, last, whole, fills, finishes⟩ :=
            (record_object_iff follows_fields).mp read
          obtain ⟨kinds, specs, others⟩ := fills_iff.mp fills
          obtain ⟨isKind, isSpec⟩ := finish_eq_ok_iff.mp finishes
          rw [isKind] at kinds
          have spec := writesSpec_iff.mpr ⟨_, specs, isSpec⟩
          exact ⟨_, whole, .object (sets_kind_iff.mp kinds) spec others⟩
        | leftBracket =>
          obtain ⟨value, values, last, whole, fills, finishes⟩ :=
            (record_array_iff follows_fields).mp read
          obtain ⟨kind, rfl, set, specs⟩ := fillsInOrder_iff.mp fills
          obtain ⟨isKind, isSpec⟩ := finish_eq_ok_iff.mp finishes
          obtain rfl := Option.some.inj (set.symm.trans isKind)
          exact ⟨_, whole, .array (writesSpec_iff.mpr ⟨_, specs, isSpec⟩)⟩
        | _ => cases read
    · rintro ⟨front, rfl, written⟩
      cases written with
      | @object members kind _ kinds spec others =>
        obtain ⟨part, specs, isSpec⟩ := writesSpec_iff.mp spec
        have fills : Fills (ε := ε) fields {} members ⟨some kind, part⟩ :=
          fills_iff.mpr ⟨sets_kind_iff.mpr kinds, specs, others⟩
        exact (record_object_iff follows_fields).mpr
          ⟨_, _, rfl, fills, finish_eq_ok_iff.mpr ⟨rfl, isSpec⟩⟩
      | @array kind parts _ spec =>
        obtain ⟨part, specs, isSpec⟩ := writesSpec_iff.mp spec
        have fills : FillsInOrder (ε := ε) fields {} ([.string (some kind)] :: parts)
            ⟨some kind, part⟩ := fillsInOrder_iff.mpr ⟨kind, rfl, rfl, specs⟩
        exact (record_array_iff follows_fields).mpr
          ⟨_, _, _, rfl, fills, finish_eq_ok_iff.mpr ⟨rfl, isSpec⟩⟩

/-- A text is read as the manifest that its tokens write. -/
theorem parse_eq_ok_iff {text : List UInt8} {m : Manifest} :
    parse text = .ok m ↔ Written (Token.ofBytes text) m := by
  unfold parse
  rw [ofBytes_eq_ok_iff, follows_decoder.iff]
  simp

end Manifest

/-! ## Blueprints -/

namespace Blueprint

variable {b : Blueprint}

inductive WritesInput : Option Json → String → Prop
  | missing : WritesInput none ""
  | given (input : String) : WritesInput (some (.string input)) input

inductive WritesArtifact : Json → Blueprint → Prop
  | object {members : List (String × Json)} {source function input : String} :
      Json.lookup members "source" = some (.string source) →
      Json.lookup members "function" = some (.string function) →
      WritesInput (Json.lookup members "input") input →
      WritesArtifact (.object members) ⟨source, function, input⟩
  | array {source function input : String} {part : Option Json} : WritesInput part input →
      WritesArtifact (.array (.string source :: .string function :: part.toList))
        ⟨source, function, input⟩

inductive WritesSpec : Json → Blueprint → Prop
  | object {members : List (String × Json)} {artifact : Json} {b : Blueprint} :
      Json.lookup members "artifact" = some artifact → WritesArtifact artifact b →
      WritesSpec (.object members) b
  | array {artifact : Json} {b : Blueprint} : WritesArtifact artifact b →
      WritesSpec (.array [artifact]) b

theorem text?_eq_some_iff {value : Json} {text : String} :
    value.text? = some text ↔ value = .string text := by
  cases value <;> simp [Json.text?]

theorem writesInput_iff {part : Option Json} {input : String} :
    WritesInput part input ↔ (part = none ∧ input = "") ∨ part = some (.string input) := by
  constructor
  · rintro (_ | _)
    · exact .inl ⟨rfl, rfl⟩
    · exact .inr rfl
  · rintro (⟨rfl, rfl⟩ | rfl)
    · exact .missing
    · exact .given input

theorem ofArtifact?_eq_some_iff {artifact : Json} :
    ofArtifact? artifact = some b ↔ WritesArtifact artifact b := by
  constructor
  · intro read
    unfold ofArtifact? at read
    split at read
    case h_1 members =>
      simp only [Option.bind_eq_bind, Option.bind_eq_some_iff, text?_eq_some_iff] at read
      obtain ⟨_, hasSource, source, rfl, _, hasFunction, function, rfl, read⟩ := read
      split at read
      next missing =>
        cases read
        exact .object hasSource hasFunction (missing ▸ .missing)
      next given =>
        simp only [Option.bind_eq_some_iff, text?_eq_some_iff] at read
        obtain ⟨input, rfl, ⟨⟩⟩ := read
        exact .object hasSource hasFunction (given ▸ .given input)
    case h_2 =>
      simp only [Option.bind_eq_bind, Option.bind_eq_some_iff, text?_eq_some_iff] at read
      obtain ⟨source, rfl, function, rfl, ⟨⟩⟩ := read
      exact .array .missing
    case h_3 =>
      simp only [Option.bind_eq_bind, Option.bind_eq_some_iff, text?_eq_some_iff] at read
      obtain ⟨source, rfl, function, rfl, input, rfl, ⟨⟩⟩ := read
      exact .array (.given input)
    case h_4 => contradiction
  · intro writes
    cases writes with
    | object source function input =>
      rcases writesInput_iff.mp input with ⟨missing, rfl⟩ | given
      · simp [ofArtifact?, source, function, missing, Json.text?]
      · simp [ofArtifact?, source, function, given, Json.text?]
    | array input => cases input <;> rfl

theorem ofSpec?_eq_some_iff {spec : Json} : ofSpec? spec = some b ↔ WritesSpec spec b := by
  unfold ofSpec?
  rw [Option.bind_eq_some_iff]
  constructor
  · rintro ⟨artifact, read, isArtifact⟩
    have writes := ofArtifact?_eq_some_iff.mp isArtifact
    unfold artifactOf? at read
    split at read
    next => exact .object read writes
    next => cases read; exact .array writes
    next => contradiction
  · rintro (⟨read, writes⟩ | writes)
    · exact ⟨_, read, ofArtifact?_eq_some_iff.mpr writes⟩
    · exact ⟨_, rfl, ofArtifact?_eq_some_iff.mpr writes⟩

def StandsIn (b : Blueprint) (text : List UInt8) : Prop :=
  ∃ spec, Manifest.Written (Json.Token.ofBytes text) ⟨kind, spec⟩ ∧ WritesSpec spec b

end Blueprint

end Depot
