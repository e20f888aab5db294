import Depot.Proofs.JsonGrammar

/-! # Grammars of records

A decoder follows a grammar if it takes just those tokens off the front that the grammar has for the
value it reads. A record follows its fields: an object by its members, each under its key, and an
array by its items, in the order of the fields.
-/

namespace Depot.Json.Decoder

open Token (commaSeparated memberOf objectOf arrayOf)

variable {ε α β σ : Type}

/-- The decoder reads what the grammar has, and nothing else. -/
structure Follows (value : Decoder ε α) (grammar : List Token → α → Prop) : Prop where
  iff : ∀ {tokens : List Token} {a : α} {rest : List Token}, value tokens = .ok (a, rest) ↔
    ∃ front, tokens = front ++ rest ∧ grammar front a

section Follows

variable {value : Decoder ε α} {grammar : List Token → α → Prop}

theorem Follows.reads_iff (follows : Follows value grammar) {tokens : List Token} {a : α} :
    Reads value tokens a ↔ grammar tokens a := by
  constructor
  · intro reads
    obtain ⟨front, same, derived⟩ := follows.iff.mp (reads [])
    rwa [List.append_cancel_right same]
  · exact fun derived rest => follows.iff.mpr ⟨tokens, rfl, derived⟩

/-- What a decoder that follows some grammar takes, it reads whatever comes behind. -/
theorem Follows.reads (follows : Follows value grammar) : Follows value (Reads value) where
  iff := by
    simp only [follows.reads_iff]
    exact follows.iff

theorem Follows.map (follows : Follows value grammar) (f : α → β) :
    Follows (fun tokens => (value tokens).map fun (a, rest) => (f a, rest))
      fun tokens b => ∃ a, grammar tokens a ∧ f a = b where
  iff := by
    intro tokens b rest
    rw [map_eq_ok_iff]
    constructor
    · rintro ⟨a, read, rfl⟩
      obtain ⟨front, rfl, derived⟩ := follows.iff.mp read
      exact ⟨front, rfl, a, derived, rfl⟩
    · rintro ⟨front, rfl, a, derived, rfl⟩
      exact ⟨a, follows.iff.mpr ⟨front, rfl, derived⟩, rfl⟩

end Follows

theorem follows_string :
    Follows (string : Decoder ε String) fun tokens text => tokens = [.string (some text)] where
  iff := by
    intro tokens text rest
    unfold string
    split <;> simp_all

theorem follows_skip : Follows (skip : Decoder ε Unit) fun tokens _ => IsValue tokens where
  iff := skip_eq_ok_iff

theorem follows_value (depth : Nat) :
    Follows (decoder depth : Decoder ε Json) (Written depth) where
  iff := decoder_eq_ok_iff

/-! ## Members of an object -/

section Members

variable {fields : List (Field ε σ)}

theorem reads_field_iff {field : Field ε σ} {key : String} {r next : σ} {value : List Token}
    (found : fields.find? (fun field => field.key = key) = some field) :
    Reads (member fields key r) value next ↔
      field.isRead r = false ∧ Reads (field.read r) value next := by
  cases isRead : field.isRead r <;> simp [member, found, isRead, Reads]

theorem reads_unknown_iff {key : String} {r next : σ} {value : List Token}
    (unknown : fields.find? (fun field => field.key = key) = none) :
    Reads (member fields key r) value next ↔ IsValue value ∧ r = next := by
  simp only [member, unknown, (follows_skip.map fun _ => r).reads_iff, exists_const]

theorem fills_cons_iff {r last : σ} {key : String} {value : List Token}
    {entries : List (String × List Token)} : Fills fields r ((key, value) :: entries) last ↔
      ∃ next, Reads (member fields key r) value next ∧ Fills fields next entries last := by
  constructor
  · rintro (_ | ⟨reads, fills⟩)
    exact ⟨_, reads, fills⟩
  · rintro ⟨next, reads, fills⟩
    exact .cons reads fills

variable (each : ∀ field ∈ fields, ∀ r, Follows (field.read r) (Reads (field.read r)))
include each

theorem follows_member (key : String) (r : σ) :
    Follows (member fields key r) (Reads (member fields key r)) := by
  unfold member
  split
  next => exact (follows_skip.map fun _ => r).reads
  next field found =>
    split
    next =>
      refine ⟨⟨nofun, ?_⟩⟩
      rintro ⟨front, _, reads⟩
      cases reads []
    next => exact each field (List.mem_of_find?_eq_some found) r

theorem exists_fills {fuel : Nat} {r last : σ} {tokens rest : List Token}
    (read : members fields fuel r tokens = .ok (last, rest)) :
    ∃ entries : List (String × List Token), entries ≠ [] ∧
      tokens = commaSeparated (entries.map fun (key, value) => memberOf key value) ++
        .rightBrace :: rest ∧
      Fills fields r entries last := by
  induction fuel generalizing r tokens with
  | zero => cases read
  | succ fuel ih =>
    unfold members at read
    split at read
    case h_1 => contradiction
    case h_2 key _ same =>
      cases same
      split at read
      case h_1 => cases read
      case h_2 result =>
        obtain ⟨front, rfl, reads⟩ := (follows_member each key _).iff.mp result
        obtain ⟨entries, nonempty, rfl, fills⟩ := ih read
        refine ⟨(key, front) :: entries, List.cons_ne_nil _ _, ?_, .cons reads fills⟩
        rw [List.map_cons, commaSeparated_cons _ (by simpa using nonempty)]
        simp [memberOf]
      case h_3 result =>
        cases read
        obtain ⟨front, rfl, reads⟩ := (follows_member each key _).iff.mp result
        exact ⟨[(key, front)], List.cons_ne_nil _ _, rfl, .cons reads .nil⟩
      case h_4 => cases read
    case h_3 => cases read

/-- An object is read as a record if and only if its members fill the record. -/
theorem record_object_iff {required : Nat} {start : σ} {finish : σ → Except (DecodeError ε) α}
    {tokens rest : List Token} {a : α} :
    record fields required start finish (.leftBrace :: tokens) = .ok (a, rest) ↔
      ∃ entries last, .leftBrace :: tokens = objectOf entries ++ rest ∧
        Fills fields start entries last ∧ finish last = .ok a := by
  constructor
  · intro result
    obtain ⟨last, read, finishes⟩ := checked_eq_ok_iff.mp result
    split at read
    case h_1 same => cases same; cases read; exact ⟨[], _, rfl, .nil, finishes⟩
    case h_2 same =>
      cases same
      obtain ⟨entries, _, rfl, fills⟩ := exists_fills each read
      exact ⟨entries, last, by simp [objectOf], fills, finishes⟩
    case h_3 same => cases same
    case h_4 => cases read
  · rintro ⟨entries, last, same, fills, finishes⟩
    rw [same]
    exact reads_object fills finishes rest

end Members

/-! ## Items of an array -/

/-- Fields are read in order, and some at the end may be left out. -/
inductive FillsInOrder : List (Field ε σ) → σ → List (List Token) → σ → Prop
  | nil {fields : List (Field ε σ)} {r : σ} : FillsInOrder fields r [] r
  | cons {field : Field ε σ} {fields : List (Field ε σ)} {r next last : σ} {value : List Token}
      {values : List (List Token)} : Reads (field.read r) value next →
      FillsInOrder fields next values last → FillsInOrder (field :: fields) r (value :: values) last

theorem elements_iff {fields : List (Field ε σ)}
    (each : ∀ field ∈ fields, ∀ r, Follows (field.read r) (Reads (field.read r)))
    {r last : σ} {tokens rest : List Token} :
    elements 0 false fields r tokens = .ok (last, rest) ↔ ∃ values,
      tokens = (values.flatMap fun value => .comma :: value) ++ .rightBracket :: rest ∧
      FillsInOrder fields r values last := by
  induction fields generalizing r tokens with
  | nil =>
    constructor
    · intro read
      unfold elements at read
      split at read
      case h_1 => cases read; exact ⟨[], rfl, .nil⟩
      case h_2 same _ => cases same
      case h_3 same => cases same
      case h_4 => cases read
    · rintro ⟨values, rfl, ⟨⟩⟩
      rfl
  | cons field fields ih =>
    obtain ⟨first, others⟩ := List.forall_mem_cons.mp each
    constructor
    · intro read
      unfold elements at read
      split at read
      case h_1 => cases read; exact ⟨[], rfl, .nil⟩
      case h_2 same _ _ => cases same
      case h_3 same =>
        cases same
        split at read
        case h_1 => cases read
        case h_2 result =>
          obtain ⟨value, rfl, reads⟩ := (first _).iff.mp result
          obtain ⟨values, rfl, fills⟩ := (ih others).mp read
          exact ⟨value :: values, by simp, .cons reads fills⟩
      case h_4 => cases read
    · rintro ⟨values, rfl, fills⟩
      cases fills with
      | nil => rfl
      | cons reads fills =>
        have more := (ih others).mpr ⟨_, rfl, fills⟩
        simp [elements, reads _, more]

/-- An array is read as a record if and only if its items fill the record, the first field on. -/
theorem record_array_iff {field : Field ε σ} {fields : List (Field ε σ)}
    (each : ∀ entry ∈ field :: fields, ∀ r, Follows (entry.read r) (Reads (entry.read r)))
    {start : σ} {finish : σ → Except (DecodeError ε) α} {tokens rest : List Token} {a : α} :
    record (field :: fields) 1 start finish (.leftBracket :: tokens) = .ok (a, rest) ↔
      ∃ value values last, .leftBracket :: tokens = arrayOf (value :: values) ++ rest ∧
        FillsInOrder (field :: fields) start (value :: values) last ∧ finish last = .ok a := by
  obtain ⟨first, others⟩ := List.forall_mem_cons.mp each
  constructor
  · intro result
    obtain ⟨last, read, finishes⟩ := checked_eq_ok_iff.mp result
    simp only [elements] at read
    split at read
    case h_1 => cases read
    case h_2 result =>
      obtain ⟨value, rfl, reads⟩ := (first _).iff.mp result
      obtain ⟨values, rfl, fills⟩ := (elements_iff others).mp read
      exact ⟨value, values, last, by simp [arrayOf, commaSeparated_eq], .cons reads fills, finishes⟩
  · rintro ⟨value, values, last, same, (_ | ⟨reads, fills⟩), finishes⟩
    rw [same]
    refine checked_eq_ok_iff.mpr ⟨last, ?_, finishes⟩
    have more : elements 0 false fields _ _ = .ok (last, rest) :=
      (elements_iff others).mpr ⟨values, rfl, fills⟩
    simp [arrayOf, commaSeparated_eq, elements, reads _, more]

end Depot.Json.Decoder
