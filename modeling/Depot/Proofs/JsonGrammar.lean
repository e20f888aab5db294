import Depot.Json.Value
import Depot.Proofs.JsonReading

/-! # Values among tokens

A grammar of values. Reading takes exactly the tokens of a value off the front of a text. Skipping
takes those of any value, which may be nested deeper and have literals that cannot be read.
-/

namespace Depot.Json

open Token (commaSeparated arrayOf memberOf objectOf)

theorem commaSeparated_cons (part : List Token) {parts : List (List Token)} (more : parts ≠ []) :
    commaSeparated (part :: parts) = part ++ .comma :: commaSeparated parts := by
  cases parts with
  | nil => contradiction
  | cons => rfl

theorem objectOf_map {α : Type} (key : α → String) (value : α → List Token) (members : List α) :
    objectOf (members.map fun member => (key member, value member)) = .leftBrace ::
      (commaSeparated (members.map fun member => memberOf (key member) (value member)) ++
        [.rightBrace]) := by
  simp [objectOf, Function.comp_def]

/-- The tokens write the value, inside of which so many levels may open. -/
inductive Written : Nat → List Token → Json → Prop
  | null {depth : Nat} : Written depth [.null] .null
  | bool {depth : Nat} (value : Bool) : Written depth [.bool value] (.bool value)
  | number {depth : Nat} {literal : Number} : literal.isInfinite = false →
      Written depth [.number literal] (.number literal)
  | string {depth : Nat} (text : String) : Written depth [.string (some text)] (.string text)
  | array {depth : Nat} (items : List (List Token × Json)) :
      (∀ item ∈ items, Written depth item.1 item.2) →
      Written (depth + 1) (arrayOf (items.map fun item => item.1))
        (.array (items.map fun item => item.2))
  | object {depth : Nat} (members : List (String × List Token × Json)) :
      (∀ member ∈ members, Written depth member.2.1 member.2.2) →
      Written (depth + 1) (objectOf (members.map fun member => (member.1, member.2.1)))
        (.object (members.map fun member => (member.1, member.2.2)))

mutual

theorem written_of_read {fuel depth : Nat} {tokens rest : List Token} {value : Json}
    (result : read fuel depth tokens = some (value, rest)) :
    ∃ front, tokens = front ++ rest ∧ Written depth front value := by
  cases fuel with
  | zero => contradiction
  | succ fuel =>
    unfold read at result
    split at result
    case h_1 => cases result; exact ⟨[.null], rfl, .null⟩
    case h_2 => cases result; exact ⟨[.bool _], rfl, .bool _⟩
    case h_3 =>
      split at result
      next => contradiction
      next finite => cases result; exact ⟨[.number _], rfl, .number (by simpa using finite)⟩
    case h_4 => cases result; exact ⟨[.string _], rfl, .string _⟩
    case h_5 =>
      cases depth with
      | zero => contradiction
      | succ depth =>
        split at result
        case h_1 => contradiction
        case h_2 => cases result; exact ⟨arrayOf [], rfl, .array [] nofun⟩
        case h_3 less _ _ same _ =>
          cases same
          obtain ⟨⟨items, after⟩, read, same⟩ := Option.map_eq_some_iff.mp result
          cases same
          obtain ⟨more, _, rfl, rfl, each⟩ := written_of_readItems read
          exact ⟨arrayOf (more.map fun item => item.1), by simp [arrayOf], .array more each⟩
    case h_6 =>
      cases depth with
      | zero => contradiction
      | succ depth =>
        split at result
        case h_1 => contradiction
        case h_2 => cases result; exact ⟨objectOf [], rfl, .object [] nofun⟩
        case h_3 less _ _ same _ =>
          cases same
          obtain ⟨⟨members, after⟩, read, same⟩ := Option.map_eq_some_iff.mp result
          cases same
          obtain ⟨more, _, rfl, rfl, each⟩ := written_of_readMembers read
          refine ⟨objectOf (more.map fun member => (member.1, member.2.1)), ?_, .object more each⟩
          simp [objectOf_map]
    case h_7 => contradiction

theorem written_of_readItems {fuel depth : Nat} {before items : List Json}
    {tokens rest : List Token} (result : readItems fuel depth before tokens = some (items, rest)) :
    ∃ more : List (List Token × Json), more ≠ [] ∧
      tokens = commaSeparated (more.map fun item => item.1) ++ .rightBracket :: rest ∧
      items = before.reverse ++ more.map (fun item => item.2) ∧
      ∀ item ∈ more, Written depth item.1 item.2 := by
  cases fuel with
  | zero => contradiction
  | succ fuel =>
    unfold readItems at result
    split at result
    case h_1 item _ read =>
      obtain ⟨front, rfl, written⟩ := written_of_read read
      obtain ⟨more, nonempty, rfl, rfl, each⟩ := written_of_readItems result
      refine ⟨(front, item) :: more, nofun, ?_, by simp, ?_⟩
      · rw [List.map_cons, commaSeparated_cons _ (by simpa using nonempty)]
        simp
      · exact List.forall_mem_cons.mpr ⟨written, each⟩
    case h_2 item _ read =>
      cases result
      obtain ⟨front, rfl, written⟩ := written_of_read read
      exact ⟨[(front, item)], nofun, rfl, by simp, List.forall_mem_singleton.mpr written⟩
    case h_3 => contradiction

theorem written_of_readMembers {fuel depth : Nat} {before members : List (String × Json)}
    {tokens rest : List Token}
    (result : readMembers fuel depth before tokens = some (members, rest)) :
    ∃ more : List (String × List Token × Json), more ≠ [] ∧
      tokens = commaSeparated (more.map fun member => memberOf member.1 member.2.1) ++
        .rightBrace :: rest ∧
      members = before.reverse ++ more.map (fun member => (member.1, member.2.2)) ∧
      ∀ member ∈ more, Written depth member.2.1 member.2.2 := by
  cases fuel with
  | zero => contradiction
  | succ fuel =>
    unfold readMembers at result
    split at result
    case h_1 key _ =>
      split at result
      case h_1 value _ read =>
        obtain ⟨front, rfl, written⟩ := written_of_read read
        obtain ⟨more, nonempty, rfl, rfl, each⟩ := written_of_readMembers result
        refine ⟨(key, front, value) :: more, nofun, ?_, by simp, ?_⟩
        · rw [List.map_cons, commaSeparated_cons _ (by simpa using nonempty)]
          simp [memberOf]
        · exact List.forall_mem_cons.mpr ⟨written, each⟩
      case h_2 value _ read =>
        cases result
        obtain ⟨front, rfl, written⟩ := written_of_read read
        exact ⟨[(key, front, value)], nofun, rfl, by simp, List.forall_mem_singleton.mpr written⟩
      case h_3 => contradiction
    case h_2 => contradiction

end

/-- No value starts with the end of one. -/
theorem Written.starts {depth : Nat} {front : List Token} {value : Json}
    (written : Written depth front value) (rest : List Token) :
    ∀ more, front ++ rest ≠ .rightBracket :: more := by
  intro more same
  cases written <;> simp [arrayOf, objectOf] at same

theorem read_array {fuel depth : Nat} {tokens : List Token}
    (apart : ∀ more, tokens ≠ .rightBracket :: more) :
    read (fuel + 1) (depth + 1) (.leftBracket :: tokens) =
      (readItems fuel depth [] tokens).map fun (items, rest) => (.array items, rest) := by
  cases tokens with
  | nil => rfl
  | cons token more =>
    cases token with
    | rightBracket => exact absurd rfl (apart more)
    | _ => rfl

/-- Reading takes the tokens of a value, whatever follows them. -/
def Taken (depth : Nat) (front : List Token) (value : Json) : Prop :=
  ∀ fuel rest, 2 * front.length ≤ fuel → read fuel depth (front ++ rest) = some (value, rest)

theorem readItems_of_taken {depth : Nat} {item : List Token × Json}
    {items : List (List Token × Json)} (each : ∀ entry ∈ item :: items, Taken depth entry.1 entry.2)
    (fuel : Nat) (before : List Json) (rest : List Token)
    (enough : 2 * (commaSeparated ((item :: items).map fun item => item.1)).length < fuel) :
    readItems fuel depth before
        (commaSeparated ((item :: items).map fun item => item.1) ++ .rightBracket :: rest) =
      some (before.reverse ++ (item :: items).map fun item => item.2, rest) := by
  obtain ⟨first, others⟩ := List.forall_mem_cons.mp each
  induction items generalizing item fuel before with
  | nil =>
    obtain ⟨fuel, rfl⟩ := Nat.exists_eq_add_one.mpr (by omega : 0 < fuel)
    simp only [List.map_cons, List.map_nil, commaSeparated] at enough ⊢
    simp [readItems, first fuel (.rightBracket :: rest) (by omega)]
  | cons item' items ih =>
    obtain ⟨fuel, rfl⟩ := Nat.exists_eq_add_one.mpr (by omega : 0 < fuel)
    rw [List.map_cons, commaSeparated_cons _ (by simp)] at enough ⊢
    simp only [List.length_append, List.length_cons] at enough
    obtain ⟨next, others'⟩ := List.forall_mem_cons.mp others
    simp only [List.append_assoc, List.cons_append, readItems, first fuel _ (by omega)]
    rw [ih others fuel (item.2 :: before) (by omega) next others']
    simp

theorem readMembers_of_taken {depth : Nat} {member : String × List Token × Json}
    {members : List (String × List Token × Json)}
    (each : ∀ entry ∈ member :: members, Taken depth entry.2.1 entry.2.2)
    (fuel : Nat) (before : List (String × Json)) (rest : List Token)
    (enough : 2 * (commaSeparated
      ((member :: members).map fun member => memberOf member.1 member.2.1)).length < fuel) :
    readMembers fuel depth before (commaSeparated
        ((member :: members).map fun member => memberOf member.1 member.2.1) ++
          .rightBrace :: rest) =
      some (before.reverse ++ (member :: members).map fun member => (member.1, member.2.2),
        rest) := by
  obtain ⟨first, others⟩ := List.forall_mem_cons.mp each
  induction members generalizing member fuel before with
  | nil =>
    obtain ⟨fuel, rfl⟩ := Nat.exists_eq_add_one.mpr (by omega : 0 < fuel)
    simp only [List.map_cons, List.map_nil, commaSeparated, memberOf, List.length_cons] at enough ⊢
    simp [readMembers, first fuel (.rightBrace :: rest) (by omega)]
  | cons member' members ih =>
    obtain ⟨fuel, rfl⟩ := Nat.exists_eq_add_one.mpr (by omega : 0 < fuel)
    rw [List.map_cons, commaSeparated_cons _ (by simp)] at enough ⊢
    simp only [List.length_append, List.length_cons] at enough
    obtain ⟨next, others'⟩ := List.forall_mem_cons.mp others
    have own : (memberOf member.1 member.2.1).length = member.2.1.length + 2 := rfl
    have opens : ∀ after, memberOf member.1 member.2.1 ++ after =
        .string (some member.1) :: .colon :: (member.2.1 ++ after) := fun _ => rfl
    simp only [List.append_assoc, List.cons_append, opens, readMembers, first fuel _ (by omega)]
    rw [ih others fuel ((member.1, member.2.2) :: before) (by omega) next others']
    simp

/-- The first token of a value costs one unit of fuel. -/
theorem taken_of_succ {depth : Nat} {front : List Token} {value : Json} (nonempty : front ≠ [])
    (step : ∀ fuel rest, 2 * front.length ≤ fuel + 1 →
      read (fuel + 1) depth (front ++ rest) = some (value, rest)) : Taken depth front value := by
  intro fuel rest enough
  have pos : 0 < front.length := List.length_pos_iff.mpr nonempty
  obtain ⟨fuel, rfl⟩ := Nat.exists_eq_add_one.mpr (by omega : 0 < fuel)
  exact step fuel rest enough

theorem Written.taken {depth : Nat} {front : List Token} {value : Json}
    (written : Written depth front value) : Taken depth front value := by
  induction written with
  | null | bool | string => exact taken_of_succ (by simp) fun _ _ _ => rfl
  | number finite => exact taken_of_succ (by simp) fun _ _ _ => by simp [read, finite]
  | array items each taken =>
    refine taken_of_succ (by simp [arrayOf]) fun fuel rest enough => ?_
    simp only [arrayOf, List.length_cons, List.length_append, List.length_nil] at enough
    cases items with
    | nil => rfl
    | cons item items =>
      have within := readItems_of_taken taken fuel [] rest (by omega)
      have apart : ∀ more, commaSeparated ((item :: items).map fun item => item.1) ++
          .rightBracket :: rest ≠ .rightBracket :: more := by
        obtain ⟨more, opens, _⟩ := Decoder.exists_commaSeparated item.1
          (items.map fun item => item.1)
        rw [List.map_cons, opens, List.append_assoc]
        exact (each item List.mem_cons_self).starts _
      rw [arrayOf, List.cons_append, List.append_assoc, List.singleton_append, read_array apart,
        within]
      rfl
  | object members each taken =>
    rw [objectOf_map]
    refine taken_of_succ (by simp) fun fuel rest enough => ?_
    simp only [List.length_cons, List.length_append, List.length_nil] at enough
    cases members with
    | nil => rfl
    | cons member members =>
      have within := readMembers_of_taken taken fuel [] rest (by omega)
      obtain ⟨more, opens, _⟩ := Decoder.exists_commaSeparated (memberOf member.1 member.2.1)
        (members.map fun member => memberOf member.1 member.2.1)
      rw [List.map_cons, opens] at within ⊢
      simp only [memberOf, List.cons_append, List.append_assoc, List.nil_append] at within ⊢
      simp only [read, within, Option.map_some]
      rfl

/-- Values are read as they are written. -/
theorem read_eq_some_iff {fuel depth : Nat} {tokens rest : List Token} {value : Json}
    (enough : 2 * tokens.length ≤ fuel) : read fuel depth tokens = some (value, rest) ↔
      ∃ front, tokens = front ++ rest ∧ Written depth front value := by
  constructor
  · exact written_of_read
  · rintro ⟨front, rfl, written⟩
    rw [List.length_append] at enough
    exact written.taken fuel rest (by omega)

theorem decoder_eq_ok_iff {ε : Type} {depth : Nat} {tokens rest : List Token} {value : Json} :
    (decoder depth : Decoder ε Json) tokens = .ok (value, rest) ↔
      ∃ front, tokens = front ++ rest ∧ Written depth front value := by
  rw [← read_eq_some_iff (Nat.le_add_right (2 * tokens.length) 2), decoder]
  cases read (2 * tokens.length + 2) depth tokens <;> simp

/-! ### Skipping -/

def Token.IsLiteral : Token → Prop
  | .null | .bool _ | .number _ | .string _ => True
  | _ => False

/-- The tokens are a value, however deep it goes and whatever its literals write. -/
inductive IsValue : List Token → Prop
  | literal {token : Token} : token.IsLiteral → IsValue [token]
  | array (items : List (List Token)) : (∀ item ∈ items, IsValue item) → IsValue (arrayOf items)
  | object (members : List (Option String × List Token)) :
      (∀ member ∈ members, IsValue member.2) →
      IsValue (.leftBrace :: (commaSeparated
        (members.map fun member => .string member.1 :: .colon :: member.2) ++ [.rightBrace]))

theorem commaSeparated_eq (part : List Token) (parts : List (List Token)) :
    commaSeparated (part :: parts) = part ++ parts.flatMap fun part => .comma :: part := by
  induction parts generalizing part with
  | nil => simp [commaSeparated]
  | cons part' parts ih =>
    rw [commaSeparated_cons _ (by simp), ih, List.flatMap_cons]
    simp

section Skip

open Decoder (skipFrom)

variable {enclosing : List Bool} {tokens rest : List Token}

theorem skip_value_cases (skipped : skipFrom enclosing .value tokens = some rest) :
    (∃ token more, tokens = token :: more ∧ token.IsLiteral ∧
      skipFrom enclosing .separator more = some rest) ∨
    (∃ more, tokens = .leftBracket :: more ∧
      skipFrom (false :: enclosing) .itemOrEnd more = some rest) ∨
    (∃ more, tokens = .leftBrace :: more ∧
      skipFrom (true :: enclosing) .keyOrEnd more = some rest) := by
  cases tokens with
  | nil => simp [skipFrom] at skipped
  | cons token more =>
    cases token with
    | null | bool | number | string =>
      exact .inl ⟨_, more, rfl, trivial, by simpa [skipFrom] using skipped⟩
    | leftBracket => exact .inr (.inl ⟨more, rfl, by simpa [skipFrom] using skipped⟩)
    | leftBrace => exact .inr (.inr ⟨more, rfl, by simpa [skipFrom] using skipped⟩)
    | _ => simp [skipFrom] at skipped

theorem skip_itemOrEnd_cases
    (skipped : skipFrom (false :: enclosing) .itemOrEnd tokens = some rest) :
    (∃ more, tokens = .rightBracket :: more ∧ skipFrom enclosing .separator more = some rest) ∨
    skipFrom (false :: enclosing) .value tokens = some rest := by
  cases tokens with
  | nil => simp [skipFrom] at skipped
  | cons token more => cases token <;> simp [skipFrom] at skipped ⊢ <;> exact skipped

theorem skip_keyOrEnd_cases (skipped : skipFrom (true :: enclosing) .keyOrEnd tokens = some rest) :
    (∃ more, tokens = .rightBrace :: more ∧ skipFrom enclosing .separator more = some rest) ∨
    skipFrom (true :: enclosing) .key tokens = some rest := by
  cases tokens with
  | nil => simp [skipFrom] at skipped
  | cons token more => cases token <;> simp [skipFrom] at skipped ⊢ <;> exact skipped

theorem skip_key_cases (skipped : skipFrom enclosing .key tokens = some rest) :
    ∃ key more, tokens = .string key :: .colon :: more ∧
      skipFrom enclosing .value more = some rest := by
  cases tokens with
  | nil => simp [skipFrom] at skipped
  | cons token behind =>
    cases token with
    | string key =>
      simp only [skipFrom] at skipped
      cases behind with
      | nil => simp [skipFrom] at skipped
      | cons token more =>
        cases token with
        | colon => exact ⟨key, more, rfl, by simpa [skipFrom] using skipped⟩
        | _ => simp [skipFrom] at skipped
    | _ => simp [skipFrom] at skipped

theorem skip_separator_cases {inObject : Bool}
    (skipped : skipFrom (inObject :: enclosing) .separator tokens = some rest) :
    (∃ more, tokens = .comma :: more ∧
      skipFrom (inObject :: enclosing) (if inObject then .key else .value) more = some rest) ∨
    (∃ more, tokens = (if inObject then .rightBrace else .rightBracket) :: more ∧
      skipFrom enclosing .separator more = some rest) := by
  cases tokens with
  | nil => simp [skipFrom] at skipped
  | cons token more =>
    cases inObject <;> cases token <;> simp [skipFrom] at skipped ⊢ <;> exact skipped

mutual

/-- What is skipped is a value, and then what follows it. -/
theorem value_of_skip {enclosing : List Bool} {tokens rest : List Token}
    (skipped : skipFrom enclosing .value tokens = some rest) : ∃ front more,
    tokens = front ++ more ∧ IsValue front ∧ skipFrom enclosing .separator more = some rest := by
  rcases skip_value_cases skipped with ⟨token, more, rfl, literal, behind⟩ |
    ⟨inside, rfl, opened⟩ | ⟨inside, rfl, opened⟩
  · exact ⟨[token], more, rfl, .literal literal, behind⟩
  · rcases skip_itemOrEnd_cases opened with ⟨more, rfl, behind⟩ | first
    · exact ⟨arrayOf [], more, rfl, .array [] nofun, behind⟩
    · obtain ⟨item, after, rfl, value, others⟩ := value_of_skip first
      obtain ⟨items, more, rfl, each, behind⟩ := items_of_skip others
      refine ⟨arrayOf (item :: items), more, ?_, .array _ (List.forall_mem_cons.mpr ⟨value, each⟩),
        behind⟩
      simp [arrayOf, commaSeparated_eq]
  · rcases skip_keyOrEnd_cases opened with ⟨more, rfl, behind⟩ | first
    · exact ⟨[.leftBrace, .rightBrace], more, rfl, .object [] nofun, behind⟩
    · obtain ⟨key, inside, rfl, first⟩ := skip_key_cases first
      obtain ⟨front, after, rfl, value, others⟩ := value_of_skip first
      obtain ⟨members, more, rfl, each, behind⟩ := members_of_skip others
      refine ⟨_, more, ?_, .object ((key, front) :: members)
        (List.forall_mem_cons.mpr ⟨value, each⟩), behind⟩
      simp [commaSeparated_eq, List.flatMap_map]
termination_by tokens.length

theorem items_of_skip {enclosing : List Bool} {tokens rest : List Token}
    (skipped : skipFrom (false :: enclosing) .separator tokens = some rest) :
    ∃ (items : List (List Token)) (more : List Token),
      tokens = (items.flatMap fun item => .comma :: item) ++ .rightBracket :: more ∧
      (∀ item ∈ items, IsValue item) ∧ skipFrom enclosing .separator more = some rest := by
  rcases skip_separator_cases skipped with ⟨inside, rfl, first⟩ | ⟨more, rfl, behind⟩
  · obtain ⟨item, after, rfl, value, others⟩ := value_of_skip first
    obtain ⟨items, more, rfl, each, behind⟩ := items_of_skip others
    exact ⟨item :: items, more, by simp, List.forall_mem_cons.mpr ⟨value, each⟩, behind⟩
  · exact ⟨[], more, rfl, nofun, behind⟩
termination_by tokens.length

theorem members_of_skip {enclosing : List Bool} {tokens rest : List Token}
    (skipped : skipFrom (true :: enclosing) .separator tokens = some rest) :
    ∃ (members : List (Option String × List Token)) (more : List Token),
      tokens = (members.flatMap fun member => .comma :: .string member.1 :: .colon :: member.2) ++
        .rightBrace :: more ∧
      (∀ member ∈ members, IsValue member.2) ∧ skipFrom enclosing .separator more = some rest := by
  rcases skip_separator_cases skipped with ⟨inside, rfl, first⟩ | ⟨more, rfl, behind⟩
  · obtain ⟨key, inside, rfl, first⟩ := skip_key_cases first
    obtain ⟨front, after, rfl, value, others⟩ := value_of_skip first
    obtain ⟨members, more, rfl, each, behind⟩ := members_of_skip others
    exact ⟨(key, front) :: members, more, by simp, List.forall_mem_cons.mpr ⟨value, each⟩, behind⟩
  · exact ⟨[], more, rfl, nofun, behind⟩
termination_by tokens.length

end

/-- No value starts with the end of one. -/
theorem IsValue.starts {front : List Token} (value : IsValue front) (rest : List Token) :
    ∀ more, front ++ rest ≠ .rightBracket :: more := by
  intro more same
  cases value with
  | literal literal =>
    obtain ⟨rfl, _⟩ := List.cons.inj same
    exact literal
  | array => simp [arrayOf] at same
  | object => simp at same

theorem skipFrom_itemOrEnd {tokens : List Token} (apart : ∀ more, tokens ≠ .rightBracket :: more)
    (enclosing : List Bool) :
    skipFrom enclosing .itemOrEnd tokens = skipFrom enclosing .value tokens := by
  cases tokens with
  | nil => simp [skipFrom]
  | cons token more =>
    cases token with
    | rightBracket => exact absurd rfl (apart more)
    | _ => simp [skipFrom]

/-- Passing over the tokens of a value is all that skipping does. -/
def Passed (front : List Token) : Prop :=
  ∀ enclosing rest, skipFrom enclosing .value (front ++ rest) = skipFrom enclosing .separator rest

theorem skipFrom_items {items : List (List Token)} (each : ∀ item ∈ items, Passed item)
    (enclosing : List Bool) (rest : List Token) :
    skipFrom (false :: enclosing) .separator
        ((items.flatMap fun item => .comma :: item) ++ .rightBracket :: rest) =
      skipFrom enclosing .separator rest := by
  induction items with
  | nil => simp [skipFrom]
  | cons item items ih =>
    obtain ⟨passed, others⟩ := List.forall_mem_cons.mp each
    simp [skipFrom, passed _ _, ih others]

theorem skipFrom_members {members : List (Option String × List Token)}
    (each : ∀ member ∈ members, Passed member.2) (enclosing : List Bool) (rest : List Token) :
    skipFrom (true :: enclosing) .separator ((members.flatMap fun member =>
        .comma :: .string member.1 :: .colon :: member.2) ++ .rightBrace :: rest) =
      skipFrom enclosing .separator rest := by
  induction members with
  | nil => simp [skipFrom]
  | cons member members ih =>
    obtain ⟨passed, others⟩ := List.forall_mem_cons.mp each
    simp [skipFrom, passed _ _, ih others]

theorem IsValue.passed {front : List Token} (value : IsValue front) : Passed front := by
  induction value with
  | @literal token literal =>
    intro enclosing rest
    cases token with
    | null | bool | number | string => simp [skipFrom]
    | _ => exact literal.elim
  | array items each passed =>
    intro enclosing rest
    cases items with
    | nil => simp [arrayOf, commaSeparated, skipFrom]
    | cons item items =>
      obtain ⟨first, others⟩ := List.forall_mem_cons.mp passed
      have apart := (each item List.mem_cons_self).starts
      simp [arrayOf, commaSeparated_eq, skipFrom, skipFrom_itemOrEnd (apart _), first _ _,
        skipFrom_items others]
  | object members each passed =>
    intro enclosing rest
    cases members with
    | nil => simp [commaSeparated, skipFrom]
    | cons member members =>
      obtain ⟨first, others⟩ := List.forall_mem_cons.mp passed
      simp [commaSeparated_eq, List.flatMap_map, skipFrom, first _ _, skipFrom_members others]

theorem skip_eq_ok_iff {ε : Type} : (Decoder.skip : Decoder ε Unit) tokens = .ok ((), rest) ↔
    ∃ front, tokens = front ++ rest ∧ IsValue front := by
  have ends (more : List Token) : skipFrom [] .separator more = some more := by simp [skipFrom]
  have skipped : skipFrom [] .value tokens = some rest ↔
      ∃ front, tokens = front ++ rest ∧ IsValue front := by
    constructor
    · intro skipped
      obtain ⟨front, more, rfl, value, behind⟩ := value_of_skip skipped
      obtain rfl := Option.some.inj ((ends more).symm.trans behind)
      exact ⟨front, rfl, value⟩
    · rintro ⟨front, rfl, value⟩
      rw [value.passed, ends]
  rw [← skipped, Decoder.skip]
  cases skipFrom [] .value tokens <;> simp

end Skip

end Depot.Json
