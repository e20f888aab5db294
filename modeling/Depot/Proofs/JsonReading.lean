import Depot.Json.Decoder
import Depot.Proofs.JsonText

/-! # What decoders read

A decoder that reads a value from its tokens reads it whatever tokens follow; so the parts of a
written value are read one after another, and a whole text that writes the tokens is read as the
value.

The other way round, a decoder that succeeds has passed over a front of its tokens, and a record
holds what its fields have read. Whatever its fields keep true of a record and the tokens that are
left, the whole record keeps true.
-/

namespace Depot.Json.Decoder

variable {ε α β σ : Type}

/-- The decoder reads the value from the tokens and leaves what follows them. -/
def Reads (value : Decoder ε α) (tokens : List Token) (a : α) : Prop :=
  ∀ rest, value (tokens ++ rest) = .ok (a, rest)

theorem ofBytes_eq_ok_iff {value : Decoder ε α} {text : List UInt8} {a : α} :
    ofBytes value text = .ok a ↔ value (Token.ofBytes text) = .ok (a, []) := by
  unfold ofBytes
  cases value (Token.ofBytes text) with
  | error e => simp
  | ok read =>
    obtain ⟨b, _ | ⟨token, rest⟩⟩ := read
    · simp
    · simp

theorem ofBytes_of_writes {value : Decoder ε α} {text : List UInt8} {tokens : List Token} {a : α}
    (writes : Token.Writes text tokens) (reads : Reads value tokens a) :
    ofBytes value text = .ok a := by
  have whole := reads []
  rw [List.append_nil] at whole
  rw [ofBytes, writes.ofBytes, whole]

theorem reads_string (text : String) : Reads (string : Decoder ε String) [.string (some text)] text :=
  fun _ => rfl

theorem reads_word {n : Nat} (small : n < wordBound) :
    Reads (word : Decoder ε Nat) [.number (Number.ofNat n)] n := by
  intro rest
  have value : (Number.ofNat n).toNat? = some n := by
    simp [Number.toNat?, Number.ofNat]
  simp [word, value, small]

theorem reads_checked {value : Decoder ε α} {check : α → Except (DecodeError ε) β}
    {tokens : List Token} {a : α} {b : β} (reads : Reads value tokens a) (passes : check a = .ok b) :
    Reads (checked value check) tokens b := by
  intro rest
  simp [checked, reads rest, passes, Except.map]

theorem Reads.map {value : Decoder ε α} {tokens : List Token} {a : α} (reads : Reads value tokens a)
    (f : α → β) : Reads (fun tokens => (value tokens).map fun (a, rest) => (f a, rest)) tokens (f a) := by
  intro rest
  simp [reads rest, Except.map]

/-- The first part stands in front, and at least a comma for each of the others behind it. -/
theorem exists_commaSeparated (part : List Token) (parts : List (List Token)) :
    ∃ more, Token.commaSeparated (part :: parts) = part ++ more ∧ parts.length ≤ more.length := by
  induction parts generalizing part with
  | nil => exact ⟨[], (List.append_nil part).symm, Nat.le_refl 0⟩
  | cons part' parts ih =>
    obtain ⟨more, same, many⟩ := ih part'
    refine ⟨.comma :: (part' ++ more), by rw [← same]; rfl, ?_⟩
    simp only [List.length_cons, List.length_append]
    omega

theorem items_strings (fuel : Nat) (before : List String) (text : String) (texts : List String)
    (rest : List Token) (enough : texts.length < fuel) :
    items (string : Decoder ε String) fuel before (Token.commaSeparated
      ((text :: texts).map fun text => [.string (some text)]) ++ .rightBracket :: rest) =
      .ok (before.reverse ++ text :: texts, rest) := by
  induction texts generalizing fuel before text with
  | nil =>
    obtain ⟨fuel, rfl⟩ : ∃ less, fuel = less + 1 := ⟨fuel - 1, by omega⟩
    simp [Token.commaSeparated, items, string]
  | cons next texts ih =>
    obtain ⟨fuel, rfl⟩ : ∃ less, fuel = less + 1 := ⟨fuel - 1, by omega⟩
    have more := ih fuel (text :: before) next (by simpa using enough)
    simp only [List.map_cons] at more ⊢
    simp only [Token.commaSeparated, List.cons_append, List.nil_append, items, string, more]
    simp

theorem reads_strings (texts : List String) : Reads (list (string : Decoder ε String))
    (Token.arrayOf (texts.map fun text => [.string (some text)])) texts := by
  intro rest
  cases texts with
  | nil => rfl
  | cons text texts =>
    have read (fuel : Nat) (enough : texts.length < fuel) :
        items (string : Decoder ε String) fuel [] _ = _ :=
      items_strings fuel [] text texts rest enough
    obtain ⟨more, opens, many⟩ := exists_commaSeparated [Token.string (some text)]
      (texts.map fun text => [Token.string (some text)])
    rw [List.map_cons, opens] at read
    rw [Token.arrayOf, List.map_cons, List.cons_append, List.append_assoc, List.singleton_append,
      opens]
    rw [List.length_map] at many
    refine read (more ++ .rightBracket :: rest).length.succ ?_
    simp only [List.length_append, List.length_cons]
    omega

/-! ## Records -/

/-- Members are read one after another, each into what those before it have left. -/
inductive Fills (fields : List (Field ε σ)) : σ → List (String × List Token) → σ → Prop
  | nil {r : σ} : Fills fields r [] r
  | cons {r next last : σ} {key : String} {value : List Token}
      {members : List (String × List Token)} :
      Reads (member fields key r) value next → Fills fields next members last →
      Fills fields r ((key, value) :: members) last

theorem reads_member {fields : List (Field ε σ)} {field : Field ε σ} {key : String} {r next : σ}
    {value : List Token} (found : fields.find? (fun field => field.key = key) = some field)
    (fresh : field.isRead r = false) (reads : Reads (field.read r) value next) :
    Reads (member fields key r) value next := by
  intro rest
  simp only [member, found, fresh, Bool.false_eq_true, if_false]
  exact reads rest

theorem members_of_fills {fields : List (Field ε σ)} {r last : σ} {key : String}
    {value : List Token} {entries : List (String × List Token)}
    (fills : Fills fields r ((key, value) :: entries) last) (fuel : Nat) (rest : List Token)
    (enough : entries.length < fuel) :
    members fields fuel r (Token.commaSeparated
      (((key, value) :: entries).map fun (key, value) => Token.memberOf key value) ++
        .rightBrace :: rest) = .ok (last, rest) := by
  induction entries generalizing fuel r key value with
  | nil =>
    obtain ⟨fuel, rfl⟩ : ∃ less, fuel = less + 1 := ⟨fuel - 1, by omega⟩
    obtain _ | ⟨reads, fills⟩ := fills
    cases fills
    simp [Token.commaSeparated, Token.memberOf, members, reads (.rightBrace :: rest)]
  | cons entry entries ih =>
    obtain ⟨fuel, rfl⟩ : ∃ less, fuel = less + 1 := ⟨fuel - 1, by omega⟩
    obtain ⟨key', value'⟩ := entry
    obtain _ | ⟨reads, fills⟩ := fills
    have more := ih fills fuel (by simpa using enough)
    simp only [List.map_cons, Token.memberOf] at more ⊢
    simp only [Token.commaSeparated, List.cons_append, List.append_assoc, members, reads _, more]

theorem reads_object {fields : List (Field ε σ)} {required : Nat} {start last : σ}
    {finish : σ → Except (DecodeError ε) α} {entries : List (String × List Token)} {a : α}
    (fills : Fills fields start entries last) (finishes : finish last = .ok a) :
    Reads (record fields required start finish) (Token.objectOf entries) a := by
  refine reads_checked ?_ finishes
  intro rest
  cases entries with
  | nil => cases fills; rfl
  | cons entry entries =>
    obtain ⟨key, value⟩ := entry
    have read (fuel : Nat) := members_of_fills fills fuel rest
    obtain ⟨more, opens, many⟩ := exists_commaSeparated (Token.memberOf key value)
      (entries.map fun (key, value) => Token.memberOf key value)
    rw [List.map_cons, opens] at read
    rw [Token.objectOf, List.map_cons, List.cons_append, List.append_assoc, List.singleton_append,
      opens]
    rw [List.length_map] at many
    refine read (.colon :: value ++ more ++ .rightBrace :: rest).length.succ ?_
    simp only [List.length_append, List.length_cons]
    omega

/-! ## What decoders pass over -/

def Forward (value : Decoder ε α) : Prop :=
  ∀ ⦃tokens a rest⦄, value tokens = .ok (a, rest) → rest <:+ tokens

theorem forward_string : Forward (string : Decoder ε String) := by
  intro tokens text rest read
  unfold string at read
  split at read
  case h_1 => cases read; exact List.suffix_cons _ _
  case h_2 => cases read

theorem forward_word : Forward (word : Decoder ε Nat) := by
  intro tokens n rest read
  unfold word at read
  split at read
  case h_1 =>
    split at read
    · split at read
      · cases read; exact List.suffix_cons _ _
      · cases read
    · cases read
  case h_2 => cases read

theorem map_eq_ok_iff {value : Except (DecodeError ε) (α × List Token)} {f : α → β}
    {rest : List Token} {b : β} :
    (value.map fun (a, rest) => (f a, rest)) = .ok (b, rest) ↔
      ∃ a, value = .ok (a, rest) ∧ f a = b := by
  cases value with
  | error e => simp [Except.map]
  | ok read =>
    obtain ⟨a, rest'⟩ := read
    simp only [Except.map, Except.ok.injEq, Prod.mk.injEq]
    constructor
    · rintro ⟨same, rfl⟩
      exact ⟨a, ⟨rfl, rfl⟩, same⟩
    · rintro ⟨_, ⟨rfl, rfl⟩, same⟩
      exact ⟨same, rfl⟩

theorem Forward.map {value : Decoder ε α} (forward : Forward value) (f : α → β) :
    Forward fun tokens => (value tokens).map fun (a, rest) => (f a, rest) := by
  intro tokens b rest read
  obtain ⟨a, read, _⟩ := map_eq_ok_iff.1 read
  exact forward read

theorem checked_eq_ok_iff {value : Decoder ε α} {check : α → Except (DecodeError ε) β}
    {tokens rest : List Token} {b : β} :
    checked value check tokens = .ok (b, rest) ↔
      ∃ a, value tokens = .ok (a, rest) ∧ check a = .ok b := by
  unfold checked
  cases value tokens with
  | error e => simp
  | ok read =>
    obtain ⟨a, rest'⟩ := read
    simp only [Except.ok.injEq, Prod.mk.injEq]
    constructor
    · intro passed
      cases passes : check a with
      | error e => simp [passes, Except.map] at passed
      | ok b' =>
        simp only [passes, Except.map, Except.ok.injEq, Prod.mk.injEq] at passed
        obtain ⟨rfl, rfl⟩ := passed
        exact ⟨a, ⟨rfl, rfl⟩, passes⟩
    · rintro ⟨_, ⟨rfl, rfl⟩, passes⟩
      rw [passes]
      rfl

theorem Forward.checked {value : Decoder ε α} (forward : Forward value)
    (check : α → Except (DecodeError ε) β) : Forward (checked value check) := by
  intro tokens b rest read
  obtain ⟨a, read, _⟩ := checked_eq_ok_iff.1 read
  exact forward read

theorem Forward.items {item : Decoder ε α} (forward : Forward item) (fuel : Nat) (before : List α) :
    Forward (items item fuel before) := by
  intro tokens all rest read
  induction fuel generalizing before tokens with
  | zero => cases read
  | succ fuel ih =>
    unfold Decoder.items at read
    split at read
    case h_1 => cases read
    case h_2 result => exact ((ih _ read).trans (List.suffix_cons _ _)).trans (forward result)
    case h_3 result =>
      cases read
      exact (List.suffix_cons _ _).trans (forward result)
    case h_4 => cases read

theorem Forward.list {item : Decoder ε α} (forward : Forward item) : Forward (list item) := by
  intro tokens all rest read
  unfold Decoder.list at read
  split at read
  case h_1 => cases read; exact (List.suffix_cons _ _).trans (List.suffix_cons _ _)
  case h_2 => exact (forward.items _ _ read).trans (List.suffix_cons _ _)
  case h_3 => cases read

theorem skipFrom_suffix {enclosing : List Bool} {awaited : Awaited} {tokens rest : List Token}
    (skipped : skipFrom enclosing awaited tokens = some rest) : rest <:+ tokens := by
  induction tokens generalizing enclosing awaited with
  | nil =>
    unfold skipFrom at skipped
    split at skipped
    case h_1 => cases skipped; exact List.suffix_refl _
    case h_2 => cases skipped
    case h_3 same => cases same
  | cons token tokens ih =>
    unfold skipFrom at skipped
    split at skipped
    case h_1 => cases skipped; exact List.suffix_refl _
    case h_2 same => cases same
    case h_3 same =>
      cases same
      -- one token is passed, and whatever it leads to passes more or fails
      split at skipped
      all_goals first
        | exact (ih skipped).trans (List.suffix_cons _ _)
        | cases skipped

theorem forward_skip : Forward (skip : Decoder ε Unit) := by
  intro tokens _ rest read
  unfold skip at read
  split at read
  case h_1 skipped => cases read; exact skipFrom_suffix skipped
  case h_2 => cases read

section Record

variable {fields : List (Field ε σ)} {keeps : σ → List Token → Prop}

/-- A property of a record and the tokens that are left survives the passing of tokens and every
field that is read. -/
structure Kept (fields : List (Field ε σ)) (keeps : σ → List Token → Prop) : Prop where
  passing : ∀ {r tokens rest}, keeps r tokens → rest <:+ tokens → keeps r rest
  reading : ∀ {field}, field ∈ fields → ∀ {r r' tokens rest}, keeps r tokens →
    field.read r tokens = .ok (r', rest) → keeps r' rest

theorem Kept.member (kept : Kept fields keeps) {key : String} {r r' : σ}
    {tokens rest : List Token} (before : keeps r tokens)
    (read : member fields key r tokens = .ok (r', rest)) : keeps r' rest := by
  cases found : fields.find? fun field => field.key = key with
  | none =>
    simp only [Decoder.member, found] at read
    obtain ⟨_, skipped, rfl⟩ := (map_eq_ok_iff (f := fun _ => r)).1 read
    exact kept.passing before (forward_skip skipped)
  | some field =>
    simp only [Decoder.member, found] at read
    split at read
    · cases read
    · exact kept.reading (List.mem_of_find?_eq_some found) before read

theorem Kept.members (kept : Kept fields keeps) {fuel : Nat} {r last : σ}
    {tokens rest : List Token} (before : keeps r tokens)
    (read : members fields fuel r tokens = .ok (last, rest)) : keeps last rest := by
  induction fuel generalizing r tokens with
  | zero => cases read
  | succ fuel ih =>
    unfold Decoder.members at read
    split at read
    case h_1 => contradiction
    case h_2 same =>
      cases same
      have inside := kept.passing before ((List.suffix_cons _ _).trans (List.suffix_cons _ _))
      split at read
      case h_1 => cases read
      case h_2 result =>
        exact ih (kept.passing (kept.member inside result) (List.suffix_cons _ _)) read
      case h_3 result =>
        cases read
        exact kept.passing (kept.member inside result) (List.suffix_cons _ _)
      case h_4 => cases read
    case h_3 => cases read

theorem Kept.elements (kept : Kept fields keeps) {left : List (Field ε σ)}
    (among : ∀ field ∈ left, field ∈ fields) {required : Nat} {first : Bool} {r last : σ}
    {tokens rest : List Token} (before : keeps r tokens)
    (read : elements required first left r tokens = .ok (last, rest)) : keeps last rest := by
  induction left generalizing required first r tokens with
  | nil =>
    unfold Decoder.elements at read
    split at read
    case h_1 => cases read; exact kept.passing before (List.suffix_cons _ _)
    case h_2 same _ => cases same
    case h_3 same => cases same
    case h_4 => cases read
  | cons field left ih =>
    simp only [List.mem_cons, forall_eq_or_imp] at among
    unfold Decoder.elements at read
    split at read
    case h_1 => cases read; exact kept.passing before (List.suffix_cons _ _)
    case h_2 same _ =>
      cases same
      split at read
      case h_1 => cases read
      case h_2 result => exact ih among.2 (kept.reading among.1 before result) read
    case h_3 same =>
      cases same
      split at read
      case h_1 => cases read
      case h_2 result =>
        have inside := kept.passing before (List.suffix_cons _ _)
        exact ih among.2 (kept.reading among.1 inside result) read
    case h_4 => cases read

theorem Kept.record (kept : Kept fields keeps) {required : Nat} {start : σ}
    {finish : σ → Except (DecodeError ε) α} {tokens rest : List Token} {a : α}
    (before : keeps start tokens) (read : record fields required start finish tokens = .ok (a, rest)) :
    ∃ last, finish last = .ok a ∧ keeps last rest := by
  obtain ⟨last, read, finishes⟩ := checked_eq_ok_iff.1 read
  refine ⟨last, finishes, ?_⟩
  split at read
  case h_1 =>
    cases read
    exact kept.passing before ((List.suffix_cons _ _).trans (List.suffix_cons _ _))
  case h_2 => exact kept.members (kept.passing before (List.suffix_cons _ _)) read
  case h_3 =>
    exact kept.elements (fun _ mem => mem) (kept.passing before (List.suffix_cons _ _)) read
  case h_4 => cases read

theorem Forward.record (each : ∀ field ∈ fields, ∀ r, Forward (field.read r)) (required : Nat)
    (start : σ) (finish : σ → Except (DecodeError ε) α) :
    Forward (record fields required start finish) := by
  intro tokens a rest read
  have kept : Kept fields fun _ left => left <:+ tokens :=
    ⟨fun before later => later.trans before,
      fun mem _ _ _ _ before result => (each _ mem _ result).trans before⟩
  obtain ⟨_, _, suffix⟩ := kept.record (List.suffix_refl tokens) read
  exact suffix

/-- A field reads a value and puts it into the record: as the part in question, or elsewhere. -/
inductive Field.Treats (part : σ → Option β) (value : Decoder ε β) (field : Field ε σ) : Prop
  | sets (put : σ → β → σ)
    (reads : ∀ r tokens, field.read r tokens = (value tokens).map fun (b, rest) => (put r b, rest))
    (isSet : ∀ r b, part (put r b) = some b)
  | spares {γ : Type} (other : Decoder ε γ) (forward : Forward other) (put : σ → γ → σ)
    (reads : ∀ r tokens, field.read r tokens = (other tokens).map fun (c, rest) => (put r c, rest))
    (same : ∀ r c, part (put r c) = part r)

/-- A part that fields only set to what they have read was read somewhere in the tokens of the
record. -/
theorem record_part (part : σ → Option β) {value : Decoder ε β} (forward : Forward value)
    {required : Nat} {start : σ} {finish : σ → Except (DecodeError ε) α}
    {tokens rest : List Token} {a : α}
    (read : record fields required start finish tokens = .ok (a, rest))
    (unset : part start = none) (each : ∀ field ∈ fields, field.Treats part value) :
    ∃ last, finish last = .ok a ∧ ∀ b, part last = some b →
      ∃ here after, here <:+ tokens ∧ value here = .ok (b, after) := by
  have kept : Kept fields fun r left => left <:+ tokens ∧ ∀ b, part r = some b →
      ∃ here after, here <:+ tokens ∧ value here = .ok (b, after) := by
    refine ⟨fun ⟨behind, origin⟩ later => ⟨later.trans behind, origin⟩, ?_⟩
    intro field mem r r' here after ⟨behind, origin⟩ result
    cases each field mem with
    | sets put reads isSet =>
      rw [reads] at result
      obtain ⟨b, read, rfl⟩ := map_eq_ok_iff.1 result
      refine ⟨(forward read).trans behind, fun b' set => ?_⟩
      obtain rfl : b = b' := Option.some.inj ((isSet r b).symm.trans set)
      exact ⟨here, after, behind, read⟩
    | spares other forwardOther put reads same =>
      rw [reads] at result
      obtain ⟨c, read, rfl⟩ := map_eq_ok_iff.1 result
      exact ⟨(forwardOther read).trans behind, fun b set => origin b ((same r c).symm.trans set)⟩
  obtain ⟨last, finishes, _, origin⟩ := kept.record ⟨List.suffix_refl _, by simp [unset]⟩ read
  exact ⟨last, finishes, origin⟩

end Record

end Depot.Json.Decoder
