import Depot.Json.Token
import Depot.Json.Writer
import Depot.Proofs.DecimalText

/-! # Written JSON is cut into the tokens that were written

What a writer writes is followed by a comma, a closing bracket or the end of the text. None of
these continues a number, and all other tokens end by themselves, so that tokens can be read off a
written text from the left.
-/

namespace Depot.Json.Token

def continuesNumber (b : UInt8) : Bool := isDigitByte b || b == 0x2e || b == 0x65 || b == 0x45

def Separated (text : List UInt8) : Prop := ∀ b ∈ text.head?, continuesNumber b = false

/-- The text is cut into the tokens, whatever stands before and behind it. -/
structure Writes (text : List UInt8) (tokens : List Token) : Prop where
  length_le : tokens.length ≤ text.length
  cuts : ∀ fuel before rest, Separated rest →
    cutAll (tokens.length + fuel) before (text ++ rest) =
      cutAll fuel (tokens.reverse ++ before) rest

/-- The fuel of one unit a byte is enough. -/
theorem Writes.ofBytes {text : List UInt8} {tokens : List Token} (writes : Writes text tokens) :
    ofBytes text = tokens := by
  have cuts := writes.cuts (text.length - tokens.length) [] [] (by simp [Separated])
  have fuel : tokens.length + (text.length - tokens.length) = text.length := by
    have := writes.length_le
    omega
  have stops (fuel : Nat) (before : List Token) : cutAll fuel before [] = before.reverse := by
    cases fuel <;> rfl
  rw [fuel, List.append_nil, stops] at cuts
  simpa [Token.ofBytes] using cuts

theorem writes_nil : Writes [] [] where
  length_le := Nat.le_refl 0
  cuts := fun fuel before rest _ => by simp

/-- One token that starts with the given byte. -/
theorem writes_cut {b : UInt8} {text : List UInt8} {token : Token} (solid : isSpace b = false)
    (cuts : ∀ rest, Separated rest → cut b (text ++ rest) = some (token, rest)) :
    Writes (b :: text) [token] where
  length_le := by simp
  cuts := by
    intro fuel before rest separated
    simp [Nat.add_comm 1 fuel, cutAll, solid, cuts rest separated]

theorem Writes.append {text text' : List UInt8} {tokens tokens' : List Token}
    (front : Writes text tokens) (back : Writes text' tokens') (nonempty : text' ≠ [])
    (separated : Separated text') : Writes (text ++ text') (tokens ++ tokens') where
  length_le := by
    have := front.length_le
    have := back.length_le
    simp only [List.length_append]
    omega
  cuts := by
    intro fuel before rest apart
    have behind : Separated (text' ++ rest) := by
      cases text' with
      | nil => exact absurd rfl nonempty
      | cons b text' => simpa [Separated] using separated
    rw [List.length_append, Nat.add_assoc, List.append_assoc, front.cuts _ _ _ behind,
      back.cuts _ _ _ apart]
    simp

/-- A mark is a token of one byte. It is no part of a number. -/
structure Mark (b : UInt8) (token : Token) : Prop where
  solid : isSpace b = false
  apart : continuesNumber b = false
  cuts : ∀ rest, cut b rest = some (token, rest)

theorem Mark.leftBrace : Mark 0x7b .leftBrace := ⟨rfl, rfl, fun _ => rfl⟩
theorem Mark.rightBrace : Mark 0x7d .rightBrace := ⟨rfl, rfl, fun _ => rfl⟩
theorem Mark.leftBracket : Mark 0x5b .leftBracket := ⟨rfl, rfl, fun _ => rfl⟩
theorem Mark.rightBracket : Mark 0x5d .rightBracket := ⟨rfl, rfl, fun _ => rfl⟩
theorem Mark.comma : Mark 0x2c .comma := ⟨rfl, rfl, fun _ => rfl⟩
theorem Mark.colon : Mark 0x3a .colon := ⟨rfl, rfl, fun _ => rfl⟩

variable {b : UInt8} {token : Token} {text text' : List UInt8} {tokens tokens' : List Token}

theorem Mark.cons (mark : Mark b token) (writes : Writes text tokens) :
    Writes (b :: text) (token :: tokens) where
  length_le := by simpa using writes.length_le
  cuts := by
    intro fuel before rest separated
    have cuts := writes.cuts fuel (token :: before) rest separated
    simp [Nat.add_right_comm, cutAll, mark.solid, mark.cuts, cuts]

/-- Marks may follow anything. -/
theorem Mark.between (mark : Mark b token) (front : Writes text tokens)
    (back : Writes text' tokens') : Writes (text ++ b :: text') (tokens ++ token :: tokens') :=
  front.append (mark.cons back) (List.cons_ne_nil _ _) (by simpa [Separated] using mark.apart)

/-- Null ends by itself. -/
theorem writes_null : Writes Writer.null [.null] := writes_cut rfl fun _ _ => rfl

section String

open Writer (escapeByte)

/-- What the writer does to a byte of a text, and that the reader undoes it. -/
theorem escapeByte_cases (b : UInt8) :
    (∃ e, escapeByte b = [0x5c, e] ∧ e ≠ 0x75 ∧ simpleEscape? e = some b) ∨
    (∃ high low, escapeByte b = [0x5c, 0x75, 0x30, 0x30, high, low] ∧ isHex high = true ∧
      isHex low = true ∧ ∃ n < 32, codeUnit 0x30 0x30 high low = n ∧ utf8 n = [b]) ∨
    (escapeByte b = [b] ∧ b ≠ 0x22 ∧ b ≠ 0x5c ∧ ¬ b < 0x20) := by
  have control (n : Fin 32) : ∃ high low,
      (Hex.ofByte (UInt8.ofNat n)).map (fun c => c.toNat.toUInt8) = [high, low] ∧
      isHex high = true ∧ isHex low = true ∧ codeUnit 0x30 0x30 high low = n ∧
      utf8 n = [UInt8.ofNat n] := by
    refine ⟨(Hex.digit (n / 16)).toNat.toUInt8, (Hex.digit (n % 16)).toNat.toUInt8, ?_⟩
    revert n
    decide
  unfold escapeByte
  split
  case isTrue quote => exact .inl ⟨0x22, rfl, by decide, by rw [quote]; rfl⟩
  split
  case isTrue slash => exact .inl ⟨0x5c, rfl, by decide, by rw [slash]; rfl⟩
  split
  case isTrue backspace => exact .inl ⟨0x62, rfl, by decide, by rw [backspace]; rfl⟩
  split
  case isTrue tab => exact .inl ⟨0x74, rfl, by decide, by rw [tab]; rfl⟩
  split
  case isTrue newline => exact .inl ⟨0x6e, rfl, by decide, by rw [newline]; rfl⟩
  split
  case isTrue feed => exact .inl ⟨0x66, rfl, by decide, by rw [feed]; rfl⟩
  split
  case isTrue carriage => exact .inl ⟨0x72, rfl, by decide, by rw [carriage]; rfl⟩
  split
  case isTrue small =>
    have below : b.toNat < 32 := UInt8.lt_iff_toNat_lt.1 small
    obtain ⟨high, low, digits, isHigh, isLow, unit, writes⟩ := control ⟨b.toNat, below⟩
    have same : UInt8.ofNat b.toNat = b := by simp
    rw [same] at digits writes
    exact .inr (.inl ⟨high, low, by rw [digits]; rfl, isHigh, isLow, b.toNat, below, unit, writes⟩)
  case isFalse notQuote notSlash _ _ _ _ _ large =>
    exact .inr (.inr ⟨rfl, notQuote, notSlash, large⟩)

theorem cutString_escapeByte (content : List UInt8) (b : UInt8) (rest : List UInt8) :
    cutString content (escapeByte b ++ rest) =
      cutString ((escapeByte b).reverse ++ content) rest := by
  rcases escapeByte_cases b with ⟨e, escaped, plain, stands⟩ |
    ⟨high, low, escaped, isHigh, isLow, _⟩ | ⟨escaped, notQuote, notSlash, large⟩
  · rw [escaped, cutString.eq_def]
    simp [plain, stands]
  · have zero : isHex 0x30 = true := rfl
    rw [escaped, cutString.eq_def]
    simp [zero, isHigh, isLow]
  · rw [escaped, cutString.eq_def]
    simp [notQuote, notSlash, large]

theorem unescape_escapeByte (bytes : List UInt8) (b : UInt8) (rest : List UInt8) :
    unescape bytes (escapeByte b ++ rest) = unescape (b :: bytes) rest := by
  rcases escapeByte_cases b with ⟨e, escaped, plain, stands⟩ |
    ⟨high, low, escaped, isHigh, isLow, n, small, unit, writes⟩ |
    ⟨escaped, notQuote, notSlash, large⟩
  · rw [escaped, unescape.eq_def]
    simp [plain, stands]
  · have notLow : isLowSurrogate n = false := by simp [isLowSurrogate]; omega
    have notHigh : isHighSurrogate n = false := by simp [isHighSurrogate]; omega
    rw [escaped, unescape.eq_def]
    simp [unit, notLow, notHigh, writes]
  · rw [escaped, unescape.eq_def]
    simp [notSlash]

/-- The closing quote is the first that is not escaped. -/
theorem cutString_string (content bytes rest : List UInt8) :
    cutString content (bytes.flatMap escapeByte ++ 0x22 :: rest) =
      some (content.reverse ++ bytes.flatMap escapeByte, rest) := by
  induction bytes generalizing content with
  | nil =>
    rw [List.flatMap_nil, List.nil_append, cutString.eq_def]
    simp
  | cons b bytes ih =>
    rw [List.flatMap_cons, List.append_assoc, cutString_escapeByte, ih]
    simp

theorem unescape_string (before bytes : List UInt8) :
    unescape before (bytes.flatMap escapeByte) = some (bytes.reverse ++ before) := by
  induction bytes generalizing before with
  | nil => rfl
  | cons b bytes ih =>
    rw [List.flatMap_cons, unescape_escapeByte, ih]
    simp

theorem textOf_string (text : String) :
    textOf (text.toUTF8.data.toList.flatMap escapeByte) = some text := by
  have bytes : text.toUTF8.data.toList.toByteArray = text.toUTF8 := by simp [ByteArray.ext_iff]
  rw [textOf, unescape_string, Option.bind_some, List.append_nil, List.reverse_reverse, bytes]
  simp [String.fromUTF8?, String.toUTF8, String.fromUTF8, text.isValidUTF8]

theorem writes_string (text : String) : Writes (Writer.string text) [.string (some text)] :=
  writes_cut rfl fun rest _ => by
    have cuts := cutString_string [] text.toUTF8.data.toList rest
    rw [List.append_assoc, List.singleton_append, ← textOf_string text]
    exact congrArg (Option.map _) cuts

end String

section Number

theorem separated_head {rest : List UInt8} (separated : Separated rest) :
    rest.takeWhile isDigitByte = [] ∧ rest.dropWhile isDigitByte = rest := by
  cases rest with
  | nil => exact ⟨rfl, rfl⟩
  | cons b rest =>
    have other : isDigitByte b = false := by
      have apart : continuesNumber b = false := separated b rfl
      simp only [continuesNumber, Bool.or_eq_false_iff] at apart
      exact apart.1.1.1
    simp [other]

/-- The byte of a digit, and the digit of the byte. -/
theorem digitByte {c : Char} (digit : c.isDigit = true) :
    isDigitByte c.toNat.toUInt8 = true ∧ Char.ofUInt8 c.toNat.toUInt8 = c := by
  have range : 48 ≤ c.toNat ∧ c.toNat ≤ 57 := Char.isDigit_iff_toNat.1 digit
  rw [← Char.ofNat_toNat c]
  have value : c.toNat = 48 ∨ c.toNat = 49 ∨ c.toNat = 50 ∨ c.toNat = 51 ∨ c.toNat = 52 ∨
      c.toNat = 53 ∨ c.toNat = 54 ∨ c.toNat = 55 ∨ c.toNat = 56 ∨ c.toNat = 57 := by omega
  rcases value with value | value | value | value | value | value | value | value | value | value <;>
    rw [value] <;> decide

theorem cutDigits_append {digits : List Char} {rest : List UInt8}
    (all : ∀ c ∈ digits, c.isDigit = true) (separated : Separated rest) :
    cutDigits ((digits.map fun c => c.toNat.toUInt8) ++ rest) = (digits, rest) := by
  induction digits with
  | nil => simp [cutDigits, separated_head separated]
  | cons c digits ih =>
    simp only [List.mem_cons, forall_eq_or_imp] at all
    have byte := digitByte all.1
    have more := ih all.2
    simp only [cutDigits, Prod.mk.injEq] at more
    simp [cutDigits, byte, more]

/-- A number is written without zeros in front. -/
theorem toDigits_ne_zero_cons (n : Nat) (c : Char) (digits : List Char) :
    Nat.toDigits 10 n ≠ '0' :: c :: digits := by
  induction n using Nat.strongRecOn generalizing c digits with
  | ind n ih =>
    intro zero
    by_cases small : n < 10
    · simp [Nat.toDigits_of_lt_base small] at zero
    rw [Nat.toDigits_of_base_le (by decide) (Nat.le_of_not_lt small)] at zero
    cases front : Nat.toDigits 10 (n / 10) with
    | nil =>
      have some : 0 < (Nat.toDigits 10 (n / 10)).length := Nat.length_toDigits_pos
      simp [front] at some
    | cons d more =>
      rw [front, List.cons_append] at zero
      obtain ⟨rfl, tail⟩ := List.cons.inj zero
      cases more with
      | nil =>
        -- the digits before the last one write zero, so that there are none
        have value := Decimal.ofDigits_toDigits (n / 10)
        rw [front] at value
        have none : n / 10 = 0 := value.symm
        omega
      | cons c more => exact ih (n / 10) (by omega) c more front

theorem cutNumber_nat (n : Nat) {rest : List UInt8} (separated : Separated rest) :
    cutNumber false (Writer.nat n ++ rest) = some (Number.ofNat n, rest) := by
  have digits : cutDigits (Writer.nat n ++ rest) = (Nat.toDigits 10 n, rest) :=
    cutDigits_append (fun _ => Decimal.isDigit_of_mem_toDigits) separated
  have noZero := toDigits_ne_zero_cons n
  have nonempty : Nat.toDigits 10 n ≠ [] := List.ne_nil_of_length_pos Nat.length_toDigits_pos
  have other (b : UInt8) (more : List UInt8) (same : rest = b :: more) :
      b ≠ 0x2e ∧ b ≠ 0x65 ∧ b ≠ 0x45 := by
    have apart : continuesNumber b = false := separated b (by rw [same]; rfl)
    simp only [continuesNumber, Bool.or_eq_false_iff, beq_eq_false_iff_ne] at apart
    exact ⟨apart.1.1.2, apart.1.2, apart.2⟩
  unfold cutNumber Number.ofNat
  -- the digits are neither none nor a zero with more behind it
  simp only [digits]
  split
  case h_1 more => exact absurd rfl (other _ _ rfl).1
  simp only [bind, Option.bind_some]
  split
  case h_1 more _ => exact absurd rfl (other _ _ rfl).2.1
  case h_2 more _ => exact absurd rfl (other _ _ rfl).2.2
  case h_3 => rfl

theorem cut_digit {b : UInt8} (digit : isDigitByte b = true) (rest : List UInt8) :
    isSpace b = false ∧
      cut b rest = (cutNumber false (b :: rest)).map fun (n, rest) => (.number n, rest) := by
  have range : 48 ≤ b.toNat ∧ b.toNat ≤ 57 := by
    simpa [isDigitByte, UInt8.le_iff_toNat_le] using digit
  have other (c : UInt8) (outside : c.toNat < 48 ∨ 57 < c.toNat) : b ≠ c := by
    rintro rfl
    omega
  refine ⟨by simp [isSpace, other], ?_⟩
  simp [cut, other, digit]

theorem writes_nat (n : Nat) : Writes (Writer.nat n) [.number (Number.ofNat n)] := by
  have number (rest : List UInt8) (separated : Separated rest) := cutNumber_nat n separated
  cases digits : Nat.toDigits 10 n with
  | nil => exact absurd digits (List.ne_nil_of_length_pos Nat.length_toDigits_pos)
  | cons c more =>
    have text : Writer.nat n = c.toNat.toUInt8 :: more.map fun c => c.toNat.toUInt8 := by
      rw [Writer.nat, digits]; rfl
    have digit : isDigitByte c.toNat.toUInt8 = true :=
      (digitByte (Decimal.isDigit_of_mem_toDigits (by rw [digits]; exact List.mem_cons_self))).1
    rw [text] at number ⊢
    refine writes_cut (cut_digit digit []).1 fun rest separated => ?_
    rw [(cut_digit digit _).2, ← List.cons_append, number rest separated]
    rfl

end Number

def commaSeparated : List (List Token) → List Token
  | [] => []
  | [part] => part
  | part :: parts => part ++ .comma :: commaSeparated parts

def arrayOf (items : List (List Token)) : List Token :=
  .leftBracket :: (commaSeparated items ++ [.rightBracket])

def memberOf (key : String) (value : List Token) : List Token :=
  .string (some key) :: .colon :: value

def objectOf (members : List (String × List Token)) : List Token :=
  .leftBrace :: (commaSeparated (members.map fun (key, value) => memberOf key value) ++ [.rightBrace])

variable {α : Type} {bytes : α → List UInt8} {cuts : α → List Token}

theorem writes_commaSeparated (parts : List α) (each : ∀ a ∈ parts, Writes (bytes a) (cuts a)) :
    Writes (Writer.commaSeparated (parts.map bytes)) (commaSeparated (parts.map cuts)) := by
  induction parts with
  | nil => exact writes_nil
  | cons a parts ih =>
    simp only [List.mem_cons, forall_eq_or_imp] at each
    cases parts with
    | nil => exact each.1
    | cons a' parts => exact Mark.comma.between each.1 (ih each.2)

theorem writes_array (parts : List α) (each : ∀ a ∈ parts, Writes (bytes a) (cuts a)) :
    Writes (Writer.array (parts.map bytes)) (arrayOf (parts.map cuts)) :=
  Mark.leftBracket.cons (Mark.rightBracket.between (writes_commaSeparated parts each) writes_nil)

/-- A member's value is written and read under its key. -/
theorem writes_object (members : List (String × List UInt8 × List Token))
    (each : ∀ member ∈ members, Writes member.2.1 member.2.2) :
    Writes (Writer.object (members.map fun (key, value, _) => (key, value)))
      (objectOf (members.map fun (key, _, value) => (key, value))) := by
  have written := writes_commaSeparated members
    (fun member mem => Mark.colon.between (writes_string member.1) (each member mem))
  simp only [Writer.object, objectOf, List.map_map]
  exact Mark.leftBrace.cons (Mark.rightBrace.between written writes_nil)

end Depot.Json.Token
