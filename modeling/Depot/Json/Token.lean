import Depot.Json.Number
import Depot.Text.Hex

/-! # JSON tokens

A text is cut into tokens once; whatever reads JSON reads tokens. A text that cannot be cut further
ends in the token `invalid`, so that all that stands before it can still be read.
-/

namespace Depot.Json

inductive Token where
  | leftBrace
  | rightBrace
  | leftBracket
  | rightBracket
  | comma
  | colon
  | null
  | bool (value : Bool)
  | number (literal : Number)
  /-- None stands for a literal of right form that writes no text: an unpaired surrogate, or bytes
  that are not UTF-8. -/
  | string (text : Option String)
  | invalid
  deriving DecidableEq, Repr

namespace Token

def isSpace (b : UInt8) : Bool := b == 0x20 || b == 0x0a || b == 0x0d || b == 0x09

def simpleEscape? (b : UInt8) : Option UInt8 :=
  if b = 0x22 then some 0x22
  else if b = 0x5c then some 0x5c
  else if b = 0x2f then some 0x2f
  else if b = 0x62 then some 0x08
  else if b = 0x66 then some 0x0c
  else if b = 0x6e then some 0x0a
  else if b = 0x72 then some 0x0d
  else if b = 0x74 then some 0x09
  else none

def isHex (b : UInt8) : Bool := (Hex.byteValue? b).isSome

/-- Cuts a string literal, its opening quote read, at its closing quote. Controls are refused;
escapes are checked for their form and kept. -/
def cutString (content : List UInt8) : List UInt8 → Option (List UInt8 × List UInt8)
  | [] => none
  | b :: rest =>
    if b = 0x22 then some (content.reverse, rest)
    else if b = 0x5c then
      match rest with
      | [] => none
      | e :: rest =>
        if e = 0x75 then
          match rest with
          | h₁ :: h₂ :: h₃ :: h₄ :: rest =>
            if isHex h₁ && isHex h₂ && isHex h₃ && isHex h₄ then
              cutString (h₄ :: h₃ :: h₂ :: h₁ :: e :: b :: content) rest
            else none
          | _ => none
        else if (simpleEscape? e).isSome then cutString (e :: b :: content) rest
        else none
    else if b < 0x20 then none
    else cutString (b :: content) rest

def codeUnit (h₁ h₂ h₃ h₄ : UInt8) : Nat :=
  [h₁, h₂, h₃, h₄].foldl (fun n h => 16 * n + (Hex.byteValue? h).getD 0) 0

def isHighSurrogate (n : Nat) : Bool := 0xd800 ≤ n && n ≤ 0xdbff

def isLowSurrogate (n : Nat) : Bool := 0xdc00 ≤ n && n ≤ 0xdfff

def utf8 (codePoint : Nat) : List UInt8 := String.utf8EncodeChar (Char.ofNat codePoint)

/-- The bytes that a literal's content writes, in reverse; none if it has an unpaired surrogate. -/
def unescape (bytes : List UInt8) : List UInt8 → Option (List UInt8)
  | [] => some bytes
  | b :: rest =>
    if b = 0x5c then
      match rest with
      | [] => none
      | e :: rest =>
        if e = 0x75 then
          match rest with
          | h₁ :: h₂ :: h₃ :: h₄ :: rest =>
            let unit := codeUnit h₁ h₂ h₃ h₄
            if isLowSurrogate unit then none
            else if isHighSurrogate unit then
              match rest with
              | 0x5c :: 0x75 :: l₁ :: l₂ :: l₃ :: l₄ :: rest =>
                let low := codeUnit l₁ l₂ l₃ l₄
                if isLowSurrogate low then
                  let point := 0x10000 + (unit - 0xd800) * 0x400 + (low - 0xdc00)
                  unescape ((utf8 point).reverse ++ bytes) rest
                else none
              | _ => none
            else unescape ((utf8 unit).reverse ++ bytes) rest
          | _ => none
        else
          match simpleEscape? e with
          | some c => unescape (c :: bytes) rest
          | none => none
    else unescape (b :: bytes) rest

def textOf (content : List UInt8) : Option String :=
  (unescape [] content).bind fun bytes => String.fromUTF8? bytes.reverse.toByteArray

def isDigitByte (b : UInt8) : Bool := 0x30 ≤ b && b ≤ 0x39

def cutDigits (bytes : List UInt8) : List Char × List UInt8 :=
  ((bytes.takeWhile isDigitByte).map Char.ofUInt8, bytes.dropWhile isDigitByte)

/-- Sign and digits behind the letter of an exponent. -/
def cutExponent (bytes : List UInt8) : Option ((Bool × List Char) × List UInt8) :=
  let (minus, bytes) := match bytes with
    | 0x2b :: rest => (false, rest)
    | 0x2d :: rest => (true, rest)
    | rest => (false, rest)
  match cutDigits bytes with
  | ([], _) => none
  | (digits, rest) => some ((minus, digits), rest)

/-- A number from its first digit on. A zero is followed by no digit. -/
def cutNumber (negative : Bool) (bytes : List UInt8) : Option (Number × List UInt8) := do
  let (whole, rest) := cutDigits bytes
  match whole with
  | [] => none
  | '0' :: _ :: _ => none
  | _ => pure ()
  let (fraction, rest) ← match rest with
    | 0x2e :: rest =>
      match cutDigits rest with
      | ([], _) => none
      | (digits, rest) => some (some digits, rest)
    | rest => some (none, rest)
  match rest with
  | 0x65 :: rest | 0x45 :: rest =>
    let (exponent, rest) ← cutExponent rest
    some (⟨negative, whole, fraction, some exponent⟩, rest)
  | rest => some (⟨negative, whole, fraction, none⟩, rest)

def cut (b : UInt8) (rest : List UInt8) : Option (Token × List UInt8) :=
  if b = 0x7b then some (.leftBrace, rest)
  else if b = 0x7d then some (.rightBrace, rest)
  else if b = 0x5b then some (.leftBracket, rest)
  else if b = 0x5d then some (.rightBracket, rest)
  else if b = 0x2c then some (.comma, rest)
  else if b = 0x3a then some (.colon, rest)
  else if b = 0x22 then
    (cutString [] rest).map fun (content, rest) => (.string (textOf content), rest)
  else if b = 0x2d then (cutNumber true rest).map fun (n, rest) => (.number n, rest)
  else if isDigitByte b then
    (cutNumber false (b :: rest)).map fun (n, rest) => (.number n, rest)
  else
    match b, rest with
    | 0x6e, 0x75 :: 0x6c :: 0x6c :: rest => some (.null, rest)
    | 0x74, 0x72 :: 0x75 :: 0x65 :: rest => some (.bool true, rest)
    | 0x66, 0x61 :: 0x6c :: 0x73 :: 0x65 :: rest => some (.bool false, rest)
    | _, _ => none

/-- Cuts at most so many tokens off the text; those before it are given in reverse. -/
def cutAll : Nat → List Token → List UInt8 → List Token
  | 0, tokens, _ => tokens.reverse
  | fuel + 1, tokens, text =>
    match text.dropWhile isSpace with
    | [] => tokens.reverse
    | b :: rest =>
      match cut b rest with
      | none => (.invalid :: tokens).reverse
      | some (token, rest) => cutAll fuel (token :: tokens) rest

def ofBytes (text : List UInt8) : List Token := cutAll text.length [] text

end Token

end Depot.Json
