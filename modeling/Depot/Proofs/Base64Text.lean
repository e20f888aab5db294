import Depot.Content
import Depot.Text.Base64

/-! Base64 read and written. A text is read if and only if some bytes are written as it, and then as
these bytes; so every content has one text, and no text is shorter than what it writes. -/
namespace Depot.Base64

/-! ### The alphabet -/

theorem value?_digit {n : Nat} (small : n < 64) : value? (digit n) = some n := by
  have table : ∀ n : Fin 64, value? (digit n) = some n.val := by decide
  exact table ⟨n, small⟩

theorem value?_eq_some_iff {b : UInt8} {n : Nat} : value? b = some n ↔ n < 64 ∧ b = digit n := by
  constructor
  · intro value
    have table : ∀ i : Fin 256, (value? (UInt8.ofNat i)).all
        fun n => n < 64 ∧ UInt8.ofNat i = digit n := by decide +kernel
    have entry := table ⟨b.toNat, b.toNat_lt⟩
    simpa [value] using entry
  · rintro ⟨small, rfl⟩
    exact value?_digit small

theorem digit_ne_padding {n : Nat} (small : n < 64) : digit n ≠ padding := by
  intro same
  have value := value?_digit small
  rw [same] at value
  contradiction

/-! ### Groups -/

theorem ofNat_eq {n : Nat} {b : UInt8} (same : n = b.toNat) : n.toUInt8 = b := by
  rw [same]
  exact UInt8.ofNat_toNat

theorem toNat_ofNat {n : Nat} (small : n < 256) : n.toUInt8.toNat = n :=
  UInt8.toNat_ofNat_of_lt small

theorem group?_encode (x y z : UInt8) :
    group? (digit (x.toNat / 4)) (digit (x.toNat % 4 * 16 + y.toNat / 16))
      (digit (y.toNat % 16 * 4 + z.toNat / 64)) (digit (z.toNat % 64)) = some (x, y, z) := by
  have boundX := x.toNat_lt
  have boundY := y.toNat_lt
  have boundZ := z.toNat_lt
  simp (disch := omega) only [group?, value?_digit, Option.bind_eq_bind, Option.bind_some,
    Option.some.injEq, Prod.mk.injEq]
  exact ⟨ofNat_eq (by omega), ofNat_eq (by omega), ofNat_eq (by omega)⟩

/-- Each of the four characters has bits of the three bytes that it can be told from. -/
theorem encode_group {i j k l : Nat} (smallI : i < 64) (smallJ : j < 64) (smallK : k < 64)
    (smallL : l < 64) (rest : List UInt8) :
    encode ((i * 4 + j / 16).toUInt8 :: (j % 16 * 16 + k / 4).toUInt8 :: (k % 4 * 64 + l).toUInt8 ::
      rest) = digit i :: digit j :: digit k :: digit l :: encode rest := by
  have first : (i * 4 + j / 16) / 4 = i := by omega
  have second : (i * 4 + j / 16) % 4 * 16 + (j % 16 * 16 + k / 4) / 16 = j := by omega
  have third : (j % 16 * 16 + k / 4) % 16 * 4 + (k % 4 * 64 + l) / 64 = k := by omega
  have fourth : (k % 4 * 64 + l) % 64 = l := by omega
  simp (disch := omega) only [encode, toNat_ofNat, first, second, third, fourth]

theorem encode_of_group {a b c d x y z : UInt8} (read : group? a b c d = some (x, y, z))
    (rest : List UInt8) : a :: b :: c :: d :: encode rest = encode (x :: y :: z :: rest) := by
  simp only [group?, Option.bind_eq_bind, Option.bind_eq_some_iff, value?_eq_some_iff,
    Option.some.injEq, Prod.mk.injEq] at read
  obtain ⟨i, ⟨smallI, rfl⟩, j, ⟨smallJ, rfl⟩, k, ⟨smallK, rfl⟩, l, ⟨smallL, rfl⟩, rfl, rfl, rfl⟩ :=
    read
  exact (encode_group smallI smallJ smallK smallL rest).symm

theorem padded?_one (x : UInt8) :
    padded? (digit (x.toNat / 4)) (digit (x.toNat % 4 * 16)) padding = some [x] := by
  have bound := x.toNat_lt
  have noBits : x.toNat % 4 * 16 % 16 = 0 := by omega
  simp (disch := omega) only [padded?, value?_digit, Option.bind_eq_bind, Option.bind_some, noBits,
    if_true]
  rw [ofNat_eq (by omega : x.toNat / 4 * 4 + x.toNat % 4 * 16 / 16 = x.toNat)]

theorem padded?_two (x y : UInt8) :
    padded? (digit (x.toNat / 4)) (digit (x.toNat % 4 * 16 + y.toNat / 16))
      (digit (y.toNat % 16 * 4)) = some [x, y] := by
  have boundX := x.toNat_lt
  have boundY := y.toNat_lt
  have unpadded : digit (y.toNat % 16 * 4) ≠ padding := digit_ne_padding (by omega)
  have noBits : y.toNat % 16 * 4 % 4 = 0 := by omega
  simp (disch := omega) only [padded?, value?_digit, Option.bind_eq_bind, Option.bind_some,
    if_neg unpadded, noBits, if_true]
  rw [ofNat_eq (b := x) (by omega), ofNat_eq (b := y) (by omega)]

theorem encode_of_padded {a b c : UInt8} {bytes : List UInt8} (read : padded? a b c = some bytes) :
    [a, b, c, padding] = encode bytes := by
  simp only [padded?, Option.bind_eq_bind, Option.bind_eq_some_iff, value?_eq_some_iff] at read
  obtain ⟨i, ⟨smallI, rfl⟩, j, ⟨smallJ, rfl⟩, read⟩ := read
  split at read
  next one =>
    split at read
    next noBits =>
      obtain rfl := Option.some.inj read
      have first : (i * 4 + j / 16) / 4 = i := by omega
      have second : (i * 4 + j / 16) % 4 * 16 = j := by omega
      simp (disch := omega) only [encode, toNat_ofNat, first, second, one]
    next => contradiction
  next two =>
    simp only [Option.bind_eq_some_iff, value?_eq_some_iff] at read
    obtain ⟨k, ⟨smallK, rfl⟩, read⟩ := read
    split at read
    next noBits =>
      obtain rfl := Option.some.inj read
      have first : (i * 4 + j / 16) / 4 = i := by omega
      have second : (i * 4 + j / 16) % 4 * 16 + (j % 16 * 16 + k / 4) / 16 = j := by omega
      have third : (j % 16 * 16 + k / 4) % 16 * 4 = k := by omega
      simp (disch := omega) only [encode, toNat_ofNat, first, second, third]
    next => contradiction

/-! ### Texts -/

theorem push_group (read : ByteArray) (x y z : UInt8) (rest : List UInt8) :
    ((read.push x).push y).push z ++ rest.toByteArray =
      read ++ (x :: y :: z :: rest).toByteArray := by
  apply content_ext_iff.mp
  simp

theorem decodeOnto_encode (read : ByteArray) (bytes : List UInt8) :
    decodeOnto read (encode bytes) = some (read ++ bytes.toByteArray) := by
  induction bytes using encode.induct generalizing read with
  | case1 => simp [encode, decodeOnto]
  | case2 a => simp [encode, decodeOnto, padded?_one]
  | case3 a b => simp [encode, decodeOnto, padded?_two]
  | case4 a b c rest ih =>
    have bound := c.toNat_lt
    have unpadded : digit (c.toNat % 64) ≠ padding := digit_ne_padding (by omega)
    simp only [encode, decodeOnto, if_neg unpadded, group?_encode, ih, push_group]

theorem encode_of_decodeOnto {read content : ByteArray} {text : List UInt8}
    (decoded : decodeOnto read text = some content) :
    ∃ bytes, text = encode bytes ∧ content = read ++ bytes.toByteArray := by
  fun_induction decodeOnto read text with
  | case1 read => exact ⟨[], rfl, by simpa using decoded.symm⟩
  | case2 read a b c =>
    obtain ⟨bytes, padded, rfl⟩ := Option.map_eq_some_iff.mp decoded
    exact ⟨bytes, encode_of_padded padded, rfl⟩
  | case3 => contradiction
  | case4 => contradiction
  | case5 read a b c d rest unpadded x y z group ih =>
    obtain ⟨bytes, rfl, whole⟩ := ih decoded
    exact ⟨x :: y :: z :: bytes, encode_of_group group bytes, whole.trans (push_group read x y z _)⟩
  | case6 => contradiction

/-- A text is read as what is written as it. -/
theorem decode_eq_some_iff {text : List UInt8} {content : ByteArray} :
    decode text = some content ↔ text = encode content.data.toList := by
  constructor
  · intro decoded
    obtain ⟨bytes, rfl, rfl⟩ := encode_of_decodeOnto decoded
    rw [ByteArray.empty_append, List.toList_data_toByteArray]
  · rintro rfl
    have same : content.data.toList.toByteArray = content :=
      content_ext_iff.mp List.toList_data_toByteArray
    rw [decode, decodeOnto_encode, ByteArray.empty_append, same]

example : encode "hello".toUTF8.data.toList = "aGVsbG8=".toUTF8.data.toList := by decide

theorem length_encode (bytes : List UInt8) :
    (encode bytes).length = 4 * ((bytes.length + 2) / 3) := by
  fun_induction encode bytes with
  | case1 => rfl
  | case2 => simp
  | case3 => simp
  | case4 a b c rest ih =>
    simp only [List.length_cons, ih]
    omega

theorem length_of_decode {text : List UInt8} {content : ByteArray}
    (decoded : decode text = some content) : text.length = 4 * ((content.size + 2) / 3) := by
  have size : content.data.toList.length = content.size := Array.length_toList
  rw [decode_eq_some_iff.mp decoded, length_encode, size]

/-- Reading makes nothing longer. -/
theorem size_of_decode {text : List UInt8} {content : ByteArray}
    (decoded : decode text = some content) : content.size ≤ text.length := by
  have length := length_of_decode decoded
  omega

/-- So many bytes can be written within a ceiling, and no more. -/
theorem fits_iff (size ceiling : Nat) :
    4 * ((size + 2) / 3) ≤ ceiling ↔ size ≤ ceiling / 4 * 3 := by omega

theorem digit_ascii {n : Nat} (small : n < 64) : digit n < 0x80 := by
  have table : ∀ n : Fin 64, digit n < 0x80 := by decide
  exact table ⟨n, small⟩

theorem encode_ascii (bytes : List UInt8) : ∀ b ∈ encode bytes, b < 0x80 := by
  have padded : padding < 0x80 := by decide
  fun_induction encode bytes with
  | case1 => nofun
  | case2 x =>
    have bound := x.toNat_lt
    simp only [List.forall_mem_cons]
    exact ⟨digit_ascii (by omega), digit_ascii (by omega), padded, padded, nofun⟩
  | case3 x y =>
    have boundX := x.toNat_lt
    have boundY := y.toNat_lt
    simp only [List.forall_mem_cons]
    exact ⟨digit_ascii (by omega), digit_ascii (by omega), digit_ascii (by omega), padded, nofun⟩
  | case4 x y z rest ih =>
    have boundX := x.toNat_lt
    have boundY := y.toNat_lt
    have boundZ := z.toNat_lt
    simp only [List.forall_mem_cons]
    exact ⟨digit_ascii (by omega), digit_ascii (by omega), digit_ascii (by omega),
      digit_ascii (by omega), ih⟩

end Depot.Base64
