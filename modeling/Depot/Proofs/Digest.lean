import Depot.Digest.Sha256

/-! The shape of a digest's text: sixty-four lowercase hexadecimal digits, whatever the message. -/
namespace Depot

namespace Hex

def IsLower (c : Char) : Prop := ('0' ≤ c ∧ c ≤ '9') ∨ ('a' ≤ c ∧ c ≤ 'f')

instance (c : Char) : Decidable (IsLower c) := inferInstanceAs (Decidable (_ ∨ _))

theorem digit_lower : ∀ n < 16, IsLower (digit n) := by decide

theorem ofByte_lower (b : UInt8) : ∀ c ∈ ofByte b, IsLower c := by
  have high : b.toNat / 16 < 16 := by have := b.toNat_lt; omega
  have low : b.toNat % 16 < 16 := Nat.mod_lt _ (by decide)
  simp [ofByte, digit_lower _ high, digit_lower _ low]

theorem ofBytes_lower (bytes : ByteArray) : ∀ c ∈ (ofBytes bytes).toList, IsLower c := by
  intro c member
  rw [ofBytes, String.toList_ofList, List.mem_flatMap] at member
  obtain ⟨b, _, member⟩ := member
  exact ofByte_lower b c member

theorem ofBytes_length (bytes : ByteArray) : (ofBytes bytes).length = 2 * bytes.size := by
  have two : (fun b : UInt8 => (ofByte b).length) = fun _ => 2 := rfl
  rw [ofBytes, String.length_ofList, List.length_flatMap, two, List.map_const']
  simp [Nat.mul_comm]

end Hex

namespace Sha256

theorem digest_size (message : ByteArray) : (digest message).size = 32 := by
  simp [digest, wordBytes]

theorem hex_length (message : ByteArray) : (hex message).length = 64 := by
  rw [hex, Hex.ofBytes_length, digest_size]

theorem hex_ne_empty (message : ByteArray) : hex message ≠ "" := by
  intro empty
  have := hex_length message
  simp [empty] at this

end Sha256

end Depot
