import Mathlib.Logic.Basic

/-!
# Texts as UTF-8 bytes

A `String` is its UTF-8 bytes with the proof that they are UTF-8, as a `str` of Rust is.
-/

namespace OpenWorkers.Utf8

open List

def asBytes (s : String) : List UInt8 := s.toByteArray.data.toList

/-- The text that some bytes are, if they are UTF-8. -/
def fromBytes (bytes : List UInt8) : Option String := String.fromUTF8? ⟨bytes.toArray⟩

theorem fromBytes_asBytes (s : String) : fromBytes (asBytes s) = some s := by
  change String.fromUTF8? s.toByteArray = some s
  rw [String.fromUTF8?, dif_pos s.isValidUTF8]
  rfl

theorem fromBytes_eq_some {bytes : List UInt8} {s : String} :
    fromBytes bytes = some s ↔ bytes = asBytes s := by
  constructor
  · intro h
    rw [fromBytes, String.fromUTF8?] at h
    split at h
    · cases h
      rfl
    · cases h
  · rintro rfl
    exact fromBytes_asBytes s

theorem asBytes_ofList (chars : List Char) :
    asBytes (String.ofList chars) = chars.flatMap String.utf8EncodeChar := by
  rw [asBytes, String.toByteArray_ofList, List.utf8Encode]
  simp

/-! ## The bytes of a character -/

theorem utf8EncodeChar_ascii {c : Char} (h : c.toNat < 128) :
    String.utf8EncodeChar c = [UInt8.ofNat c.toNat] :=
  if_pos (Nat.le_of_lt_succ h)

theorem le_toNat_ofNat {n : Nat} (h : 128 ≤ n) (hlt : n < 256) : 128 ≤ (UInt8.ofNat n).toNat := by
  rw [UInt8.toNat_ofNat_of_lt' hlt]
  exact h

/-- A character that is not ASCII has no ASCII byte. -/
theorem le_of_mem_utf8EncodeChar {c : Char} (h : 128 ≤ c.toNat) {b : UInt8}
    (hb : b ∈ String.utf8EncodeChar c) : 128 ≤ b.toNat := by
  have hc : ¬ c.val.toNat ≤ 127 := Nat.not_le.mpr h
  unfold String.utf8EncodeChar at hb
  simp only [hc, if_false] at hb
  split at hb
  · simp only [mem_cons, not_mem_nil, or_false] at hb
    rcases hb with rfl | rfl <;> exact le_toNat_ofNat (by omega) (by omega)
  split at hb
  · simp only [mem_cons, not_mem_nil, or_false] at hb
    rcases hb with rfl | rfl | rfl <;> exact le_toNat_ofNat (by omega) (by omega)
  · simp only [mem_cons, not_mem_nil, or_false] at hb
    rcases hb with rfl | rfl | rfl | rfl <;> exact le_toNat_ofNat (by omega) (by omega)

theorem utf8EncodeChar_ne_nil (c : Char) : String.utf8EncodeChar c ≠ [] := by
  rw [← length_pos_iff, String.length_utf8EncodeChar]
  exact c.utf8Size_pos

end OpenWorkers.Utf8
