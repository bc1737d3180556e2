import OpenWorkers.Lib.Utf16
import OpenWorkers.Lib.Utf8

/-!
# Texts between units and bytes

A string of UTF-16 units as UTF-8 bytes (`encode`, the `TextEncoder` of the web platform) and back
(`decode`).  A surrogate that stands alone is encoded as U+FFFD and is lost; strings without one
come back, and only they do (`decode_eq_some`).

`Mirrors` says what encoding does to the characters to which a textual format gives a meaning,
which are all ASCII: they stay in their places, and what is between them has no ASCII in it on
either side.
-/

namespace OpenWorkers.Text

open List Option
open Utf16 (isSurrogate isHigh isLow single scalar decodeLossy wellFormed)

def encode (s : List UInt16) : List UInt8 := (decodeLossy s).flatMap String.utf8EncodeChar

/-- The string that some bytes are, if they are UTF-8. -/
def decode (bytes : List UInt8) : Option (List UInt16) :=
  (Utf8.fromBytes bytes).map fun s => s.toList.flatMap Utf16.encode

theorem encode_eq_asBytes (s : List UInt16) :
    encode s = Utf8.asBytes (String.ofList (decodeLossy s)) :=
  (Utf8.asBytes_ofList _).symm

/-- **Exactly the strings without a lone surrogate come back.** -/
theorem decode_eq_some {bytes : List UInt8} {s : List UInt16} :
    decode bytes = some s ↔ wellFormed s = true ∧ bytes = encode s := by
  constructor
  · intro h
    obtain ⟨text, htext, rfl⟩ := map_eq_some_iff.mp h
    obtain ⟨hdecode, hwell⟩ := Utf16.decodeLossy_flatMap_encode text.toList
    refine ⟨hwell, ?_⟩
    rw [encode_eq_asBytes, hdecode, String.ofList_toList]
    exact Utf8.fromBytes_eq_some.mp htext
  · rintro ⟨hwell, rfl⟩
    rw [decode, encode_eq_asBytes, Utf8.fromBytes_asBytes, map_some, String.toList_ofList,
      Utf16.flatMap_encode_decodeLossy hwell]

/-! ## Strings put together -/

theorem encode_append_left {s : List UInt16} (h : ∀ u ∈ s, isSurrogate u = false)
    (s' : List UInt16) : encode (s ++ s') = encode s ++ encode s' := by
  rw [encode, Utf16.decodeLossy_append_left h, flatMap_append]
  rfl

theorem encode_append_cons {u : UInt16} (h : isSurrogate u = false) (s s' : List UInt16) :
    encode (s ++ u :: s') = encode s ++ encode (u :: s') := by
  rw [encode, Utf16.decodeLossy_append_cons h, flatMap_append]
  rfl

/-- Any string before a text without surrogates. -/
theorem encode_append_append {t : List UInt16} (ht : t ≠ []) (h : ∀ u ∈ t, isSurrogate u = false)
    (s s' : List UInt16) : encode (s ++ (t ++ s')) = encode s ++ (encode t ++ encode s') := by
  cases t with
  | nil => exact absurd rfl ht
  | cons u t =>
      rw [cons_append, encode_append_cons (h u mem_cons_self), ← cons_append,
        encode_append_left h]

/-! ## What is ASCII -/

inductive Mirrors : List UInt16 → List UInt8 → Prop
  | nil : Mirrors [] []
  | ascii {u : UInt16} {b : UInt8} {s : List UInt16} {bytes : List UInt8} :
      b.toNat = u.toNat → Mirrors s bytes → Mirrors (u :: s) (b :: bytes)
  | other {t s : List UInt16} {block bytes : List UInt8} :
      t ≠ [] → (∀ u ∈ t, 128 ≤ u.toNat) → block ≠ [] → (∀ b ∈ block, 128 ≤ b.toNat) →
        Mirrors s bytes → Mirrors (t ++ s) (block ++ bytes)

section Encode

variable {u v : UInt16}

theorem toNat_single (h : isSurrogate u = false) : (single u).toNat = u.toNat := by
  have hlt := u.toNat_lt
  simp only [isSurrogate, isHigh, isLow, Bool.or_eq_false_iff, decide_eq_false_iff_not] at h
  rw [single, if_neg]
  · refine Utf16.toNat_ofNat ?_
    rw [Nat.isValidChar]
    omega
  · simp only [isSurrogate, isHigh, isLow, Bool.or_eq_true, decide_eq_true_iff]
    omega

theorem le_toNat_of_isSurrogate (h : isSurrogate u = true) : 0xD800 ≤ u.toNat := by
  simp only [isSurrogate, isHigh, isLow, Bool.or_eq_true, decide_eq_true_iff] at h
  omega

theorem isSurrogate_of_lt (h : u.toNat < 128) : isSurrogate u = false := by
  rw [← Bool.not_eq_true]
  intro hu
  have := le_toNat_of_isSurrogate hu
  omega

theorem le_toNat_single (h : 128 ≤ u.toNat) : 128 ≤ (single u).toNat := by
  cases hu : isSurrogate u with
  | false =>
      rw [toNat_single hu]
      exact h
  | true =>
      rw [single, if_pos hu]
      decide

theorem le_toNat_scalar (hu : isHigh u = true) (hv : isLow v = true) :
    128 ≤ (Char.ofNat (scalar u v)).toNat := by
  obtain ⟨hle, hlt⟩ := Utf16.scalar_lt hu hv
  have hvalid : (scalar u v).isValidChar := by
    rw [Nat.isValidChar]
    omega
  rw [Utf16.toNat_ofNat hvalid]
  omega

/-- One unit that is not part of a pair. -/
theorem Mirrors.single {s : List UInt16} {bytes : List UInt8} (h : Mirrors s bytes) :
    Mirrors (u :: s) (String.utf8EncodeChar (Utf16.single u) ++ bytes) := by
  rcases Nat.lt_or_ge u.toNat 128 with hlt | hge
  · have hnat := toNat_single (isSurrogate_of_lt hlt)
    rw [Utf8.utf8EncodeChar_ascii (hnat ▸ hlt), hnat]
    exact .ascii (UInt8.toNat_ofNat_of_lt' (hlt.trans (by decide))) h
  · have hblock : ∀ b ∈ String.utf8EncodeChar (Utf16.single u), 128 ≤ b.toNat := fun b hb =>
      Utf8.le_of_mem_utf8EncodeChar (le_toNat_single hge) hb
    exact .other (cons_ne_nil u []) (forall_mem_singleton.mpr hge)
      (Utf8.utf8EncodeChar_ne_nil _) hblock h

theorem mirrors_encode (s : List UInt16) : Mirrors s (encode s) := by
  induction s using Utf16.decodeLossy.induct with
  | case1 => exact .nil
  | case2 u =>
      rw [encode, decodeLossy, flatMap_cons]
      exact Mirrors.nil.single
  | case3 u v s hpair ih =>
      obtain ⟨hu, hv⟩ := Bool.and_eq_true_iff.mp hpair
      have hunits : ∀ w ∈ [u, v], 128 ≤ w.toNat := by
        rw [isHigh, decide_eq_true_iff] at hu
        rw [isLow, decide_eq_true_iff] at hv
        intro w hw
        rcases mem_cons.mp hw with rfl | hw
        · omega
        · rw [mem_singleton.mp hw]
          omega
      have hblock : ∀ b ∈ String.utf8EncodeChar (Char.ofNat (scalar u v)), 128 ≤ b.toNat :=
        fun b hb => Utf8.le_of_mem_utf8EncodeChar (le_toNat_scalar hu hv) hb
      rw [encode, decodeLossy, if_pos hpair, flatMap_cons]
      exact .other (cons_ne_nil u [v]) hunits (Utf8.utf8EncodeChar_ne_nil _) hblock ih
  | case4 u v s hpair ih =>
      rw [encode, decodeLossy, if_neg hpair, flatMap_cons]
      exact ih.single

end Encode

/-- Characters that are ASCII, one unit and one byte each. -/
theorem encode_ascii {chars : List Char} (h : ∀ c ∈ chars, c.toNat < 128) :
    (∀ u ∈ chars.map fun c => UInt16.ofNat c.toNat, isSurrogate u = false) ∧
      encode (chars.map fun c => UInt16.ofNat c.toNat) =
        chars.map fun c => UInt8.ofNat c.toNat := by
  induction chars with
  | nil => exact ⟨fun u hu => absurd hu not_mem_nil, rfl⟩
  | cons c chars ih =>
      obtain ⟨hc, hchars⟩ := forall_mem_cons.mp h
      obtain ⟨hplain, hencode⟩ := ih hchars
      have hnat : (UInt16.ofNat c.toNat).toNat = c.toNat :=
        UInt16.toNat_ofNat_of_lt' (hc.trans (by decide))
      have hu : isSurrogate (UInt16.ofNat c.toNat) = false := isSurrogate_of_lt (hnat.trans_lt hc)
      have hsingle : (single (UInt16.ofNat c.toNat)).toNat = c.toNat := (toNat_single hu).trans hnat
      refine ⟨forall_mem_cons.mpr ⟨hu, hplain⟩, ?_⟩
      rw [map_cons, map_cons, encode, Utf16.decodeLossy_cons hu, flatMap_cons,
        Utf8.utf8EncodeChar_ascii (hsingle.trans_lt hc), hsingle]
      exact congrArg (UInt8.ofNat c.toNat :: ·) hencode

namespace Mirrors

variable {s s' : List UInt16} {bytes bytes' : List UInt8} {u : UInt16} {b : UInt8}

theorem append (h : Mirrors s bytes) (h' : Mirrors s' bytes') :
    Mirrors (s ++ s') (bytes ++ bytes') := by
  induction h with
  | nil => exact h'
  | ascii hnat _ ih => exact .ascii hnat ih
  | other ht htunits hblock hbytes _ ih =>
      rw [append_assoc, append_assoc]
      exact .other ht htunits hblock hbytes ih

theorem reverse (h : Mirrors s bytes) : Mirrors s.reverse bytes.reverse := by
  induction h with
  | nil => exact .nil
  | ascii hnat _ ih =>
      rw [reverse_cons, reverse_cons]
      exact ih.append (.ascii hnat .nil)
  | @other t _ block _ ht htunits hblock hbytes _ ih =>
      have hother : Mirrors (t.reverse ++ []) (block.reverse ++ []) :=
        .other (reverse_ne_nil_iff.mpr ht) (fun u hu => htunits u (mem_reverse.mp hu))
          (reverse_ne_nil_iff.mpr hblock) (fun b hb => hbytes b (mem_reverse.mp hb)) .nil
      rw [append_nil, append_nil] at hother
      rw [reverse_append, reverse_append]
      exact ih.append hother

/-- An ASCII character is on both sides or on none. -/
theorem mem_iff (h : Mirrors s bytes) (hb : b.toNat = u.toNat) (hlt : u.toNat < 128) :
    b ∈ bytes ↔ u ∈ s := by
  induction h with
  | nil => exact iff_of_false not_mem_nil not_mem_nil
  | @ascii u' b' _ _ hnat _ ih =>
      have heq : b = b' ↔ u = u' := by
        rw [← UInt8.toNat_inj, ← UInt16.toNat_inj, hb, hnat]
      rw [mem_cons, mem_cons, heq, ih]
  | @other t _ block _ _ htunits _ hbytes _ ih =>
      have hu : u ∉ t := fun hu => absurd (htunits u hu) (Nat.not_le.mpr hlt)
      have hb' : b ∉ block := fun hmem => absurd (hb ▸ hbytes b hmem) (Nat.not_le.mpr hlt)
      rw [mem_append, mem_append, or_iff_right hu, or_iff_right hb', ih]

/-- An ASCII character comes first on both sides or on none. -/
theorem head?_iff (h : Mirrors s bytes) (hb : b.toNat = u.toNat) (hlt : u.toNat < 128) :
    bytes.head? = some b ↔ s.head? = some u := by
  cases h with
  | nil => exact iff_of_false (some_ne_none b).symm (some_ne_none u).symm
  | @ascii u' b' _ _ hnat _ =>
      rw [head?_cons, head?_cons, some_inj, some_inj, ← UInt8.toNat_inj,
        ← UInt16.toNat_inj, hb, hnat]
  | other ht htunits hblock hbytes _ =>
      obtain ⟨v, t, rfl⟩ := exists_cons_of_ne_nil ht
      obtain ⟨c, block, rfl⟩ := exists_cons_of_ne_nil hblock
      refine iff_of_false (fun hc => ?_) (fun hv => ?_)
      · have := hbytes c mem_cons_self
        rw [Option.some.inj hc, hb] at this
        omega
      · have := htunits v mem_cons_self
        rw [Option.some.inj hv] at this
        omega

theorem getLast?_iff (h : Mirrors s bytes) (hb : b.toNat = u.toNat) (hlt : u.toNat < 128) :
    bytes.getLast? = some b ↔ s.getLast? = some u := by
  rw [← head?_reverse, ← head?_reverse]
  exact h.reverse.head?_iff hb hlt

end Mirrors

end OpenWorkers.Text
