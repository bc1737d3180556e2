import Mathlib.Data.Set.Function

/-!
# Strings of UTF-16 code units

A string of JavaScript is any list of 16 bit units.  `decodeLossy` reads it as Unicode: a high
surrogate and the low one after it are one character, any other surrogate becomes U+FFFD.  So
different strings can decode to one; those without a lone surrogate cannot, because `encode`
gives their units back.
-/

namespace OpenWorkers.Utf16

open List

def isHigh (u : UInt16) : Bool := decide (0xD800 ≤ u.toNat ∧ u.toNat < 0xDC00)

def isLow (u : UInt16) : Bool := decide (0xDC00 ≤ u.toNat ∧ u.toNat < 0xE000)

def isSurrogate (u : UInt16) : Bool := isHigh u || isLow u

/-- A unit that is not part of a pair. -/
def single (u : UInt16) : Char := if isSurrogate u then Char.ofNat 0xFFFD else Char.ofNat u.toNat

/-- The scalar value of a surrogate pair. -/
def scalar (u v : UInt16) : Nat := 0x10000 + (u.toNat - 0xD800) * 0x400 + (v.toNat - 0xDC00)

def decodeLossy : List UInt16 → List Char
  | [] => []
  | [u] => [single u]
  | u :: v :: units =>
      if isHigh u && isLow v then Char.ofNat (scalar u v) :: decodeLossy units
      else single u :: decodeLossy (v :: units)

/-- Every surrogate is part of a pair. -/
def wellFormed : List UInt16 → Bool
  | [] => true
  | [u] => !isSurrogate u
  | u :: v :: units =>
      if isHigh u && isLow v then wellFormed units
      else !isSurrogate u && wellFormed (v :: units)

/-- The units of a character. -/
def encode (c : Char) : List UInt16 :=
  if c.toNat < 0x10000 then [UInt16.ofNat c.toNat]
  else [UInt16.ofNat (0xD800 + (c.toNat - 0x10000) / 0x400),
    UInt16.ofNat (0xDC00 + (c.toNat - 0x10000) % 0x400)]

theorem toNat_ofNat {n : Nat} (h : n.isValidChar) : (Char.ofNat n).toNat = n := by
  rw [Char.ofNat, dif_pos h]
  rfl

theorem encode_single {u : UInt16} (h : isSurrogate u = false) : encode (single u) = [u] := by
  have hlt := u.toNat_lt
  have hvalid : u.toNat.isValidChar := by
    simp only [isSurrogate, isHigh, isLow, Bool.or_eq_false_iff, decide_eq_false_iff_not] at h
    rw [Nat.isValidChar]
    omega
  rw [single, h, if_neg Bool.false_ne_true, encode, toNat_ofNat hvalid, if_pos hlt,
    UInt16.ofNat_toNat]

theorem scalar_lt {u v : UInt16} (hu : isHigh u = true) (hv : isLow v = true) :
    0x10000 ≤ scalar u v ∧ scalar u v < 0x110000 := by
  rw [isHigh, decide_eq_true_iff] at hu
  rw [isLow, decide_eq_true_iff] at hv
  unfold scalar
  omega

theorem encode_scalar {u v : UInt16} (hu : isHigh u = true) (hv : isLow v = true) :
    encode (Char.ofNat (scalar u v)) = [u, v] := by
  obtain ⟨hle, hlt⟩ := scalar_lt hu hv
  have hvalid : (scalar u v).isValidChar := by
    rw [Nat.isValidChar]
    omega
  rw [encode, toNat_ofNat hvalid, if_neg (Nat.not_lt.mpr hle)]
  rw [isHigh, decide_eq_true_iff] at hu
  rw [isLow, decide_eq_true_iff] at hv
  have hhigh : 0xD800 + (scalar u v - 0x10000) / 0x400 = u.toNat := by
    unfold scalar
    omega
  have hlow : 0xDC00 + (scalar u v - 0x10000) % 0x400 = v.toNat := by
    unfold scalar
    omega
  rw [hhigh, hlow, UInt16.ofNat_toNat, UInt16.ofNat_toNat]

/-- A string without lone surrogates is what its characters encode to. -/
theorem flatMap_encode_decodeLossy {units : List UInt16} (h : wellFormed units = true) :
    (decodeLossy units).flatMap encode = units := by
  induction units using decodeLossy.induct with
  | case1 => rfl
  | case2 u =>
      rw [wellFormed, Bool.not_eq_true'] at h
      rw [decodeLossy, flatMap_singleton, encode_single h]
  | case3 u v units hpair ih =>
      rw [wellFormed, if_pos hpair] at h
      obtain ⟨hu, hv⟩ := Bool.and_eq_true_iff.mp hpair
      rw [decodeLossy, if_pos hpair, flatMap_cons, encode_scalar hu hv, ih h]
      rfl
  | case4 u v units hpair ih =>
      rw [wellFormed, if_neg hpair, Bool.and_eq_true_iff, Bool.not_eq_true'] at h
      rw [decodeLossy, if_neg hpair, flatMap_cons, encode_single h.1, ih h.2]
      rfl

theorem isHigh_eq_false {u : UInt16} (h : isSurrogate u = false) : isHigh u = false :=
  (Bool.or_eq_false_iff.mp h).1

theorem isLow_eq_false {u : UInt16} (h : isSurrogate u = false) : isLow u = false :=
  (Bool.or_eq_false_iff.mp h).2

theorem decodeLossy_cons {u : UInt16} (h : isSurrogate u = false) (units : List UInt16) :
    decodeLossy (u :: units) = single u :: decodeLossy units := by
  cases units with
  | nil => rfl
  | cons v units =>
      rw [decodeLossy, isHigh_eq_false h, Bool.false_and, if_neg Bool.false_ne_true]

/-- A unit that is no surrogate parts what is before it from what is after it. -/
theorem decodeLossy_append_cons {u : UInt16} (h : isSurrogate u = false)
    (units units' : List UInt16) :
    decodeLossy (units ++ u :: units') = decodeLossy units ++ decodeLossy (u :: units') := by
  induction units using decodeLossy.induct with
  | case1 => rfl
  | case2 v =>
      have hpair : ¬ (isHigh v && isLow u) = true := by
        rw [isLow_eq_false h, Bool.and_false]
        exact Bool.false_ne_true
      exact if_neg hpair
  | case3 v w units hpair ih =>
      rw [cons_append, cons_append, decodeLossy, if_pos hpair, ih, decodeLossy,
        if_pos hpair, cons_append]
  | case4 v w units hpair ih =>
      rw [cons_append, cons_append, decodeLossy, if_neg hpair, ← cons_append, ih,
        decodeLossy, if_neg hpair, cons_append]

theorem decodeLossy_append_left {units : List UInt16} (h : ∀ u ∈ units, isSurrogate u = false)
    (units' : List UInt16) :
    decodeLossy (units ++ units') = decodeLossy units ++ decodeLossy units' := by
  induction units with
  | nil => rfl
  | cons u units ih =>
      obtain ⟨hu, hunits⟩ := forall_mem_cons.mp h
      rw [cons_append, decodeLossy_cons hu, decodeLossy_cons hu, ih hunits, cons_append]

/-! ## Characters as units -/

theorem encode_cases (c : Char) :
    (∃ u, encode c = [u] ∧ isSurrogate u = false ∧ single u = c) ∨
      ∃ u v, encode c = [u, v] ∧ isHigh u = true ∧ isLow v = true ∧
        Char.ofNat (scalar u v) = c := by
  have hvalid : c.toNat < 0xD800 ∨ 0xDFFF < c.toNat ∧ c.toNat < 0x110000 := c.valid
  unfold encode
  split
  · next hlt =>
      have hnat : (UInt16.ofNat c.toNat).toNat = c.toNat := UInt16.toNat_ofNat_of_lt' hlt
      have hplain : isSurrogate (UInt16.ofNat c.toNat) = false := by
        simp only [isSurrogate, isHigh, isLow, hnat, Bool.or_eq_false_iff, decide_eq_false_iff_not]
        omega
      refine .inl ⟨_, rfl, hplain, ?_⟩
      rw [single, hplain, if_neg Bool.false_ne_true, hnat]
      exact Char.ofNat_toNat c
  · next hge =>
      have hhigh : (UInt16.ofNat (0xD800 + (c.toNat - 0x10000) / 0x400)).toNat =
          0xD800 + (c.toNat - 0x10000) / 0x400 := by
        refine UInt16.toNat_ofNat_of_lt' ?_
        rw [UInt16.size]
        omega
      have hlow : (UInt16.ofNat (0xDC00 + (c.toNat - 0x10000) % 0x400)).toNat =
          0xDC00 + (c.toNat - 0x10000) % 0x400 := by
        refine UInt16.toNat_ofNat_of_lt' ?_
        rw [UInt16.size]
        omega
      have hscalar : scalar (UInt16.ofNat (0xD800 + (c.toNat - 0x10000) / 0x400))
          (UInt16.ofNat (0xDC00 + (c.toNat - 0x10000) % 0x400)) = c.toNat := by
        unfold scalar
        rw [hhigh, hlow]
        omega
      refine .inr ⟨_, _, rfl, ?_, ?_, ?_⟩
      · rw [isHigh, hhigh, decide_eq_true_iff]
        omega
      · rw [isLow, hlow, decide_eq_true_iff]
        omega
      · rw [hscalar]
        exact Char.ofNat_toNat c

/-- The units of some characters decode to those characters, with no surrogate alone. -/
theorem decodeLossy_flatMap_encode (chars : List Char) :
    decodeLossy (chars.flatMap encode) = chars ∧ wellFormed (chars.flatMap encode) = true := by
  induction chars with
  | nil => exact ⟨rfl, rfl⟩
  | cons c chars ih =>
      rw [flatMap_cons]
      rcases encode_cases c with ⟨u, hencode, hu, hc⟩ | ⟨u, v, hencode, hu, hv, hc⟩
      · rw [hencode, singleton_append]
        refine ⟨by rw [decodeLossy_cons hu, hc, ih.1], ?_⟩
        cases hunits : chars.flatMap encode with
        | nil => rw [wellFormed, hu, Bool.not_false]
        | cons w units =>
            rw [wellFormed, isHigh_eq_false hu, Bool.false_and, if_neg Bool.false_ne_true, hu,
              ← hunits, ih.2]
            rfl
      · have hpair : (isHigh u && isLow v) = true := by rw [hu, hv, Bool.and_self]
        rw [hencode, cons_append, singleton_append, decodeLossy, if_pos hpair, wellFormed,
          if_pos hpair, hc, ih.1]
        exact ⟨rfl, ih.2⟩

end OpenWorkers.Utf16
