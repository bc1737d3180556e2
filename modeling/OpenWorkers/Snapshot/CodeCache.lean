import OpenWorkers.Lib.Utf8

/-!
# Code cache bundles

`pack_code_cache`, `unpack_code_cache` and `is_code_cache` of `src/snapshot.rs`.

A bundle is a magic number, the length of the source, the source and the code cache that V8
has made of it.  What Rust code may panic on is an error here: an index that is out of bounds,
an `unwrap`, an addition that overflows.
-/

namespace OpenWorkers.Snapshot

open List

inductive Panic where
  | index
  | unwrap
  | overflow
deriving DecidableEq, Repr

/-! ## Slices and words -/

/-- `&data[start..stop]`. -/
def slice (data : List UInt8) (start stop : Nat) : Except Panic (List UInt8) :=
  if start ≤ stop ∧ stop ≤ data.length then .ok ((data.take stop).drop start) else .error .index

def unwrap {α : Type} : Option α → Except Panic α
  | some a => .ok a
  | none => .error .unwrap

/-- An addition of `usize`. -/
def addUsize (a b : Nat) : Except Panic Nat :=
  if a + b < UInt64.size then .ok (a + b) else .error .overflow

/-- `[u8; 4]`. -/
abbrev U32Bytes := UInt8 × UInt8 × UInt8 × UInt8

/-- `try_into`, from a slice to `[u8; 4]`. -/
def tryInto : List UInt8 → Option U32Bytes
  | [a, b, c, d] => some (a, b, c, d)
  | _ => none

/-- `u32::from_le_bytes`. -/
def fromLeBytes : U32Bytes → UInt32
  | (a, b, c, d) =>
    .ofNat (a.toNat + 256 * b.toNat + 65536 * c.toNat + 16777216 * d.toNat)

/-- `u32::to_le_bytes`. -/
def toLeBytes (x : UInt32) : List UInt8 :=
  [.ofNat x.toNat, .ofNat (x.toNat / 256), .ofNat (x.toNat / 65536), .ofNat (x.toNat / 16777216)]

theorem toNat_fromLeBytes (a b c d : UInt8) :
    (fromLeBytes (a, b, c, d)).toNat =
      a.toNat + 256 * b.toNat + 65536 * c.toNat + 16777216 * d.toNat := by
  have ha := a.toNat_lt
  have hb := b.toNat_lt
  have hc := c.toNat_lt
  have hd := d.toNat_lt
  refine UInt32.toNat_ofNat_of_lt' ?_
  rw [UInt32.size]
  omega

theorem toLeBytes_fromLeBytes (a b c d : UInt8) :
    toLeBytes (fromLeBytes (a, b, c, d)) = [a, b, c, d] := by
  have ha := a.toNat_lt
  have hb := b.toNat_lt
  have hc := c.toNat_lt
  have hd := d.toNat_lt
  have key : ∀ (n : Nat) (x : UInt8), n % 256 = x.toNat → UInt8.ofNat n = x := by
    intro n x h
    rw [← UInt8.toNat_inj, UInt8.toNat_ofNat']
    exact h
  rw [toLeBytes, toNat_fromLeBytes]
  refine congrArg₂ _ (key _ a ?_) (congrArg₂ _ (key _ b ?_)
    (congrArg₂ _ (key _ c ?_) (congrArg₂ _ (key _ d ?_) rfl))) <;> omega

theorem tryInto_toLeBytes (x : UInt32) :
    ∃ bytes, tryInto (toLeBytes x) = some bytes ∧ fromLeBytes bytes = x := by
  refine ⟨_, rfl, ?_⟩
  rw [← UInt32.toNat_inj, toNat_fromLeBytes]
  simp only [UInt8.toNat_ofNat']
  have := x.toNat_lt
  omega

theorem length_toLeBytes (x : UInt32) : (toLeBytes x).length = 4 := rfl

/-! ## The bundle -/

def codeCacheMagic : UInt32 := 0xC0DECA5E

def packCodeCache (source : String) (cache : List UInt8) : List UInt8 :=
  let sourceBytes := Utf8.asBytes source
  -- `as u32` keeps the low bits
  let sourceLen := UInt32.ofNat sourceBytes.length
  toLeBytes codeCacheMagic ++ toLeBytes sourceLen ++ sourceBytes ++ cache

def isCodeCache (data : List UInt8) : Except Panic Bool :=
  if data.length < 8 then .ok false
  else do
    let magic ← unwrap (tryInto (← slice data 0 4))
    return fromLeBytes magic = codeCacheMagic

def unpackCodeCache (data : List UInt8) : Except Panic (Option (String × List UInt8)) := do
  if !(← isCodeCache data) then return none
  match tryInto (← slice data 4 8) with
  | none => return none
  | some bytes =>
    let sourceLen := (fromLeBytes bytes).toNat
    let sourceEnd ← addUsize 8 sourceLen
    if data.length < sourceEnd then return none
    match Utf8.fromBytes (← slice data 8 sourceEnd) with
    | none => return none
    | some source =>
      let cache ← slice data sourceEnd data.length
      return some (source, cache)

/-! ## What is read -/

theorem slice_append {data mid : List UInt8} (left right : List UInt8) {start stop : Nat}
    (hdata : data = left ++ mid ++ right) (hstart : start = left.length)
    (hstop : stop = left.length + mid.length) : slice data start stop = .ok mid := by
  subst hdata hstart hstop
  have htake : (left ++ mid ++ right).take (left.length + mid.length) = left ++ mid := by
    rw [← length_append, take_left]
  rw [slice, if_pos, htake, drop_left]
  rw [length_append, length_append]
  exact ⟨Nat.le_add_right _ _, Nat.le_add_right _ _⟩

/-- A buffer that is too short for a header. -/
theorem unpackCodeCache_of_short {data : List UInt8} (h : data.length < 8) :
    unpackCodeCache data = .ok none := by
  have hmagic : isCodeCache data = .ok false := if_pos h
  rw [unpackCodeCache, hmagic]
  rfl

/-- Any longer buffer is two words and the rest. -/
theorem exists_words {data : List UInt8} (h : 8 ≤ data.length) :
    ∃ magic length rest, data = toLeBytes magic ++ toLeBytes length ++ rest := by
  match data with
  | a :: b :: c :: d :: e :: f :: g :: h :: rest =>
      refine ⟨fromLeBytes (a, b, c, d), fromLeBytes (e, f, g, h), rest, ?_⟩
      rw [toLeBytes_fromLeBytes, toLeBytes_fromLeBytes]
      rfl

section Words

variable (magic length : UInt32) (rest : List UInt8)

theorem length_words : (toLeBytes magic ++ toLeBytes length ++ rest).length = 8 + rest.length := by
  simp only [length_append, length_toLeBytes]

theorem isCodeCache_words :
    isCodeCache (toLeBytes magic ++ toLeBytes length ++ rest) =
      .ok (decide (magic = codeCacheMagic)) := by
  obtain ⟨bytes, hbytes, hmagic⟩ := tryInto_toLeBytes magic
  have hslice : slice (toLeBytes magic ++ toLeBytes length ++ rest) 0 4 = .ok (toLeBytes magic) :=
    slice_append [] (toLeBytes length ++ rest) (append_assoc _ _ _) rfl rfl
  have hlong : ¬ (toLeBytes magic ++ toLeBytes length ++ rest).length < 8 := by
    rw [length_words]
    omega
  rw [isCodeCache, if_neg hlong, hslice]
  change (do
    let magic ← unwrap (tryInto (toLeBytes magic))
    return decide (fromLeBytes magic = codeCacheMagic)) = _
  rw [hbytes]
  change Except.ok (decide (fromLeBytes bytes = codeCacheMagic)) = _
  rw [hmagic]

variable {length rest} (h : length.toNat ≤ rest.length)
include h

theorem slice_source :
    slice (toLeBytes magic ++ toLeBytes length ++ rest) 8 (8 + length.toNat) =
      .ok (rest.take length.toNat) := by
  refine slice_append (toLeBytes magic ++ toLeBytes length) (rest.drop length.toNat) ?_ rfl ?_
  · rw [append_assoc _ (rest.take _), take_append_drop]
  · rw [length_take_of_le h]
    rfl

theorem slice_cache :
    slice (toLeBytes magic ++ toLeBytes length ++ rest) (8 + length.toNat) (8 + rest.length) =
      .ok (rest.drop length.toNat) := by
  refine slice_append (toLeBytes magic ++ toLeBytes length ++ rest.take length.toNat) [] ?_ ?_ ?_
  · rw [append_nil, append_assoc _ (rest.take _), take_append_drop]
  · rw [length_words, length_take_of_le h]
  · rw [length_words, length_take_of_le h, length_drop]
    omega

end Words

/-- **What is read.**  The second word says where the source ends; the source must be there, and
be UTF-8. -/
theorem unpackCodeCache_words (magic length : UInt32) (rest : List UInt8) :
    unpackCodeCache (toLeBytes magic ++ toLeBytes length ++ rest) =
      .ok (if magic = codeCacheMagic ∧ length.toNat ≤ rest.length then
        (Utf8.fromBytes (rest.take length.toNat)).map (·, rest.drop length.toNat) else none) := by
  obtain ⟨bytes, hbytes, hlength⟩ := tryInto_toLeBytes length
  have hslice : slice (toLeBytes magic ++ toLeBytes length ++ rest) 4 8 = .ok (toLeBytes length) :=
    slice_append _ _ rfl rfl rfl
  have hadd : addUsize 8 length.toNat = .ok (8 + length.toNat) := by
    have := length.toNat_lt
    refine if_pos ?_
    rw [UInt64.size]
    omega
  simp only [unpackCodeCache, isCodeCache_words, hslice, hbytes, hlength, hadd, length_words, bind,
    Except.bind, pure, Except.pure]
  by_cases hmagic : magic = codeCacheMagic
  · by_cases hle : length.toNat ≤ rest.length
    · rw [if_neg (by simp [hmagic]), if_neg (by omega), slice_source magic hle,
        if_pos ⟨hmagic, hle⟩]
      cases hutf : Utf8.fromBytes (rest.take length.toNat) with
      | none => simp only [hutf, Option.map_none]
      | some source => simp only [hutf, slice_cache magic hle, Option.map_some]
    · rw [if_neg (by simp [hmagic]), if_pos (by omega), if_neg (fun h => hle h.2)]
  · rw [if_pos (by simp [hmagic]), if_neg (fun h => hmagic h.1)]

/-! ## Bundles -/

theorem packCodeCache_eq (source : String) (cache : List UInt8) :
    packCodeCache source cache =
      toLeBytes codeCacheMagic ++ toLeBytes (.ofNat (Utf8.asBytes source).length) ++
        (Utf8.asBytes source ++ cache) :=
  append_assoc _ _ _

theorem unpackCodeCache_packCodeCache {source : String} (cache : List UInt8)
    (h : (Utf8.asBytes source).length < UInt32.size) :
    unpackCodeCache (packCodeCache source cache) = .ok (some (source, cache)) := by
  rw [packCodeCache_eq, unpackCodeCache_words, UInt32.toNat_ofNat_of_lt' h, take_left,
    drop_left, Utf8.fromBytes_asBytes, length_append, if_pos ⟨rfl, Nat.le_add_right _ _⟩]
  rfl

/-- What is accepted is a bundle, of what was read. -/
theorem eq_packCodeCache {data : List UInt8} {source : String} {cache : List UInt8}
    (h : unpackCodeCache data = .ok (some (source, cache))) :
    data = packCodeCache source cache ∧ (Utf8.asBytes source).length < UInt32.size := by
  by_cases hlong : data.length < 8
  · rw [unpackCodeCache_of_short hlong] at h
    cases h
  obtain ⟨magic, length, rest, rfl⟩ := exists_words (Nat.not_lt.mp hlong)
  rw [unpackCodeCache_words] at h
  split at h
  · next hfits =>
      obtain ⟨rfl, hle⟩ := hfits
      obtain ⟨source', hutf, heq⟩ := Option.map_eq_some_iff.mp (Except.ok.inj h)
      cases heq
      have hbytes := Utf8.fromBytes_eq_some.mp hutf
      have hlen : (Utf8.asBytes source).length = length.toNat := by
        rw [← hbytes, length_take_of_le hle]
      refine ⟨?_, hlen ▸ length.toNat_lt⟩
      rw [packCodeCache_eq, hlen, UInt32.ofNat_toNat, ← hbytes, take_append_drop]
  · cases h

theorem unpackCodeCache_total (data : List UInt8) :
    ∃ answer, unpackCodeCache data = .ok answer := by
  by_cases hlong : data.length < 8
  · exact ⟨_, unpackCodeCache_of_short hlong⟩
  · obtain ⟨magic, length, rest, rfl⟩ := exists_words (Nat.not_lt.mp hlong)
    exact ⟨_, unpackCodeCache_words magic length rest⟩

/-- **Code cache bundles are read exactly as written.**  A bundle of a source whose length fits
into its word is read as what was packed; no buffer makes the reader panic or read past the
end; what is accepted is the bundle of what was read.  So such bundles are different if what is
in them is, and are exactly what is accepted. -/
theorem code_cache_bundles :
    (∀ source cache, (Utf8.asBytes source).length < UInt32.size →
      unpackCodeCache (packCodeCache source cache) = .ok (some (source, cache))) ∧
    (∀ data, ∃ answer, unpackCodeCache data = .ok answer ∧
      ∀ source cache, answer = some (source, cache) → data = packCodeCache source cache) ∧
    (∀ source source' cache cache', (Utf8.asBytes source).length < UInt32.size →
      (Utf8.asBytes source').length < UInt32.size →
      packCodeCache source cache = packCodeCache source' cache' →
      source = source' ∧ cache = cache') ∧
    (∀ data, (∃ bundle, unpackCodeCache data = .ok (some bundle)) ↔
      ∃ source cache, (Utf8.asBytes source).length < UInt32.size ∧
        data = packCodeCache source cache) := by
  refine ⟨fun _ cache h => unpackCodeCache_packCodeCache cache h, ?_, ?_, ?_⟩
  · intro data
    obtain ⟨answer, hanswer⟩ := unpackCodeCache_total data
    refine ⟨answer, hanswer, ?_⟩
    rintro source cache rfl
    exact (eq_packCodeCache hanswer).1
  · intro source source' cache cache' h h' heq
    have hread := unpackCodeCache_packCodeCache cache h
    rw [heq, unpackCodeCache_packCodeCache cache' h'] at hread
    cases hread
    exact ⟨rfl, rfl⟩
  · intro data
    constructor
    · rintro ⟨⟨source, cache⟩, h⟩
      exact ⟨source, cache, (eq_packCodeCache h).2, (eq_packCodeCache h).1⟩
    · rintro ⟨source, cache, h, rfl⟩
      exact ⟨_, unpackCodeCache_packCodeCache cache h⟩

theorem code_cache_bundles_hi :
    packCodeCache "hi" [1, 2] = [0x5E, 0xCA, 0xDE, 0xC0, 2, 0, 0, 0, 104, 105, 1, 2] ∧
    unpackCodeCache [0x5E, 0xCA, 0xDE, 0xC0, 2, 0, 0, 0, 104, 105, 1, 2] =
      .ok (some ("hi", [1, 2])) := by
  have hpack : packCodeCache "hi" [1, 2] =
      [0x5E, 0xCA, 0xDE, 0xC0, 2, 0, 0, 0, 104, 105, 1, 2] := by decide
  refine ⟨hpack, ?_⟩
  rw [← hpack]
  exact code_cache_bundles.1 "hi" [1, 2] (by decide)

end OpenWorkers.Snapshot
