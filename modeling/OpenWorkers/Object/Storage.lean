import OpenWorkers.Lib.Fallible
import OpenWorkers.Lib.InsertionMap
import OpenWorkers.Lib.Utf16
import OpenWorkers.Object.Queue

/-!
# The storage of a Durable Object, as its guest calls it

`get`, `put` and `delete` of the `storage` object of `src/js/durable_object.js`, with
`parse_storage_op` of `src/runtime/bindings/durable_object.rs`, which makes the op of the host:
the keys of a guest are strings of UTF-16 units and go through `to_rust_string_lossy`, its values
are serialized one after the other, and one that cannot be cloned sends no op at all.

A value of the guest is an `Option Value`, where `none` is `undefined`.  What V8 and
`structuredClone`, which is not part of the repository, make of values is a `StructuredClone`.
Nothing is assumed of it here; what the guest can tell of a value is a `view`.

The host is not part of the repository.  `Content` is what its storage does with the ops of an
object, which run one at a time: a read sees the writes before it, and a write is atomic.
-/

namespace OpenWorkers.Object

open List Option Function

abbrev Bytes := List UInt8

/-- A key, as the guest has it. -/
abbrev Key := List UInt16

/-- The structured clone format of V8, and `structuredClone`. -/
structure StructuredClone (Value : Type) where
  /-- The bytes of a value, or the message of a `DataCloneError`. -/
  serialize : Option Value → Except String Bytes
  /-- The value in the bytes, `undefined` for bytes that do not read back. -/
  deserialize : Bytes → Option Value
  /-- The copy of a value, or the message of a `DataCloneError`. -/
  clone : Option Value → Except String (Option Value)

variable {Value View : Type} (c : StructuredClone Value)

/-- `to_rust_string_lossy`. -/
def toRustStringLossy (key : Key) : String := String.ofList (Utf16.decodeLossy key)

/-! ## The ops -/

def keyOf : Option Key → Except String Key
  | some key => .ok key
  | none => .error "Durable Object storage: a key is a string"

/-- The `puts` of a write: the first value that cannot be cloned throws. -/
def parsePuts (entries : List (Key × Option Value)) : Except String (List (String × Bytes)) :=
  entries.mapM fun entry => (c.serialize entry.2).map (toRustStringLossy entry.1, ·)

/-- `parse_storage_op` of `write({ puts, deletes })`. -/
def parseWrite (puts : List (Key × Option Value)) (deletes : List Key) :
    Except String ObjectStorageOp :=
  (parsePuts c puts).map (.write · (deletes.map toRustStringLossy) false)

/-! ## The host -/

/-- What the storage of an object holds. -/
abbrev Content := String → Option Bytes

namespace Content

variable (content : Content)

def put (entry : String × Bytes) : Content := update content entry.1 (some entry.2)

def delete (key : String) : Content := update content key none

/-- A write takes effect as a whole: the deletes, then the puts. -/
def apply : ObjectStorageOp → Content
  | .write puts deletes deleteAll =>
      puts.foldl put (deletes.foldl delete (if deleteAll then fun _ => none else content))
  | _ => content

/-- What the guest can read of it. -/
def view (view : Value → View) (name : String) : Option (Option View) :=
  (content name).map fun bytes => (c.deserialize bytes).map view

end Content

/-! ## `storage` -/

namespace Storage

variable (content : Content)

/-- The value that a read of the key gets. -/
def read (key : Key) : Option Value := (content (toRustStringLossy key)).bind c.deserialize

def get (key : Option Key) : Except String (Option Value) :=
  (keyOf key).map (read c content)

/-- A value that is not `undefined` goes into the result. -/
def collect (value : Key → Option Value) (found : InsertionMap Key Value) (key : Key) :
    InsertionMap Key Value :=
  match value key with
  | some v => found.set key v
  | none => found

/-- `get` of a list of keys. -/
def getMany (keys : List (Option Key)) : Except String (InsertionMap Key Value) :=
  (keys.mapM keyOf).map fun keys => keys.foldl (collect (read c content)) .empty

/-- `put`: the op that is sent, unless it throws. -/
def put (entries : List (Key × Option Value)) : Except String ObjectStorageOp :=
  parseWrite c entries []

/-- `delete`: the op that is sent, unless it throws. -/
def delete (keys : List (Option Key)) : Except String ObjectStorageOp :=
  (keys.mapM keyOf).bind fun keys => parseWrite c [] keys

end Storage

/-! ## What the functions do -/

variable {c}

theorem mapM_keyOf {keys : List (Option Key)} {list : List Key} :
    keys.mapM keyOf = .ok list ↔ keys = list.map some := by
  rw [mapM_eq_ok]
  constructor
  · intro h
    induction h with
    | nil => rfl
    | @cons key k keys list hkey _ ih =>
        rw [ih, map_cons]
        cases key with
        | none => cases hkey
        | some key =>
            cases hkey
            rfl
  · rintro rfl
    induction list with
    | nil => exact .nil
    | cons key list ih => exact .cons rfl ih

theorem parsePuts_eq_ok {entries : List (Key × Option Value)} {puts : List (String × Bytes)} :
    parsePuts c entries = .ok puts ↔
      List.Forall₂ (fun entry put => toRustStringLossy entry.1 = put.1 ∧
        c.serialize entry.2 = .ok put.2) entries puts := by
  rw [parsePuts, mapM_eq_ok]
  constructor
  · refine List.Forall₂.imp fun entry put h => ?_
    obtain ⟨bytes, hbytes, rfl⟩ := map_eq_ok.mp h
    exact ⟨rfl, hbytes⟩
  · refine List.Forall₂.imp fun entry put h => ?_
    exact map_eq_ok.mpr ⟨put.2, h.2, Prod.ext h.1 rfl⟩

theorem names_parsePuts {entries : List (Key × Option Value)} {puts : List (String × Bytes)}
    (h : parsePuts c entries = .ok puts) :
    puts.map Prod.fst = (entries.map Prod.fst).map toRustStringLossy := by
  rw [parsePuts_eq_ok] at h
  induction h with
  | nil => rfl
  | cons hentry _ ih => rw [map_cons, map_cons, map_cons, ih, hentry.1]

theorem mem_parsePuts {entries : List (Key × Option Value)} {puts : List (String × Bytes)}
    (h : parsePuts c entries = .ok puts) {key : Key} {value : Option Value} {bytes : Bytes}
    (hmem : (key, value) ∈ entries) (hbytes : c.serialize value = .ok bytes) :
    (toRustStringLossy key, bytes) ∈ puts := by
  rw [parsePuts_eq_ok] at h
  induction h with
  | nil => cases hmem
  | @cons entry put entries puts hentry _ ih =>
      rcases mem_cons.mp hmem with rfl | hmem
      · have hput : (toRustStringLossy key, bytes) = put :=
          Prod.ext hentry.1 (Except.ok.inj (hbytes.symm.trans hentry.2))
        exact hput ▸ mem_cons_self
      · exact mem_cons_of_mem put (ih hmem)

/-- The puts and the deletes of a write name different keys. -/
def ObjectStorageOp.Disjoint : ObjectStorageOp → Prop
  | .write puts deletes _ => (puts.map Prod.fst).Disjoint deletes
  | _ => True

namespace Content

variable {content : Content}

theorem foldl_delete (deletes : List String) (key : String) :
    deletes.foldl delete content key = if key ∈ deletes then none else content key := by
  induction deletes generalizing content with
  | nil => rfl
  | cons deleted deletes ih =>
      rw [foldl_cons, ih, delete]
      simp only [mem_cons]
      by_cases hmem : key ∈ deletes
      · rw [if_pos hmem, if_pos (.inr hmem)]
      · rw [if_neg hmem]
        by_cases hkey : key = deleted
        · rw [if_pos (.inl hkey), hkey, update_self]
        · rw [if_neg (not_or_intro hkey hmem), update_of_ne hkey]

theorem foldl_put_of_not_mem {puts : List (String × Bytes)} {key : String}
    (h : key ∉ puts.map Prod.fst) : puts.foldl put content key = content key := by
  induction puts generalizing content with
  | nil => rfl
  | cons entry puts ih =>
      rw [map_cons, mem_cons, not_or] at h
      rw [foldl_cons, ih h.2, put, update_of_ne h.1]

theorem foldl_put_of_mem {puts : List (String × Bytes)} {key : String} {bytes : Bytes}
    (hnodup : (puts.map Prod.fst).Nodup) (h : (key, bytes) ∈ puts) :
    puts.foldl put content key = some bytes := by
  induction puts generalizing content with
  | nil => cases h
  | cons entry puts ih =>
      obtain ⟨hnotMem, hnodup⟩ := nodup_cons.mp hnodup
      rw [foldl_cons]
      rcases mem_cons.mp h with rfl | h
      · rw [foldl_put_of_not_mem hnotMem, put, update_self]
      · exact ih hnodup h

end Content

namespace Storage

theorem map_collect (view : Value → View) {value : Key → Option Value}
    {found : InsertionMap Key Value} {key : Key} :
    (collect value found key).map view =
      collect (fun k => (value k).map view) (found.map view) key := by
  rw [collect, collect]
  cases value key with
  | none => rfl
  | some v => exact InsertionMap.map_set view

/-- The result of a `get` of a list has the values of the keys it was asked for. -/
theorem get?_foldl_collect {value : Key → Option Value} {found : InsertionMap Key Value}
    {keys : List Key} {key : Key} :
    (keys.foldl (collect value) found).get? key =
      (if key ∈ keys then value key else none).or (found.get? key) := by
  induction keys generalizing found with
  | nil => rfl
  | cons k keys ih =>
      have hcollect : (collect value found k).get? key =
          (if key = k then value key else none).or (found.get? key) := by
        rw [collect]
        by_cases hkey : key = k
        · subst hkey
          cases hvalue : value key with
          | none => rw [if_pos rfl, none_or]
          | some v => rw [InsertionMap.get?_set, if_pos rfl, if_pos rfl, some_or]
        · cases hvalue : value k with
          | none => rw [if_neg hkey, none_or]
          | some v => rw [InsertionMap.get?_set, if_neg hkey, if_neg hkey, none_or]
      rw [foldl_cons, ih, hcollect, ← Option.or_assoc]
      congr 1
      by_cases hkey : key = k
      · rw [if_pos hkey, if_pos (mem_cons.mpr (.inl hkey))]
        split
        · exact Option.or_self
        · rfl
      · simp only [mem_cons, hkey, false_or, if_false, or_none]

end Storage

end OpenWorkers.Object
