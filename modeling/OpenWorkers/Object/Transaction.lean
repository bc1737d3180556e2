import OpenWorkers.Object.Storage

/-!
# Transactions of a Durable Object

`storage.transaction(closure)` of `src/js/durable_object.js`: the puts and deletes of the closure
are kept in a map and a set, reads look there first, and one write goes out when the closure
ends.  A closure is the list of the calls it makes, each awaited before the next, and how it ends.

The specification is `direct`: the same calls made on `storage` itself, one after the other.
`Overlay` is what ties the two: the content with the kept puts and deletes over it is what the
storage would hold.  The storage serializes the value of the guest, and a transaction a copy of it,
so the two are compared by what the guest can read of them.

The keys are kept as the guest's strings, but the storage knows them by `toRustStringLossy`, so
this holds for keys that the storage tells apart.
-/

namespace OpenWorkers.Object

open List Function

variable {Value View : Type}

namespace StructuredClone

variable (c : StructuredClone Value) (view : Value → View)

/-- A kept value stands for stored bytes: it can be stored, and what is read of it, or of a copy, is
what is read of the bytes. -/
structure Stands (value : Option Value) (bytes : Bytes) : Prop where
  stored : ∃ kept, c.serialize value = .ok kept ∧
    (c.deserialize kept).map view = (c.deserialize bytes).map view
  copied : ∀ copy, c.clone value = .ok copy → copy.map view = (c.deserialize bytes).map view

/-- `structuredClone` and the storage make the same of a value: what `structuredClone` copies can be
stored, and the copy stands for what is stored. -/
def Faithful (value : Option Value) : Prop :=
  ∀ copy, c.clone value = .ok copy →
    ∃ bytes, c.serialize value = .ok bytes ∧ c.Stands view copy bytes

end StructuredClone

/-- What a transaction keeps.  No key is in both. -/
structure Transaction (Value : Type) where
  puts : InsertionMap Key (Option Value)
  deletes : InsertionMap Key Unit
  rolledBack : Bool
  disjoint : ∀ key, puts.has key = true → deletes.has key = false

namespace Transaction

def start : Transaction Value := ⟨.empty, .empty, false, nofun⟩

section

variable (t : Transaction Value) (key : Key)

@[ext] theorem ext {t t' : Transaction Value} (hputs : t.puts = t'.puts)
    (hdeletes : t.deletes = t'.deletes) (hrolledBack : t.rolledBack = t'.rolledBack) : t = t' := by
  cases t
  cases t'
  cases hputs
  cases hdeletes
  cases hrolledBack
  rfl

/-- The key is in one of the two. -/
def keeps : Bool := t.puts.has key || t.deletes.has key

/-- `puts.set(key, value)` and `deletes.delete(key)`. -/
def keepPut (value : Option Value) : Transaction Value where
  puts := t.puts.set key value
  deletes := t.deletes.delete key
  rolledBack := t.rolledBack
  disjoint other h := by
    rw [InsertionMap.has_set, Bool.or_eq_true_iff, decide_eq_true_iff] at h
    rw [InsertionMap.has_delete, Bool.and_eq_false_iff]
    rcases h with rfl | h
    · exact .inl (by rw [decide_eq_true rfl]; rfl)
    · exact .inr (t.disjoint other h)

/-- `puts.delete(key)` and `deletes.add(key)`. -/
def keepDelete : Transaction Value where
  puts := t.puts.delete key
  deletes := t.deletes.set key ()
  rolledBack := t.rolledBack
  disjoint other h := by
    rw [InsertionMap.has_delete, Bool.and_eq_true_iff, Bool.not_eq_true'] at h
    rw [InsertionMap.has_set, h.1, Bool.false_or]
    exact t.disjoint other h.2

def rollback : Transaction Value := { t with rolledBack := true }

end

section

variable (c : StructuredClone Value) (content : Content) (t : Transaction Value)

/-- The kept value of a key, `undefined` if there is none. -/
def localValue (key : Key) : Except String (Option Value) :=
  match t.puts.get? key with
  | some value => c.clone value
  | none => .ok none

/-- `get` of one key.  What is not a string is in neither of the two. -/
def get : Option Key → Except String (Option Value)
  | some key => if t.keeps key then t.localValue c key else Storage.get c content (some key)
  | none => Storage.get c content none

/-- The storage is asked for the key. -/
def asks : Option Key → Bool
  | some key => !t.keeps key
  | none => true

/-- The value of a key in the result of `getMany`. -/
def valueOf (stored : InsertionMap Key Value) (key : Key) : Except String (Option Value) :=
  if t.puts.has key then t.localValue c key else .ok (stored.get? key)

/-- `get` of a list of keys. -/
def getMany (keys : List (Option Key)) : Except String (InsertionMap Key Value) := do
  let stored ← Storage.getMany c content (keys.filter t.asks)
  (keys.filterMap fun key => key).foldlM
    (fun found key => (t.valueOf c stored key).map fun value =>
      Storage.collect (fun _ => value) found key) .empty

/-- `put`: the entries before the first one that cannot be cloned are kept. -/
def put : Transaction Value → List (Key × Option Value) → Transaction Value × Except String Unit
  | t, [] => (t, .ok ())
  | t, (key, entry) :: entries =>
      match c.clone entry with
      | .error message => (t, .error message)
      | .ok value => put (t.keepPut key value) entries

/-- `delete`, with the number of the keys that had a value.  For one key the guest gets whether
it is positive. -/
def delete (keys : List (Option Key)) : Except String (Transaction Value × Nat) := do
  let list ← keys.mapM keyOf
  let stored ← t.getMany c content (list.map some)
  pure (list.foldl keepDelete t, stored.size)

end

/-! ## Closures -/

/-- A call of a closure. -/
inductive Call (Value : Type) where
  | get (key : Option Key)
  | getMany (keys : List (Option Key))
  | put (entries : List (Key × Option Value))
  | delete (keys : List (Option Key))
  | rollback

/-- What a `get` returned. -/
inductive Got (Value : Type) where
  | value (value : Option Value)
  | found (values : InsertionMap Key Value)

/-- What the guest can tell of it. -/
def Got.view (view : Value → View) : Got Value → Got View
  | .value v => .value (v.map view)
  | .found m => .found (m.map view)

inductive Ending where
  | returns
  | throws
deriving DecidableEq, Repr

/-- The keys that a call puts or deletes. -/
def Call.writes : Call Value → List Key
  | .put entries => entries.map Prod.fst
  | .delete keys => keys.filterMap fun key => key
  | _ => []

/-- The keys that a call names. -/
def Call.keys : Call Value → List Key
  | .get key => key.toList
  | .getMany keys => keys.filterMap fun key => key
  | call => call.writes

/-- The values that a call puts. -/
def Call.values : Call Value → List (Option Value)
  | .put entries => entries.map Prod.snd
  | _ => []

section

variable (c : StructuredClone Value) (content : Content)

/-- A call that does not fail, with what a `get` returns. -/
def step (t : Transaction Value) : Call Value → Except String (Transaction Value × List (Got Value))
  | .get key => (t.get c content key).map fun value => (t, [.value value])
  | .getMany keys => (t.getMany c content keys).map fun found => (t, [.found found])
  | .put entries =>
      match put c t entries with
      | (t, .ok ()) => .ok (t, [])
      | (_, .error message) => .error message
  | .delete keys => (t.delete c content keys).map fun p => (p.1, [])
  | .rollback => .ok (t.rollback, [])

/-- The calls of a closure, none of which fails. -/
def perform (t : Transaction Value) :
    List (Call Value) → Except String (Transaction Value × List (Got Value))
  | [] => .ok (t, [])
  | call :: calls => do
      let (t, got) ← step c content t call
      let (t, gots) ← perform t calls
      pure (t, got ++ gots)

/-- The call on the storage itself. -/
def directStep (content : Content) : Call Value → Except String (Content × List (Got Value))
  | .get key => (Storage.get c content key).map fun value => (content, [.value value])
  | .getMany keys => (Storage.getMany c content keys).map fun found => (content, [.found found])
  | .put entries => (Storage.put c entries).map fun op => (content.apply op, [])
  | .delete keys => (Storage.delete c keys).map fun op => (content.apply op, [])
  | .rollback => .ok (content, [])

/-- The calls on the storage itself, one after the other. -/
def direct (content : Content) :
    List (Call Value) → Except String (Content × List (Got Value))
  | [] => .ok (content, [])
  | call :: calls => do
      let (content, got) ← directStep c content call
      let (content, gots) ← direct content calls
      pure (content, got ++ gots)

end

/-! ## The kept puts and deletes over the content -/

/-- With what `t` keeps over it, `content` is `after`; the keys are in `K`. -/
structure Overlay (c : StructuredClone Value) (view : Value → View) (K : Set Key)
    (content : Content) (t : Transaction Value) (after : Content) : Prop where
  keys : ∀ key, t.keeps key = true → key ∈ K
  put : ∀ key value, t.puts.get? key = some value →
    ∃ bytes, c.Stands view value bytes ∧ after (toRustStringLossy key) = some bytes
  deleted : ∀ key, t.deletes.has key = true → after (toRustStringLossy key) = none
  rest : ∀ name, (∀ key, t.keeps key = true → toRustStringLossy key ≠ name) →
    after name = content name

section

variable {c : StructuredClone Value} {view : Value → View} {K : Set Key}
  {content after : Content} {t t' : Transaction Value} {key other : Key}

theorem keeps_keepPut {value : Option Value} :
    (t.keepPut key value).keeps other = (decide (other = key) || t.keeps other) := by
  rw [keeps, keepPut, InsertionMap.has_set, InsertionMap.has_delete, keeps]
  by_cases hkey : other = key
  · rw [decide_eq_true hkey, Bool.true_or, Bool.true_or, Bool.true_or]
  · rw [decide_eq_false hkey, Bool.false_or, Bool.false_or, Bool.not_false, Bool.true_and]

theorem keeps_keepDelete :
    (t.keepDelete key).keeps other = (decide (other = key) || t.keeps other) := by
  rw [keeps, keepDelete, InsertionMap.has_set, InsertionMap.has_delete, keeps]
  by_cases hkey : other = key
  · rw [decide_eq_true hkey, Bool.true_or, Bool.true_or, Bool.or_true]
  · rw [decide_eq_false hkey, Bool.false_or, Bool.false_or, Bool.not_false, Bool.true_and]

theorem filterMap_map_some (list : List Key) :
    (list.map some).filterMap (fun key => key) = list := by
  rw [filterMap_map]
  exact filterMap_some

namespace Overlay

theorem start : Overlay c view K content start content :=
  ⟨nofun, nofun, nofun, fun _ _ => rfl⟩

section

variable (h : Overlay c view K content t after) (hK : Set.InjOn toRustStringLossy K)

include h hK

/-- The storage tells the keys of the guest apart. -/
theorem ne_of_ne (hkey : key ∈ K) (hother : t.keeps other = true) (hne : other ≠ key) :
    toRustStringLossy other ≠ toRustStringLossy key := by
  intro heq
  exact hne (hK (h.keys other hother) hkey heq)

/-- What is kept of one key changes with what the storage would hold under it. -/
theorem update (hkey : key ∈ K) {entry : Option Bytes}
    (hkeeps : ∀ other, t'.keeps other = (decide (other = key) || t.keeps other))
    (hputs : ∀ other, other ≠ key → t'.puts.get? other = t.puts.get? other)
    (hdeletes : ∀ other, other ≠ key → t'.deletes.has other = t.deletes.has other)
    (hput : ∀ value, t'.puts.get? key = some value →
      ∃ bytes, c.Stands view value bytes ∧ entry = some bytes)
    (hdelete : t'.deletes.has key = true → entry = none) :
    Overlay c view K content t' (update after (toRustStringLossy key) entry) := by
  refine ⟨fun other hother => ?_, fun other value hvalue => ?_, fun other hother => ?_,
    fun name hname => ?_⟩
  · rw [hkeeps, Bool.or_eq_true_iff, decide_eq_true_iff] at hother
    rcases hother with rfl | hother
    · exact hkey
    · exact h.keys other hother
  · by_cases hne : other = key
    · subst hne
      rw [update_self]
      exact hput value hvalue
    · rw [hputs other hne] at hvalue
      have hother : t.keeps other = true := by
        rw [keeps, InsertionMap.has, hvalue]
        rfl
      rw [update_of_ne (h.ne_of_ne hK hkey hother hne)]
      exact h.put other value hvalue
  · by_cases hne : other = key
    · subst hne
      rw [update_self]
      exact hdelete hother
    · rw [hdeletes other hne] at hother
      have hkept : t.keeps other = true := by rw [keeps, hother, Bool.or_true]
      rw [update_of_ne (h.ne_of_ne hK hkey hkept hne)]
      exact h.deleted other hother
  · have hne : name ≠ toRustStringLossy key := by
      refine (hname key ?_).symm
      rw [hkeeps, decide_eq_true rfl, Bool.true_or]
    rw [update_of_ne hne]
    refine h.rest name fun other hother => hname other ?_
    rw [hkeeps, hother, Bool.or_true]

theorem keepPut (hkey : key ∈ K) {copy : Option Value} {bytes : Bytes}
    (hcopy : c.Stands view copy bytes) :
    Overlay c view K content (t.keepPut key copy) (after.put (toRustStringLossy key, bytes)) := by
  refine h.update hK hkey (fun _ => keeps_keepPut) (fun other hne => ?_) (fun other hne => ?_)
    (fun value hvalue => ?_) (fun hdeleted => ?_)
  · rw [Transaction.keepPut, InsertionMap.get?_set, if_neg hne]
  · rw [Transaction.keepPut, InsertionMap.has_delete, decide_eq_false hne, Bool.not_false,
      Bool.true_and]
  · rw [Transaction.keepPut, InsertionMap.get?_set, if_pos rfl] at hvalue
    cases hvalue
    exact ⟨bytes, hcopy, rfl⟩
  · rw [Transaction.keepPut, InsertionMap.has_delete, decide_eq_true rfl] at hdeleted
    cases hdeleted

theorem keepDelete (hkey : key ∈ K) :
    Overlay c view K content (t.keepDelete key) (after.delete (toRustStringLossy key)) := by
  refine h.update hK hkey (fun _ => keeps_keepDelete) (fun other hne => ?_) (fun other hne => ?_)
    (fun value hvalue => ?_) (fun _ => rfl)
  · rw [Transaction.keepDelete, InsertionMap.get?_delete, if_neg hne]
  · rw [Transaction.keepDelete, InsertionMap.has_set, decide_eq_false hne, Bool.false_or]
  · rw [Transaction.keepDelete, InsertionMap.get?_delete, if_pos rfl] at hvalue
    cases hvalue

/-! ### Reads -/

omit hK in
theorem read_kept (hkey : t.keeps key = true) {value : Option Value}
    (hlocal : t.localValue c key = .ok value) :
    value.map view = (Storage.read c after key).map view := by
  rw [localValue] at hlocal
  rw [Storage.read]
  split at hlocal
  next kept hkept =>
    obtain ⟨bytes, hstands, hafter⟩ := h.put key kept hkept
    rw [hafter, Option.bind_some]
    exact hstands.copied value hlocal
  next hnone =>
    have hdeleted : t.deletes.has key = true := by
      rwa [keeps, InsertionMap.has, hnone, Option.isSome_none, Bool.false_or] at hkey
    cases hlocal
    rw [h.deleted key hdeleted, Option.bind_none]

theorem read_rest (hkey : key ∈ K) (hrest : t.keeps key = false) :
    Storage.read c after key = Storage.read c content key := by
  rw [Storage.read, Storage.read, h.rest]
  intro other hother
  refine h.ne_of_ne hK hkey hother ?_
  rintro rfl
  rw [hrest] at hother
  cases hother

theorem get {key : Option Key} (hkey : ∀ k ∈ key.toList, k ∈ K) {value : Option Value}
    (hget : t.get c content key = .ok value) :
    ∃ stored, Storage.get c after key = .ok stored ∧ value.map view = stored.map view := by
  cases key with
  | none => cases hget
  | some key =>
      refine ⟨_, rfl, ?_⟩
      rw [Transaction.get] at hget
      split at hget
      next hkept => exact h.read_kept hkept hget
      next hrest =>
        cases hget
        rw [h.read_rest hK (hkey key mem_cons_self) (Bool.eq_false_iff.mpr hrest)]

/-- The value of a key, from what is kept or from what the storage was asked for. -/
theorem valueOf {asked list : List Key}
    (hasked : ∀ k, k ∈ asked ↔ k ∈ list ∧ t.keeps k = false) (hmem : key ∈ list)
    (hkey : key ∈ K) {value : Option Value}
    (hvalue : t.valueOf c (asked.foldl (Storage.collect (Storage.read c content)) .empty) key =
      .ok value) :
    value.map view = (Storage.read c after key).map view := by
  rw [Transaction.valueOf] at hvalue
  split at hvalue
  next hput =>
    refine h.read_kept ?_ hvalue
    rw [keeps, hput, Bool.true_or]
  next hput =>
    rw [Storage.get?_foldl_collect, InsertionMap.get?_empty, Option.or_none] at hvalue
    cases hvalue
    by_cases hdeleted : t.deletes.has key = true
    · have hkept : t.keeps key = true := by rw [keeps, hdeleted, Bool.or_true]
      have hnot : key ∉ asked := by
        rw [hasked, hkept]
        rintro ⟨-, ⟨⟩⟩
      rw [if_neg hnot, Storage.read, h.deleted key hdeleted, Option.bind_none]
    · have hrest : t.keeps key = false := by
        rw [keeps, Bool.eq_false_iff.mpr hput, Bool.eq_false_iff.mpr hdeleted, Bool.or_false]
      rw [if_pos ((hasked key).mpr ⟨hmem, hrest⟩), h.read_rest hK hkey hrest]

omit h hK in
/-- The storage is asked for no key unless all are strings. -/
theorem exists_list {keys : List (Option Key)} {asked : List Key}
    (h : keys.filter t.asks = asked.map some) : ∃ list : List Key, keys = list.map some := by
  induction keys generalizing asked with
  | nil => exact ⟨[], rfl⟩
  | cons key keys ih =>
      cases key with
      | none =>
          rw [filter_cons_of_pos rfl] at h
          cases asked with
          | nil => cases h
          | cons k asked => cases head_eq_of_cons_eq h
      | some key =>
          rw [filter_cons] at h
          split at h
          · cases asked with
            | nil => cases h
            | cons k asked =>
                obtain ⟨list, rfl⟩ := ih (tail_eq_of_cons_eq h)
                exact ⟨key :: list, rfl⟩
          · obtain ⟨list, rfl⟩ := ih h
            exact ⟨key :: list, rfl⟩

theorem getMany {keys : List (Option Key)} {found : InsertionMap Key Value}
    (hkeys : ∀ k ∈ keys.filterMap fun key => key, k ∈ K)
    (hget : t.getMany c content keys = .ok found) :
    ∃ stored, Storage.getMany c after keys = .ok stored ∧ found.map view = stored.map view := by
  obtain ⟨stored, hstored, hfold⟩ := bind_eq_ok.mp hget
  obtain ⟨asked, hasked, rfl⟩ := map_eq_ok.mp hstored
  rw [mapM_keyOf] at hasked
  obtain ⟨list, rfl⟩ := exists_list hasked
  rw [filterMap_map_some] at hkeys hfold
  have hmem : ∀ k, k ∈ asked ↔ k ∈ list ∧ t.keeps k = false := by
    intro k
    have hiff : some k ∈ (list.map some).filter t.asks ↔ some k ∈ asked.map some := by rw [hasked]
    rw [mem_filter, List.mem_map_of_injective (Option.some_injective _),
      List.mem_map_of_injective (Option.some_injective _), asks, Bool.not_eq_true'] at hiff
    exact hiff.symm
  refine ⟨_, map_eq_ok.mpr ⟨list, mapM_keyOf.mpr rfl, rfl⟩, ?_⟩
  -- Both results are folds over the keys, of values that look alike.
  calc
    found.map view = list.foldl
        (Storage.collect fun k => (Storage.read c after k).map view)
          (InsertionMap.empty.map view) := by
      refine foldlM_eq_ok (fun k hk found found' hstep => ?_) hfold
      obtain ⟨value, hvalue, rfl⟩ := map_eq_ok.mp hstep
      rw [Storage.map_collect, Storage.collect, Storage.collect,
        h.valueOf hK hmem hk (hkeys k hk) hvalue]
    _ = (list.foldl (Storage.collect (Storage.read c after)) .empty).map view :=
      foldl_hom _ fun _ _ => (Storage.map_collect view).symm

/-! ### Writes -/

theorem putMany {entries : List (Key × Option Value)} (hkeys : ∀ k ∈ entries.map Prod.fst, k ∈ K)
    (hvalues : ∀ value ∈ entries.map Prod.snd, c.Faithful view value)
    (hput : Transaction.put c t entries = (t', .ok ())) :
    ∃ puts, parsePuts c entries = .ok puts ∧
      Overlay c view K content t' (puts.foldl Content.put after) := by
  induction entries generalizing t after with
  | nil =>
      cases hput
      exact ⟨[], rfl, h⟩
  | cons entry entries ih =>
      obtain ⟨key, entry⟩ := entry
      rw [map_cons, forall_mem_cons] at hkeys hvalues
      rw [Transaction.put] at hput
      split at hput
      · cases hput
      next copy hclone =>
        obtain ⟨bytes, hbytes, hstands⟩ := hvalues.1 copy hclone
        obtain ⟨puts, hputs, hafter⟩ :=
          ih (h.keepPut hK hkeys.1 hstands) hkeys.2 hvalues.2 hput
        refine ⟨(toRustStringLossy key, bytes) :: puts, ?_, hafter⟩
        rw [parsePuts_eq_ok] at hputs ⊢
        exact .cons ⟨rfl, hbytes⟩ hputs

theorem deleteMany {list : List Key} (hkeys : ∀ k ∈ list, k ∈ K) :
    Overlay c view K content (list.foldl Transaction.keepDelete t)
      ((list.map toRustStringLossy).foldl Content.delete after) := by
  induction list generalizing t after with
  | nil => exact h
  | cons key list ih =>
      rw [forall_mem_cons] at hkeys
      exact ih (h.keepDelete hK hkeys.1) hkeys.2

end

end Overlay

theorem keeps_put {entries : List (Key × Option Value)}
    (hput : put c t entries = (t', .ok ())) :
    t'.keeps key = true ↔ t.keeps key = true ∨ key ∈ entries.map Prod.fst := by
  induction entries generalizing t with
  | nil =>
      cases hput
      exact (or_iff_left not_mem_nil).symm
  | cons entry entries ih =>
      obtain ⟨k, entry⟩ := entry
      rw [put] at hput
      split at hput
      · cases hput
      · rw [ih hput, keeps_keepPut, map_cons, mem_cons, Bool.or_eq_true_iff,
          decide_eq_true_iff, or_assoc, or_left_comm]

theorem keeps_delete {list : List Key} :
    (list.foldl keepDelete t).keeps key = true ↔ t.keeps key = true ∨ key ∈ list := by
  induction list generalizing t with
  | nil => exact (or_iff_left not_mem_nil).symm
  | cons k list ih =>
      rw [foldl_cons, ih, keeps_keepDelete, mem_cons, Bool.or_eq_true_iff,
        decide_eq_true_iff, or_assoc, or_left_comm]

theorem rolledBack_put {entries : List (Key × Option Value)} :
    (put c t entries).1.rolledBack = t.rolledBack := by
  induction entries generalizing t with
  | nil => rfl
  | cons entry entries ih =>
      rw [put]
      split
      · rfl
      · exact ih

theorem rolledBack_delete {list : List Key} :
    (list.foldl keepDelete t).rolledBack = t.rolledBack := by
  induction list generalizing t with
  | nil => rfl
  | cons k list ih => exact ih

end

/-! ## Runs of a closure -/

section

variable {c : StructuredClone Value} {view : Value → View} {K : Set Key}
  {content after : Content} {t t' : Transaction Value}
  {call : Call Value} {calls : List (Call Value)} {got gots : List (Got Value)}

/-- A call that did not fail. -/
inductive Stepped (c : StructuredClone Value) (content : Content) (t : Transaction Value) :
    Call Value → Transaction Value → List (Got Value) → Prop where
  | get {key : Option Key} {value : Option Value} : t.get c content key = .ok value →
      Stepped c content t (.get key) t [.value value]
  | getMany {keys : List (Option Key)} {found : InsertionMap Key Value} :
      t.getMany c content keys = .ok found → Stepped c content t (.getMany keys) t [.found found]
  | put {entries : List (Key × Option Value)} {t' : Transaction Value} :
      Transaction.put c t entries = (t', .ok ()) → Stepped c content t (.put entries) t' []
  | delete {list : List Key} :
      Stepped c content t (.delete (list.map some)) (list.foldl keepDelete t) []
  | rollback : Stepped c content t .rollback t.rollback []

theorem stepped_of_step (h : step c content t call = .ok (t', got)) :
    Stepped c content t call t' got := by
  cases call with
  | get key =>
      obtain ⟨value, hvalue, heq⟩ := map_eq_ok.mp h
      cases heq
      exact .get hvalue
  | getMany keys =>
      obtain ⟨found, hfound, heq⟩ := map_eq_ok.mp h
      cases heq
      exact .getMany hfound
  | put entries =>
      rw [step] at h
      split at h
      next hput =>
        cases h
        exact .put hput
      next => cases h
  | delete keys =>
      obtain ⟨⟨_, n⟩, hdelete, heq⟩ := map_eq_ok.mp h
      cases heq
      obtain ⟨list, hlist, hdelete⟩ := bind_eq_ok.mp hdelete
      obtain ⟨stored, -, hdelete⟩ := bind_eq_ok.mp hdelete
      cases hdelete
      obtain rfl := mapM_keyOf.mp hlist
      exact .delete
  | rollback =>
      cases h
      exact .rollback

/-- The keys of a call are in `K`, and its values are copied as they are stored. -/
structure Call.Within (c : StructuredClone Value) (view : Value → View) (K : Set Key)
    (call : Call Value) : Prop where
  keys : ∀ key ∈ call.keys, key ∈ K
  values : ∀ value ∈ call.values, c.Faithful view value

/-- A call does the same to the transaction and to the storage. -/
theorem Overlay.step (h : Overlay c view K content t after) (hK : Set.InjOn toRustStringLossy K)
    (hcall : call.Within c view K) (hstep : Stepped c content t call t' got) :
    ∃ after' got', directStep c after call = .ok (after', got') ∧
      got.map (Got.view view) = got'.map (Got.view view) ∧ Overlay c view K content t' after' := by
  cases hstep with
  | get hget =>
      obtain ⟨stored, hstored, hview⟩ := h.get hK hcall.keys hget
      refine ⟨after, _, map_eq_ok.mpr ⟨_, hstored, rfl⟩, ?_, h⟩
      simp only [map_cons, map_nil, Got.view, hview]
  | getMany hget =>
      obtain ⟨stored, hstored, hview⟩ := h.getMany hK hcall.keys hget
      refine ⟨after, _, map_eq_ok.mpr ⟨_, hstored, rfl⟩, ?_, h⟩
      simp only [map_cons, map_nil, Got.view, hview]
  | put hput =>
      obtain ⟨puts, hputs, hafter⟩ := h.putMany hK hcall.keys hcall.values hput
      exact ⟨_, [], map_eq_ok.mpr ⟨_, map_eq_ok.mpr ⟨puts, hputs, rfl⟩, rfl⟩, rfl, hafter⟩
  | @delete list =>
      refine ⟨_, [], map_eq_ok.mpr ⟨_, bind_eq_ok.mpr ⟨list, mapM_keyOf.mpr rfl, rfl⟩, rfl⟩,
        rfl, ?_⟩
      refine h.deleteMany hK fun key hkey => hcall.keys key ?_
      show key ∈ (list.map some).filterMap fun key => key
      rwa [filterMap_map_some]
  | rollback => exact ⟨after, [], rfl, rfl, h.keys, h.put, h.deleted, h.rest⟩

/-- What is kept after a call: what was kept, and the keys it puts or deletes. -/
theorem Stepped.keeps (h : Stepped c content t call t' got) {key : Key} :
    t'.keeps key = true ↔ t.keeps key = true ∨ key ∈ call.writes := by
  cases h with
  | get | getMany | rollback => exact (or_iff_left not_mem_nil).symm
  | put hput => exact keeps_put hput
  | delete => rw [keeps_delete, Call.writes, filterMap_map_some]

theorem Stepped.rolledBack (h : Stepped c content t call t' got) :
    t'.rolledBack = true ↔ t.rolledBack = true ∨ call = .rollback := by
  cases h with
  | get | getMany => exact (or_iff_left nofun).symm
  | put hput =>
      rw [← rolledBack_put (c := c) (t := t), hput]
      exact (or_iff_left nofun).symm
  | delete =>
      rw [rolledBack_delete]
      exact (or_iff_left nofun).symm
  | rollback => exact iff_of_true rfl (.inr rfl)

/-- The calls of a closure return what the same calls return of the storage, and leave over the
content what these leave in it. -/
theorem Overlay.perform (h : Overlay c view K content t after)
    (hK : Set.InjOn toRustStringLossy K) (hcalls : ∀ call ∈ calls, call.Within c view K)
    (hrun : perform c content t calls = .ok (t', gots)) :
    ∃ after' gots', direct c after calls = .ok (after', gots') ∧
      gots.map (Got.view view) = gots'.map (Got.view view) ∧
        Overlay c view K content t' after' := by
  induction calls generalizing t after gots with
  | nil =>
      cases hrun
      exact ⟨after, [], rfl, rfl, h⟩
  | cons call calls ih =>
      rw [forall_mem_cons] at hcalls
      obtain ⟨⟨t₁, got⟩, hstep, hrun⟩ := bind_eq_ok.mp hrun
      obtain ⟨⟨t₂, rest⟩, hrest, heq⟩ := bind_eq_ok.mp hrun
      cases heq
      obtain ⟨after₁, got₁, hdirect, hgot, h₁⟩ := h.step hK hcalls.1 (stepped_of_step hstep)
      obtain ⟨after₂, got₂, hdirect₂, hgots, h₂⟩ := ih h₁ hcalls.2 hrest
      refine ⟨after₂, got₁ ++ got₂, bind_eq_ok.mpr ⟨_, hdirect, bind_eq_ok.mpr ⟨_, hdirect₂, rfl⟩⟩,
        ?_, h₂⟩
      rw [map_append, map_append, hgot, hgots]

theorem keeps_of_deletes {key : Key} (h : t.deletes.has key = true) : t.keeps key = true := by
  rw [keeps, h, Bool.or_true]

theorem keeps_of_puts {key : Key} (h : key ∈ t.puts.keys) : t.keeps key = true := by
  rw [keeps, InsertionMap.has_iff_mem_keys.mpr h, Bool.true_or]

theorem mem_deletes {key : Key} : key ∈ t.deletes.keys ↔ t.deletes.has key = true :=
  InsertionMap.has_iff_mem_keys.symm

namespace Overlay

variable {puts : List (String × Bytes)} (h : Overlay c view K content t after)

include h

section Write

variable (hK : Set.InjOn toRustStringLossy K) (hputs : parsePuts c t.puts.entries = .ok puts)

include hK hputs

theorem nodup_names : (puts.map Prod.fst).Nodup := by
  rw [names_parsePuts hputs]
  refine List.Nodup.map_on (fun key hkey other hother heq => ?_) t.puts.nodup
  exact hK (h.keys key (keeps_of_puts hkey)) (h.keys other (keeps_of_puts hother)) heq

/-- A kept delete is not among the puts. -/
theorem not_mem_names {key : Key} (hkey : t.deletes.has key = true) :
    toRustStringLossy key ∉ puts.map Prod.fst := by
  rw [names_parsePuts hputs]
  intro hmem
  obtain ⟨other, hother, heq⟩ := mem_map.mp hmem
  obtain rfl := hK (h.keys other (keeps_of_puts hother)) (h.keys key (keeps_of_deletes hkey)) heq
  rw [t.disjoint other (InsertionMap.has_iff_mem_keys.mpr hother)] at hkey
  cases hkey

theorem disjoint :
    (ObjectStorageOp.write puts (t.deletes.keys.map toRustStringLossy) false).Disjoint := by
  intro name hput hdelete
  obtain ⟨key, hkey, rfl⟩ := mem_map.mp hdelete
  exact h.not_mem_names hK hputs (mem_deletes.mp hkey) hput

/-- The write makes of the content what the calls would have made of it. -/
theorem apply :
    (content.apply (.write puts (t.deletes.keys.map toRustStringLossy) false)).view c view =
      after.view c view := by
  funext name
  show (puts.foldl Content.put _ name).map _ = (after name).map _
  by_cases hkept : ∃ key, t.keeps key = true ∧ toRustStringLossy key = name
  · obtain ⟨key, hkeeps, rfl⟩ := hkept
    cases hvalue : t.puts.get? key with
    | some value =>
        obtain ⟨bytes, hstands, hafter⟩ := h.put key value hvalue
        obtain ⟨kept, hkept, hread⟩ := hstands.stored
        have hmem := mem_parsePuts hputs ((InsertionMap.get?_eq_some_iff value).mp hvalue) hkept
        rw [Content.foldl_put_of_mem (h.nodup_names hK hputs) hmem, hafter, Option.map_some,
          Option.map_some, hread]
    | none =>
        have hdeleted : t.deletes.has key = true := by
          rwa [keeps, InsertionMap.has, hvalue, Option.isSome_none, Bool.false_or] at hkeeps
        rw [Content.foldl_put_of_not_mem (h.not_mem_names hK hputs hdeleted), Content.foldl_delete,
          if_pos (mem_map_of_mem (mem_deletes.mpr hdeleted)), h.deleted key hdeleted]
  · have hrest : ∀ key, t.keeps key = true → toRustStringLossy key ≠ name := by
      intro key hkeeps heq
      exact hkept ⟨key, hkeeps, heq⟩
    have hput : name ∉ puts.map Prod.fst := by
      rw [names_parsePuts hputs]
      intro hmem
      obtain ⟨key, hkey, heq⟩ := mem_map.mp hmem
      exact hrest key (keeps_of_puts hkey) heq
    have hdelete : name ∉ t.deletes.keys.map toRustStringLossy := by
      intro hmem
      obtain ⟨key, hkey, heq⟩ := mem_map.mp hmem
      exact hrest key (keeps_of_deletes (mem_deletes.mp hkey)) heq
    rw [Content.foldl_put_of_not_mem hput, Content.foldl_delete, if_neg hdelete, h.rest name hrest]
    rfl

end Write

end Overlay

end

section

variable {c : StructuredClone Value} {t t' : Transaction Value}
  {entries : List (Key × Option Value)}

end

end Transaction

end OpenWorkers.Object
