import OpenWorkers.Scheduler.Timers

/-!
# The callback that stands under an id

What a delivered expiry has to run can be read off the log: `standing` is the callback that was
registered last under an id, unless the id was cleared or the context reset since.  Ids are
handed out once (`Registry`), so a log whose every delivery runs the standing callback of its
timer is `Faithful`.
-/

namespace OpenWorkers.Scheduler.Timers

open List Object Function

variable {log : List Event}

/-- The callback under each id, as the guest knows it: registered, and neither cleared nor
reset. -/
def stand (t : CallbackId → Option Nat) : Event → CallbackId → Option Nat
  | .set _ id callback => update t id (some callback)
  | .cleared id => update t id none
  | .reset => fun _ => none
  | .delivered _ _ => t

def standing (log : List Event) : CallbackId → Option Nat :=
  log.foldl stand fun _ => none

@[simp]
theorem standing_concat (log : List Event) (e : Event) :
    standing (log ++ [e]) = stand (standing log) e := by
  rw [standing, foldl_concat, ← standing]

/-- What the guest has registered is numbered, and the standing callbacks are among it. -/
structure Registry (registered : Nat) (log : List Event) : Prop where
  number : ∀ kind id callback, .set kind id callback ∈ log →
    callback < registered ∧ id = callback + 1
  kind : ∀ kind kind' id callback callback', .set kind id callback ∈ log →
    .set kind' id callback' ∈ log → kind = kind'
  standing : ∀ id callback, standing log id = some callback → ∃ kind, .set kind id callback ∈ log
  cleared : ∀ kind id callback, [.set kind id callback, .cleared id].Sublist log →
    Timers.standing log id ≠ some callback
  reset : ∀ kind id callback, [.set kind id callback, .reset].Sublist log →
    Timers.standing log id ≠ some callback
  since : ∀ first kind id callback since, log = first ++ .set kind id callback :: since →
    .cleared id ∉ since → .reset ∉ since → Timers.standing log id = some callback

theorem registry_nil : Registry 0 [] where
  number _ _ _ h := absurd h not_mem_nil
  kind _ _ _ _ _ h := absurd h not_mem_nil
  standing _ _ h := by cases h
  cleared _ _ _ h := by cases h
  reset _ _ _ h := by cases h
  since first _ _ _ _ h := by cases first <;> cases h

theorem Registry.set {n : Nat} (h : Registry n log) (kind : Kind) :
    Registry (n + 1) (log ++ [.set kind (n + 1) n]) := by
  have hne : ∀ {kind' id callback}, .set kind' id callback ∈ log → id ≠ n + 1 := by
    intro kind' id callback hmem
    have := h.number _ _ _ hmem
    omega
  refine ⟨?_, ?_, ?_, ?_, ?_, ?_⟩
  · intro kind' id callback hmem
    rcases mem_append.mp hmem with hmem | hmem
    · have := h.number _ _ _ hmem
      omega
    · cases mem_singleton.mp hmem
      exact ⟨Nat.lt_succ_self n, rfl⟩
  · intro k k' id callback callback' hmem hmem'
    rcases mem_append.mp hmem with hmem | hmem <;>
      rcases mem_append.mp hmem' with hmem' | hmem'
    · exact h.kind _ _ _ _ _ hmem hmem'
    · cases mem_singleton.mp hmem'
      exact absurd rfl (hne hmem)
    · cases mem_singleton.mp hmem
      exact absurd rfl (hne hmem')
    · cases mem_singleton.mp hmem
      cases mem_singleton.mp hmem'
      rfl
  · intro id callback hstanding
    rw [standing_concat, stand, update_apply] at hstanding
    split at hstanding
    · next heq =>
      cases hstanding
      exact ⟨kind, heq ▸ mem_append_right _ mem_cons_self⟩
    · obtain ⟨kind', hmem⟩ := h.standing id callback hstanding
      exact ⟨kind', mem_append_left _ hmem⟩
  · intro kind' id callback hsub
    replace hsub := sublist_of_concat_ne (p := [Event.set kind' id callback]) hsub nofun
    rw [standing_concat, stand, update_of_ne (hne (hsub.subset mem_cons_self))]
    exact h.cleared kind' id callback hsub
  · intro kind' id callback hsub
    replace hsub := sublist_of_concat_ne (p := [Event.set kind' id callback]) hsub nofun
    rw [standing_concat, stand, update_of_ne (hne (hsub.subset mem_cons_self))]
    exact h.reset kind' id callback hsub
  · intro first kind' id callback since heq hcleared hreset
    rcases split_concat heq with ⟨rfl, hset, rfl⟩ | ⟨since, rfl, hlog⟩
    · cases hset
      rw [standing_concat, stand, update_self]
    · have hmem : Event.set kind' id callback ∈ log := by
        rw [hlog]
        exact mem_append_right _ mem_cons_self
      rw [standing_concat, stand, update_of_ne (hne hmem)]
      exact h.since first kind' id callback since hlog
        (fun hmem => hcleared (mem_append_left _ hmem))
        (fun hmem => hreset (mem_append_left _ hmem))

/-- An event that registers nothing takes standing callbacks away, if anything. -/
theorem Registry.event {n : Nat} {e : Event} (h : Registry n log)
    (hset : ∀ kind id callback, e ≠ .set kind id callback)
    (hfewer : ∀ id callback, stand (Timers.standing log) e id = some callback →
      Timers.standing log id = some callback)
    (hcleared : ∀ id, e = .cleared id → stand (Timers.standing log) e id = none)
    (hreset : ∀ id, e = .reset → stand (Timers.standing log) e id = none)
    (hkept : ∀ id, e ≠ .cleared id → e ≠ .reset →
      stand (Timers.standing log) e id = Timers.standing log id) :
    Registry n (log ++ [e]) := by
  have hold : ∀ {kind id callback}, .set kind id callback ∈ log ++ [e] →
      .set kind id callback ∈ log := by
    intro kind id callback hmem
    rcases mem_append.mp hmem with hmem | hmem
    · exact hmem
    · exact absurd (mem_singleton.mp hmem).symm (hset _ _ _)
  refine ⟨fun _ _ _ hmem => h.number _ _ _ (hold hmem),
    fun _ _ _ _ _ hmem hmem' => h.kind _ _ _ _ _ (hold hmem) (hold hmem'), ?_, ?_, ?_, ?_⟩
  · intro id callback hstanding
    rw [standing_concat] at hstanding
    obtain ⟨kind, hmem⟩ := h.standing id callback (hfewer id callback hstanding)
    exact ⟨kind, mem_append_left _ hmem⟩
  · intro kind id callback hsub hstanding
    rw [standing_concat] at hstanding
    rcases sublist_concat (p := [Event.set kind id callback]) hsub with hsub | ⟨-, heq⟩
    · exact h.cleared kind id callback hsub (hfewer id callback hstanding)
    · rw [hcleared id heq.symm] at hstanding
      cases hstanding
  · intro kind id callback hsub hstanding
    rw [standing_concat] at hstanding
    rcases sublist_concat (p := [Event.set kind id callback]) hsub with hsub | ⟨-, heq⟩
    · exact h.reset kind id callback hsub (hfewer id callback hstanding)
    · rw [hreset id heq.symm] at hstanding
      cases hstanding
  · intro first kind id callback since heq hcleared' hreset'
    rcases split_concat heq with ⟨-, hlast, -⟩ | ⟨since, rfl, hlog⟩
    · exact absurd hlast.symm (hset _ _ _)
    · have hlast : e ∈ since ++ [e] := mem_append_right _ mem_cons_self
      rw [standing_concat, hkept id (fun h => hcleared' (h ▸ hlast)) (fun h => hreset' (h ▸ hlast))]
      exact h.since first kind id callback since hlog
        (fun hmem => hcleared' (mem_append_left _ hmem))
        (fun hmem => hreset' (mem_append_left _ hmem))

theorem Registry.clear {n : Nat} (h : Registry n log) (id : CallbackId) :
    Registry n (log ++ [.cleared id]) := by
  refine h.event nofun ?_ ?_ nofun ?_
  · intro id' callback hstanding
    rw [stand, update_apply] at hstanding
    split at hstanding
    · cases hstanding
    · exact hstanding
  · intro id' heq
    cases heq
    rw [stand, update_self]
  · intro id' hne _
    rw [stand, update_of_ne fun heq => hne (by rw [heq])]

theorem Registry.reset' {n : Nat} (h : Registry n log) : Registry n (log ++ [.reset]) :=
  h.event nofun nofun nofun (fun _ _ => rfl) fun _ _ hne => absurd rfl hne

theorem Registry.deliver {n : Nat} (h : Registry n log) (id : CallbackId) (ran : Option Nat) :
    Registry n (log ++ [.delivered id ran]) :=
  h.event nofun (fun _ _ h => h) nofun nofun fun _ _ _ => rfl

/-- An event that is no delivery. -/
theorem Faithful.event {e : Event} (h : Faithful log) (he : ∀ id ran, e ≠ .delivered id ran) :
    Faithful (log ++ [e]) where
  cleared kind id callback id' hsub :=
    h.cleared kind id callback id' (sublist_of_concat_ne
      (p := [Event.set kind id callback, .cleared id]) hsub (he _ _).symm)
  reset kind id callback id' hsub :=
    h.reset kind id callback id' (sublist_of_concat_ne
      (p := [Event.set kind id callback, .reset]) hsub (he _ _).symm)
  own before id ran after heq := by
    rcases split_concat heq with ⟨-, hlast, -⟩ | ⟨after, rfl, hlog⟩
    · exact absurd hlast.symm (he _ _)
    · exact h.own before id ran after hlog
  noOther id callback hmem := by
    rcases mem_append.mp hmem with hmem | hmem
    · obtain ⟨kind, hsub⟩ := h.noOther id callback hmem
      exact ⟨kind, hsub.trans (sublist_append_left _ _)⟩
    · exact absurd (mem_singleton.mp hmem).symm (he _ _)

/-- A delivery that runs the standing callback of its timer. -/
theorem Faithful.deliver {n : Nat} (h : Faithful log) (hreg : Registry n log) (id : CallbackId) :
    Faithful (log ++ [.delivered id (standing log id)]) := by
  -- A callback stands under the id of its registration only.
  have hid : ∀ {kind id' id'' callback}, Event.set kind id' callback ∈ log →
      standing log id'' = some callback → id'' = id' := by
    intro kind id' id'' callback hmem hstanding
    obtain ⟨kind', hmem'⟩ := hreg.standing id'' callback hstanding
    rw [(hreg.number _ _ _ hmem).2, (hreg.number _ _ _ hmem').2]
  refine ⟨?_, ?_, ?_, ?_⟩
  · intro kind id' callback id'' hsub
    rcases sublist_concat (p := [Event.set kind id' callback, .cleared id']) hsub with
      hsub | ⟨hpair, heq⟩
    · exact h.cleared kind id' callback id'' hsub
    · obtain ⟨rfl, hran⟩ := Event.delivered.inj heq
      cases hid (hpair.subset mem_cons_self) hran.symm
      exact hreg.cleared kind _ callback hpair hran.symm
  · intro kind id' callback id'' hsub
    rcases sublist_concat (p := [Event.set kind id' callback, .reset]) hsub with
      hsub | ⟨hpair, heq⟩
    · exact h.reset kind id' callback id'' hsub
    · obtain ⟨rfl, hran⟩ := Event.delivered.inj heq
      cases hid (hpair.subset mem_cons_self) hran.symm
      exact hreg.reset kind _ callback hpair hran.symm
  · intro before id' ran after heq kind callback first since hbefore hcleared hreset
    rcases split_concat heq with ⟨rfl, hlast, -⟩ | ⟨after, rfl, hlog⟩
    · obtain ⟨rfl, rfl⟩ := Event.delivered.inj hlast
      exact hreg.since first kind _ callback since hbefore hcleared hreset
    · exact h.own before id' ran after hlog kind callback first since hbefore hcleared hreset
  · intro id' callback hmem
    rcases mem_append.mp hmem with hmem | hmem
    · obtain ⟨kind, hsub⟩ := h.noOther id' callback hmem
      exact ⟨kind, hsub.trans (sublist_append_left _ _)⟩
    · obtain ⟨rfl, hran⟩ := Event.delivered.inj (mem_singleton.mp hmem)
      obtain ⟨kind, hmem⟩ := hreg.standing _ callback hran.symm
      rw [← hran]
      exact ⟨kind, (singleton_sublist.mpr hmem).append (List.Sublist.refl _)⟩

end OpenWorkers.Scheduler.Timers
