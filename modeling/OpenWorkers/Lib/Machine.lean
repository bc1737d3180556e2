import Mathlib.Logic.Basic
import Mathlib.Data.Option.Basic
import Mathlib.Data.List.Basic

/-!
# Machines and their runs

A `Machine` is an initial state together with a *partial* step function: `step s a`
is `none` when the action `a` is not possible in the state `s`.  Every choice that is
not the program's own (which task runs next, what the environment answers, when it
arrives) is part of the action, so a list of actions determines a run, and a run is a
value that can be evaluated.

The library has five proof rules.

* `Machine.invariant`: what holds initially and is kept by every step holds at the end
  of every run.
* `Machine.invariant_of_meets`: the same for the runs all of whose steps meet a
  condition on the state *before* the step and on the action.
* `Machine.iff_meets`: where a step that does not meet the condition breaks the property
  for good, the runs that keep the property are exactly those whose steps meet it.
  `Machine.always_iff_meets` is the same rule for a property that may come back, asked of
  every state of the run.
* `Machine.reaches_of_measure`: where steps that make a measure smaller are possible until a
  goal is there, such steps lead to the goal.
* `Machine.length_le_measure`: where every step makes a measure smaller, runs are bounded.

A prefix of a run is a run, so a statement about the last state of every run is a statement
about every state of every run.
-/

universe u v

namespace OpenWorkers

open List

/-- An initial state and a partial step function. -/
structure Machine (σ : Type u) (α : Type v) where
  /-- The state in which every run starts. -/
  init : σ
  /-- One step; `none` when the action is not possible. -/
  step : σ → α → Option σ

namespace Machine

variable {σ : Type u} {α : Type v} {m : Machine σ α}

/-- Perform the actions one after the other, from a given state. -/
def runFrom (m : Machine σ α) : σ → List α → Option σ
  | s, [] => some s
  | s, a :: as => (m.step s a).bind fun s' => m.runFrom s' as

/-- Perform the actions one after the other, from the initial state. -/
def run (m : Machine σ α) (as : List α) : Option σ := m.runFrom m.init as

@[simp] theorem runFrom_nil (s : σ) : m.runFrom s [] = some s := rfl

theorem runFrom_cons (s : σ) (a : α) (as : List α) :
    m.runFrom s (a :: as) = (m.step s a).bind fun s' => m.runFrom s' as := rfl

theorem runFrom_cons_eq_some {s t : σ} {a : α} {as : List α} :
    m.runFrom s (a :: as) = some t ↔ ∃ s', m.step s a = some s' ∧ m.runFrom s' as = some t := by
  rw [runFrom_cons, Option.bind_eq_some_iff]

theorem runFrom_append {s t : σ} {as bs : List α} (h : m.runFrom s as = some t) :
    m.runFrom s (as ++ bs) = m.runFrom t bs := by
  induction as generalizing s with
  | nil =>
      cases h
      rfl
  | cons a as ih =>
      obtain ⟨s', hstep, hrest⟩ := runFrom_cons_eq_some.mp h
      rw [cons_append, runFrom_cons, hstep]
      exact ih hrest

theorem run_append {t : σ} {as bs : List α} (h : m.run as = some t) :
    m.run (as ++ bs) = m.runFrom t bs :=
  runFrom_append h

theorem runFrom_concat_eq_some {s t : σ} {a : α} {as : List α} :
    m.runFrom s (as ++ [a]) = some t ↔ ∃ r, m.runFrom s as = some r ∧ m.step r a = some t := by
  induction as generalizing s with
  | nil => simp [runFrom_cons]
  | cons b as ih =>
      rw [cons_append, runFrom_cons, runFrom_cons]
      cases m.step s b with
      | none => simp
      | some s' => exact ih

/-! ## Conditions on the steps of a run -/

/-- Every step of the run from `s` meets the condition `G`, which reads the state
before the step and the action. -/
def Meets (m : Machine σ α) (G : σ → α → Prop) : σ → List α → Prop
  | _, [] => True
  | s, a :: as => G s a ∧ match m.step s a with
    | none => True
    | some s' => m.Meets G s' as

instance decidableMeets (m : Machine σ α) (G : σ → α → Prop) [∀ s a, Decidable (G s a)] :
    ∀ (s : σ) (as : List α), Decidable (m.Meets G s as)
  | _, [] => inferInstanceAs (Decidable True)
  | s, a :: as =>
      match h : m.step s a with
      | none => decidable_of_iff (G s a) (by simp [Meets, h])
      | some s' =>
          have := decidableMeets m G s' as
          decidable_of_iff (G s a ∧ m.Meets G s' as) (by simp [Meets, h])

theorem meets_cons {G : σ → α → Prop} {s s' : σ} {a : α} {as : List α}
    (hs : m.step s a = some s') : m.Meets G s (a :: as) ↔ G s a ∧ m.Meets G s' as := by
  rw [Meets, hs]

theorem meets_append {G : σ → α → Prop} {s t : σ} {as bs : List α} (h : m.runFrom s as = some t) :
    m.Meets G s (as ++ bs) ↔ m.Meets G s as ∧ m.Meets G t bs := by
  induction as generalizing s with
  | nil =>
      cases h
      exact (and_iff_right trivial).symm
  | cons a as ih =>
      obtain ⟨s', hstep, hrest⟩ := runFrom_cons_eq_some.mp h
      rw [cons_append, meets_cons hstep, meets_cons hstep, ih hrest, and_assoc]

theorem meets_of_forall_mem {G : σ → α → Prop} {as : List α} (s : σ)
    (h : ∀ s, ∀ a ∈ as, G s a) : m.Meets G s as := by
  induction as generalizing s with
  | nil => trivial
  | cons a as ih =>
      refine ⟨h s a mem_cons_self, ?_⟩
      cases m.step s a with
      | none => trivial
      | some s' => exact ih s' fun t b hb => h t b (mem_cons_of_mem a hb)

/-- A condition on the actions alone is met by a run if all its actions meet it. -/
theorem meets_iff_forall_mem {G : α → Prop} {as : List α} {s t : σ}
    (h : m.runFrom s as = some t) : m.Meets (fun _ a => G a) s as ↔ ∀ a ∈ as, G a := by
  induction as generalizing s with
  | nil => exact iff_of_true trivial nofun
  | cons a as ih =>
      obtain ⟨s', hstep, hrest⟩ := runFrom_cons_eq_some.mp h
      rw [meets_cons hstep, ih hrest, forall_mem_cons]

/-- A condition on the steps of a run, read at each of them. -/
theorem meets_iff_forall_step {G : σ → α → Prop} {s : σ} {as : List α} :
    m.Meets G s as ↔ ∀ before a after t, as = before ++ a :: after →
      m.runFrom s before = some t → G t a := by
  induction as generalizing s with
  | nil => exact iff_of_true trivial fun before a after t has => by simp at has
  | cons b as ih =>
      constructor
      · rintro ⟨hb, hrest⟩ before a after t has hrun
        cases before with
        | nil =>
            cases has
            cases hrun
            exact hb
        | cons c before =>
            cases has
            obtain ⟨s', hstep, hrun⟩ := runFrom_cons_eq_some.mp hrun
            rw [hstep] at hrest
            exact ih.mp hrest before a after t rfl hrun
      · intro h
        refine ⟨h [] b as s rfl rfl, ?_⟩
        cases hstep : m.step s b with
        | none => trivial
        | some s' =>
            refine ih.mpr fun before a after t has hrun => ?_
            exact h (b :: before) a after t (congrArg (b :: ·) has)
              (runFrom_cons_eq_some.mpr ⟨s', hstep, hrun⟩)

/-! ## Proof rules -/

/-- What the steps that meet `G` keep holds after every run whose steps meet `G`. -/
theorem invariant_from_of_meets {G : σ → α → Prop} {I : σ → Prop}
    (step : ∀ s a s', I s → G s a → m.step s a = some s' → I s')
    {as : List α} {s t : σ} (hs : I s) (hG : m.Meets G s as) (h : m.runFrom s as = some t) :
    I t := by
  induction as generalizing s with
  | nil =>
      cases h
      exact hs
  | cons a as ih =>
      obtain ⟨s', hstep, hrest⟩ := runFrom_cons_eq_some.mp h
      obtain ⟨hGa, hGrest⟩ := (meets_cons hstep).mp hG
      exact ih (step s a s' hs hGa hstep) hGrest hrest

/-- **Invariants of guarded runs.**  What holds initially and is kept by the steps that
meet `G` holds at the end of every run all of whose steps meet `G`. -/
theorem invariant_of_meets {G : σ → α → Prop} {I : σ → Prop} (init : I m.init)
    (step : ∀ s a s', I s → G s a → m.step s a = some s' → I s')
    {as : List α} {t : σ} (hG : m.Meets G m.init as) (h : m.run as = some t) : I t :=
  invariant_from_of_meets step init hG h

/-- If a step that does not meet `G` is all that breaks `I`, and breaks it for good, then a
run keeps `I` exactly when all its steps meet `G`. -/
theorem iff_meets_from {G : σ → α → Prop} {I : σ → Prop}
    (step : ∀ s a s', m.step s a = some s' → (I s' ↔ I s ∧ G s a))
    {as : List α} {s t : σ} (h : m.runFrom s as = some t) : I t ↔ I s ∧ m.Meets G s as := by
  induction as generalizing s with
  | nil =>
      cases h
      exact (and_iff_left trivial).symm
  | cons a as ih =>
      obtain ⟨s', hstep, hrest⟩ := runFrom_cons_eq_some.mp h
      rw [ih hrest, step s a s' hstep, meets_cons hstep, and_assoc]

/-- **Exact conditions.**  The rule for the runs from the initial state. -/
theorem iff_meets {G : σ → α → Prop} {I : σ → Prop} (init : I m.init)
    (step : ∀ s a s', m.step s a = some s' → (I s' ↔ I s ∧ G s a))
    {as : List α} {t : σ} (h : m.run as = some t) : I t ↔ m.Meets G m.init as :=
  (iff_meets_from step h).trans (and_iff_right init)

/-- What every step keeps holds after every run from a state in which it holds. -/
theorem invariant_from {I : σ → Prop} (step : ∀ s a s', I s → m.step s a = some s' → I s')
    {as : List α} {s t : σ} (hs : I s) (h : m.runFrom s as = some t) : I t := by
  induction as generalizing s with
  | nil =>
      cases h
      exact hs
  | cons a as ih =>
      obtain ⟨s', hstep, hrest⟩ := runFrom_cons_eq_some.mp h
      exact ih (step s a s' hs hstep) hrest

/-- **Invariants of runs.**  What holds initially and is kept by every step holds at the
end of every run. -/
theorem invariant {I : σ → Prop} (init : I m.init)
    (step : ∀ s a s', I s → m.step s a = some s' → I s')
    {as : List α} {t : σ} (h : m.run as = some t) : I t :=
  invariant_from step init h

/-! ## Every state of a run -/

/-- Every state of the run from `s`, the first one included, has the property. -/
def Always (m : Machine σ α) (P : σ → Prop) : σ → List α → Prop
  | s, [] => P s
  | s, a :: as => P s ∧ match m.step s a with
    | none => True
    | some s' => m.Always P s' as

theorem always_cons {P : σ → Prop} {s s' : σ} {a : α} {as : List α}
    (hs : m.step s a = some s') : m.Always P s (a :: as) ↔ P s ∧ m.Always P s' as := by
  rw [Always, hs]

theorem Always.head {P : σ → Prop} {s : σ} {as : List α} (h : m.Always P s as) : P s := by
  cases as with
  | nil => exact h
  | cons a as => exact h.1

theorem Always.last {P : σ → Prop} {s t : σ} {as : List α} (h : m.Always P s as)
    (hrun : m.runFrom s as = some t) : P t := by
  induction as generalizing s with
  | nil =>
      cases hrun
      exact h
  | cons a as ih =>
      obtain ⟨s', hstep, hrest⟩ := runFrom_cons_eq_some.mp hrun
      exact ih ((always_cons hstep).mp h).2 hrest

/-- If the steps that meet `G` are exactly those that keep `P`, then a run keeps `P` in all its
states exactly when all its steps meet `G`. -/
theorem always_iff_meets_from {I P : σ → Prop} {G : σ → α → Prop}
    (inv : ∀ s a s', I s → m.step s a = some s' → I s')
    (step : ∀ s a s', I s → P s → m.step s a = some s' → (P s' ↔ G s a))
    {as : List α} {s t : σ} (hI : I s) (hP : P s) (h : m.runFrom s as = some t) :
    m.Always P s as ↔ m.Meets G s as := by
  induction as generalizing s with
  | nil => exact iff_of_true hP trivial
  | cons a as ih =>
      obtain ⟨s', hstep, hrest⟩ := runFrom_cons_eq_some.mp h
      rw [always_cons hstep, meets_cons hstep, ← step s a s' hI hP hstep, and_iff_right hP]
      constructor
      · intro halways
        exact ⟨halways.head, (ih (inv s a s' hI hstep) halways.head hrest).mp halways⟩
      · rintro ⟨hP', hmeets⟩
        exact (ih (inv s a s' hI hstep) hP' hrest).mpr hmeets

/-- **Exact conditions on every state.**  The rule for the runs from the initial state. -/
theorem always_iff_meets {I P : σ → Prop} {G : σ → α → Prop} (init : I m.init) (initP : P m.init)
    (inv : ∀ s a s', I s → m.step s a = some s' → I s')
    (step : ∀ s a s', I s → P s → m.step s a = some s' → (P s' ↔ G s a))
    {as : List α} {t : σ} (h : m.run as = some t) : m.Always P m.init as ↔ m.Meets G m.init as :=
  always_iff_meets_from inv step init initP h

/-- Some state of the run from `s`, the first one included, has the property. -/
def Visits (m : Machine σ α) (P : σ → Prop) (s : σ) (as : List α) : Prop :=
  ∃ bs cs t, as = bs ++ cs ∧ m.runFrom s bs = some t ∧ P t

/-! ## Progress -/

/-- Steps that meet `G` lead from `s` to `t`. -/
def Reaches (m : Machine σ α) (G : σ → α → Prop) (s t : σ) : Prop :=
  ∃ as, m.runFrom s as = some t ∧ m.Meets G s as

namespace Reaches

variable {G : σ → α → Prop} {r s t : σ}

theorem refl (s : σ) : m.Reaches G s s := ⟨[], rfl, trivial⟩

theorem head {a : α} (hstep : m.step r a = some s) (hG : G r a) (h : m.Reaches G s t) :
    m.Reaches G r t := by
  obtain ⟨as, hrun, hmeets⟩ := h
  refine ⟨a :: as, ?_, (meets_cons hstep).mpr ⟨hG, hmeets⟩⟩
  rw [runFrom_cons, hstep]
  exact hrun

theorem trans (h : m.Reaches G r s) (h' : m.Reaches G s t) : m.Reaches G r t := by
  obtain ⟨as, hrun, hmeets⟩ := h
  induction as generalizing r with
  | nil =>
      cases hrun
      exact h'
  | cons a as ih =>
      obtain ⟨r', hstep, hrest⟩ := runFrom_cons_eq_some.mp hrun
      obtain ⟨hG, hmeets⟩ := (meets_cons hstep).mp hmeets
      exact head hstep hG (ih hrest hmeets)

end Reaches

/-- **Progress.**  If a step that meets `G` and makes `measure` smaller is possible as long as
`Q` does not hold, and keeps `I`, then such steps lead to a state in which `Q` holds. -/
theorem reaches_of_measure {G : σ → α → Prop} {I Q : σ → Prop} (measure : σ → Nat)
    (step : ∀ s, I s → Q s ∨
      ∃ a s', G s a ∧ m.step s a = some s' ∧ I s' ∧ measure s' < measure s)
    {s : σ} (hs : I s) : ∃ t, m.Reaches G s t ∧ I t ∧ Q t := by
  induction hn : measure s using Nat.strongRecOn generalizing s with
  | _ n ih =>
    rcases step s hs with hQ | ⟨a, s', hG, hstep, hs', hlt⟩
    · exact ⟨s, .refl s, hs, hQ⟩
    · obtain ⟨t, hreaches, ht⟩ := ih (measure s') (hn ▸ hlt) hs' rfl
      exact ⟨t, .head hstep hG hreaches, ht⟩

/-- **Bounded runs.**  If the steps that meet `G` keep `I` and make `measure` smaller, then no run
of such steps is longer than the measure. -/
theorem length_le_measure {G : σ → α → Prop} {I : σ → Prop} (measure : σ → Nat)
    (step : ∀ s a s', I s → G s a → m.step s a = some s' → I s' ∧ measure s' < measure s)
    {as : List α} {s t : σ} (hs : I s) (hG : m.Meets G s as) (h : m.runFrom s as = some t) :
    as.length ≤ measure s := by
  induction as generalizing s with
  | nil => exact Nat.zero_le _
  | cons a as ih =>
      obtain ⟨s', hstep, hrest⟩ := runFrom_cons_eq_some.mp h
      obtain ⟨hGa, hGrest⟩ := (meets_cons hstep).mp hG
      obtain ⟨hs', hlt⟩ := step s a s' hs hGa hstep
      exact Nat.lt_of_le_of_lt (ih hs' hGrest hrest) hlt

end Machine

end OpenWorkers
