import OpenWorkers.Lib.Machine
import Mathlib.Data.List.Basic

/-!
# The log of a run

A property of runs often speaks of what happened, not of the state that is left: who was
served, what was sent.  `Machine.log` collects what an observer sees of each step, from the
state before the step and the action.  The machine itself keeps no history.

`Machine.invariant_log` is the rule for properties that relate the state to the log, and
`Machine.invariant_log_of_meets` the one for the runs all of whose steps meet a condition.
That some events do not follow each other in a log is said with `List.Sublist`; the lemmas of
"Order of events" take such a statement from a log to the log with one more event.  `Since` is
about what a log says after the last event of a kind, and `upTo` is what it says up to an event.
-/

universe u v w

namespace OpenWorkers.Machine

variable {σ : Type u} {α : Type v} {β : Type w} {m : Machine σ α}

/-- What an observer sees of the steps of a run from `s`. -/
def logFrom (m : Machine σ α) (observe : σ → α → List β) : σ → List α → List β
  | _, [] => []
  | s, a :: as =>
    match m.step s a with
    | none => []
    | some s' => observe s a ++ m.logFrom observe s' as

/-- What an observer sees of the steps of a run. -/
def log (m : Machine σ α) (observe : σ → α → List β) (as : List α) : List β :=
  m.logFrom observe m.init as

theorem logFrom_cons {observe : σ → α → List β} {s s' : σ} {a : α} {as : List α}
    (h : m.step s a = some s') :
    m.logFrom observe s (a :: as) = observe s a ++ m.logFrom observe s' as := by
  rw [logFrom, h]

theorem logFrom_append {observe : σ → α → List β} {s t : σ} {as bs : List α}
    (h : m.runFrom s as = some t) :
    m.logFrom observe s (as ++ bs) = m.logFrom observe s as ++ m.logFrom observe t bs := by
  induction as generalizing s with
  | nil =>
      cases h
      rfl
  | cons a as ih =>
      obtain ⟨s', hstep, hrest⟩ := runFrom_cons_eq_some.mp h
      rw [List.cons_append, logFrom_cons hstep, logFrom_cons hstep, ih hrest, List.append_assoc]

/-- What is seen of a run that goes on. -/
theorem log_append {observe : σ → α → List β} {t : σ} {as bs : List α} (h : m.run as = some t) :
    m.log observe (as ++ bs) = m.log observe as ++ m.logFrom observe t bs :=
  logFrom_append h

/-- What is seen of a run is seen of one of its steps. -/
theorem exists_of_mem_logFrom {observe : σ → α → List β} {s t : σ} {as : List α} {x : β}
    (h : m.runFrom s as = some t) (hx : x ∈ m.logFrom observe s as) :
    ∃ bs a cs r r', as = bs ++ a :: cs ∧ m.runFrom s bs = some r ∧ m.step r a = some r' ∧
      x ∈ observe r a := by
  induction as generalizing s with
  | nil => cases hx
  | cons a as ih =>
      obtain ⟨s', hstep, hrest⟩ := runFrom_cons_eq_some.mp h
      rw [logFrom_cons hstep] at hx
      rcases List.mem_append.mp hx with hx | hx
      · exact ⟨[], a, as, s, s', rfl, rfl, hstep, hx⟩
      · obtain ⟨bs, b, cs, r, r', rfl, hrun, hstep', hmem⟩ := ih hrest hx
        refine ⟨a :: bs, b, cs, r, r', rfl, ?_, hstep', hmem⟩
        rw [runFrom_cons, hstep]
        exact hrun

theorem invariant_logFrom_of_meets {observe : σ → α → List β} {G : σ → α → Prop}
    {I : σ → List β → Prop}
    (step : ∀ s log a s', I s log → G s a → m.step s a = some s' → I s' (log ++ observe s a))
    {as : List α} {s t : σ} {log : List β} (hs : I s log) (hG : m.Meets G s as)
    (h : m.runFrom s as = some t) : I t (log ++ m.logFrom observe s as) := by
  induction as generalizing s log with
  | nil =>
      cases h
      rw [logFrom, List.append_nil]
      exact hs
  | cons a as ih =>
      obtain ⟨s', hstep, hrest⟩ := runFrom_cons_eq_some.mp h
      obtain ⟨hGa, hGrest⟩ := (meets_cons hstep).mp hG
      rw [logFrom_cons hstep, ← List.append_assoc]
      exact ih (step s log a s' hs hGa hstep) hGrest hrest

/-- The rule for all runs from a state. -/
theorem invariant_logFrom {observe : σ → α → List β} {I : σ → List β → Prop}
    (step : ∀ s log a s', I s log → m.step s a = some s' → I s' (log ++ observe s a))
    {as : List α} {s t : σ} {log : List β} (hs : I s log) (h : m.runFrom s as = some t) :
    I t (log ++ m.logFrom observe s as) :=
  invariant_logFrom_of_meets (G := fun _ _ => True)
    (fun s log a s' hs _ hstep => step s log a s' hs hstep) hs
    (meets_of_forall_mem s fun _ _ _ => trivial) h

/-- **Invariants with a log, of guarded runs.**  What holds initially of the empty log and is
kept by the steps that meet `G`, each of which adds what is seen of it, holds of the last state
and the log of every run all of whose steps meet `G`. -/
theorem invariant_log_of_meets {observe : σ → α → List β} {G : σ → α → Prop}
    {I : σ → List β → Prop} (init : I m.init [])
    (step : ∀ s log a s', I s log → G s a → m.step s a = some s' → I s' (log ++ observe s a))
    {as : List α} {t : σ} (hG : m.Meets G m.init as) (h : m.run as = some t) :
    I t (m.log observe as) := by
  simpa [log] using invariant_logFrom_of_meets step init hG h

/-- **Invariants with a log.**  The rule for all runs. -/
theorem invariant_log {observe : σ → α → List β} {I : σ → List β → Prop} (init : I m.init [])
    (step : ∀ s log a s', I s log → m.step s a = some s' → I s' (log ++ observe s a))
    {as : List α} {t : σ} (h : m.run as = some t) : I t (m.log observe as) :=
  invariant_log_of_meets (G := fun _ _ => True) init
    (fun s log a s' hs _ hstep => step s log a s' hs hstep)
    (meets_of_forall_mem m.init fun _ _ _ => trivial) h

end OpenWorkers.Machine

namespace OpenWorkers

variable {β : Type w}

/-! ## Order of events -/

/-- What ends a sequence of events was seen before, or just now. -/
theorem sublist_concat {p l : List β} {a x : β} (h : (p ++ [a]).Sublist (l ++ [x])) :
    (p ++ [a]).Sublist l ∨ p.Sublist l ∧ a = x := by
  obtain ⟨l₁, l₂, heq, h₁, h₂⟩ := List.sublist_append_iff.mp h
  rcases List.sublist_cons_iff.mp h₂ with hnil | ⟨r, rfl, hnil⟩
  · rw [List.sublist_nil] at hnil
    rw [hnil, List.append_nil] at heq
    exact .inl (heq ▸ h₁)
  · rw [List.sublist_nil] at hnil
    rw [hnil] at heq
    obtain ⟨hp, hx⟩ := List.append_inj' heq rfl
    exact .inr ⟨hp ▸ h₁, List.head_eq_of_cons_eq hx⟩

/-- A sequence does not end with another event. -/
theorem sublist_of_concat_ne {p l : List β} {a x : β}
    (h : (p ++ [a]).Sublist (l ++ [x])) (hne : a ≠ x) : (p ++ [a]).Sublist l :=
  (sublist_concat h).resolve_right fun h => hne h.2

/-- An event of a log that has got one more is the new one, or was there with all that was
before it. -/
theorem split_concat {l before after : List β} {e x : β}
    (h : l ++ [e] = before ++ x :: after) :
    (before = l ∧ x = e ∧ after = []) ∨
      ∃ since, after = since ++ [e] ∧ l = before ++ x :: since := by
  rcases after.eq_nil_or_concat' with rfl | ⟨since, y, rfl⟩
  · obtain ⟨hl, hx⟩ := List.append_inj' h rfl
    exact .inl ⟨hl.symm, (List.head_eq_of_cons_eq hx).symm, rfl⟩
  · rw [← List.cons_append, ← List.append_assoc] at h
    obtain ⟨hl, hy⟩ := List.append_inj' h rfl
    exact .inr ⟨since, by rw [List.head_eq_of_cons_eq hy], hl⟩

/-! ## Since an event -/

section Since

variable {stop : β → Bool} {x : β} {log new : List β}

/-- `x` was seen after the last event with `stop`. -/
def Since (stop : β → Bool) (x : β) (log : List β) : Prop :=
  x ∈ log.reverse.takeWhile fun e => !stop e

theorem since_append (hnew : ∀ e ∈ new, stop e = false) :
    Since stop x (log ++ new) ↔ x ∈ new ∨ Since stop x log := by
  have hpos : ∀ e ∈ new.reverse, (!stop e) = true := by
    intro e he
    rw [hnew e (List.mem_reverse.mp he), Bool.not_false]
  rw [Since, List.reverse_append, List.takeWhile_append_of_pos hpos, List.mem_append,
    List.mem_reverse, Since]

theorem not_since_concat {e : β} (he : stop e = true) : ¬ Since stop x (log ++ [e]) := by
  rw [Since, List.reverse_concat, List.takeWhile_cons_of_neg (by rw [he]; decide)]
  exact List.not_mem_nil

theorem Since.mem (h : Since stop x log) : x ∈ log :=
  List.mem_reverse.mp (List.takeWhile_subset _ h)

end Since

/-! ## Up to an event -/

section UpTo

variable {p : β → Bool} {l r x y : List β}

/-- The elements up to the first one with the property, which is the last one. -/
def upTo (p : β → Bool) : List β → List β
  | [] => []
  | a :: l => if p a then [a] else a :: upTo p l

theorem upTo_append_of_any (h : l.any p = true) : upTo p (l ++ r) = upTo p l := by
  induction l with
  | nil => cases h
  | cons a l ih =>
      rw [List.cons_append, upTo, upTo]
      split
      · rfl
      · next ha =>
        rw [List.any_cons, (Bool.not_eq_true _).mp ha, Bool.false_or] at h
        rw [ih h]

theorem upTo_eq_self (h : l.any p = false) : upTo p l = l := by
  induction l with
  | nil => rfl
  | cons a l ih =>
      rw [List.any_cons, Bool.or_eq_false_iff] at h
      rw [upTo, h.1, ih h.2]
      rfl

theorem upTo_append_of_not_any (h : l.any p = false) : upTo p (l ++ r) = l ++ upTo p r := by
  induction l with
  | nil => rfl
  | cons a l ih =>
      rw [List.any_cons, Bool.or_eq_false_iff] at h
      rw [List.cons_append, upTo, h.1, ih h.2]
      rfl

theorem any_upTo (l : List β) : (upTo p l).any p = l.any p := by
  induction l with
  | nil => rfl
  | cons a l ih =>
      rw [upTo]
      split
      · next ha => simp [ha]
      · rw [List.any_cons, List.any_cons, ih]

/-- Lists that agree up to the first such element go on to do so. -/
theorem upTo_append_congr (h : upTo p x = upTo p y) (z : List β) :
    upTo p (x ++ z) = upTo p (y ++ z) := by
  have hany : x.any p = y.any p := by rw [← any_upTo x, h, any_upTo]
  cases hx : x.any p with
  | true => rw [upTo_append_of_any hx, upTo_append_of_any (hany ▸ hx), h]
  | false =>
      rw [upTo_eq_self hx, upTo_eq_self (hany ▸ hx)] at h
      rw [h]

end UpTo

end OpenWorkers
