import Mathlib.Tactic.Abel

/-!
# Runs of a deterministic transition system

A system is a state type, an action type and a total step function; nondeterminism lives in the choice of
actions. An admissible run is one whose every action meets a side condition in the state it is taken in.
An invariant kept by each admissible action holds after every admissible run, and a quantity that each
action changes by a known amount has changed by the sum of these amounts.

Every prefix of an admissible run is admissible, so a statement about the final state of all admissible
runs is one about every state that such a run reaches.
-/

namespace Espx.Foundation

open List

variable {S A M : Type*} {step : S → A → S} {actions : List A} {ok : S → A → Prop} {s : S}

/-- Execute the actions in order. -/
def run (step : S → A → S) (s : S) : List A → S
  | [] => s
  | a :: rest => run step (step s a) rest

/-- Every action of the run meets `ok` in the state it is taken in. -/
def Admissible (ok : S → A → Prop) (step : S → A → S) (s : S) : List A → Prop
  | [] => True
  | a :: rest => ok s a ∧ Admissible ok step (step s a) rest

/-- Admissibility of a concrete run is decided action by action. -/
instance decidableAdmissible (ok : S → A → Prop) [∀ s a, Decidable (ok s a)] (step : S → A → S) :
    (s : S) → (actions : List A) → Decidable (Admissible ok step s actions)
  | _, [] => .isTrue trivial
  | s, a :: rest =>
    @instDecidableAnd _ _ _ (decidableAdmissible ok step (step s a) rest)

/-- The amounts `gain` of all actions of a run, each taken in the state it is executed in. -/
def runTotal [AddCommMonoid M] (gain : S → A → M) (step : S → A → S) (s : S) : List A → M
  | [] => 0
  | a :: rest => gain s a + runTotal gain step (step s a) rest

/-- Executing a concatenation is executing its parts one after the other. -/
theorem run_append (step : S → A → S) (s : S) (first second : List A) :
    run step s (first ++ second) = run step (run step s first) second := by
  induction first generalizing s with
  | nil => rfl
  | cons a rest ih => exact ih (step s a)

/-- A prefix of an admissible run is admissible. -/
theorem Admissible.left {first second : List A}
    (h : Admissible ok step s (first ++ second)) : Admissible ok step s first := by
  induction first generalizing s with
  | nil => trivial
  | cons a rest ih => exact ⟨h.1, ih h.2⟩

/-- A run whose actions all meet a condition on actions alone is admissible. -/
theorem Admissible.of_forall {ok : A → Prop} {step : S → A → S} {actions : List A}
    (h : ∀ a ∈ actions, ok a) (s : S) : Admissible (fun _ a => ok a) step s actions := by
  induction actions generalizing s with
  | nil => trivial
  | cons a rest ih =>
    exact ⟨h a mem_cons_self, ih (fun b hb => h b (mem_cons_of_mem a hb)) (step s a)⟩

/-- Two conditions that a run meets are met together. -/
theorem Admissible.and {ok ok' : S → A → Prop}
    (h : Admissible ok step s actions) (h' : Admissible ok' step s actions) :
    Admissible (fun s a => ok s a ∧ ok' s a) step s actions := by
  induction actions generalizing s with
  | nil => trivial
  | cons a rest ih => exact ⟨⟨h.1, h'.1⟩, ih h.2 h'.2⟩

/-- A run is admissible when each action meets the condition after the actions before it. -/
theorem admissible_iff_forall :
    Admissible ok step s actions ↔ ∀ done a, done ++ [a] <+: actions → ok (run step s done) a := by
  induction actions generalizing s with
  | nil =>
    refine ⟨fun _ done a h => ?_, fun _ => trivial⟩
    have hnil := prefix_nil.mp h
    simp at hnil
  | cons first rest ih =>
    constructor
    · intro h done a hdone
      cases done with
      | nil =>
        rw [nil_append, cons_prefix_cons] at hdone
        rw [hdone.1]
        exact h.1
      | cons b done =>
        rw [cons_append, cons_prefix_cons] at hdone
        rw [hdone.1]
        exact ih.mp h.2 done a hdone.2
    · intro h
      refine ⟨h [] first (cons_prefix_cons.mpr ⟨rfl, nil_prefix⟩), ih.mpr ?_⟩
      intro done a hdone
      exact h (first :: done) a (cons_prefix_cons.mpr ⟨rfl, hdone⟩)

/-- An invariant kept by each admissible action holds after every admissible run. -/
theorem Admissible.invariant {ok : S → A → Prop} {step : S → A → S} {inv : S → Prop}
    (hstep : ∀ s a, ok s a → inv s → inv (step s a)) {s : S} {actions : List A}
    (hrun : Admissible ok step s actions) (hinit : inv s) : inv (run step s actions) := by
  induction actions generalizing s with
  | nil => exact hinit
  | cons a rest ih => exact ih hrun.2 (hstep s a hrun.1 hinit)

/-- A law of the steps from the states of an invariant. -/
theorem Admissible.law {ok law : S → A → Prop} {inv : S → Prop}
    (hstep : ∀ s a, ok s a → inv s → inv (step s a)) (hlaw : ∀ s a, ok s a → inv s → law s a)
    (hrun : Admissible ok step s actions) (hinit : inv s) : Admissible law step s actions := by
  induction actions generalizing s with
  | nil => trivial
  | cons a rest ih => exact ⟨hlaw s a hrun.1 hinit, ih hrun.2 (hstep s a hrun.1 hinit)⟩

/-- Where a valid action that is not admissible breaks `good` at once, `good` holds in every state of a
valid run exactly when the run is admissible. -/
theorem forall_reached_iff_admissible {valid ok : S → A → Prop} {step : S → A → S}
    {inv good : S → Prop} (hgood : ∀ s, inv s → good s)
    (hstep : ∀ s a, valid s a → ok s a → inv s → inv (step s a))
    (hbreak : ∀ s a, valid s a → inv s → good (step s a) → ok s a) {s : S} (hinit : inv s)
    {actions : List A} (hvalid : Admissible valid step s actions) :
    (∀ done, done <+: actions → good (run step s done)) ↔ Admissible ok step s actions := by
  constructor
  · intro hall
    induction actions generalizing s with
    | nil => trivial
    | cons a rest ih =>
      have hok : ok s a := hbreak s a hvalid.1 hinit (hall [a] (cons_prefix_cons.mpr ⟨rfl, nil_prefix⟩))
      refine ⟨hok, ih (hstep s a hvalid.1 hok hinit) hvalid.2 ?_⟩
      intro done hdone
      exact hall (a :: done) (cons_prefix_cons.mpr ⟨rfl, hdone⟩)
  · intro hrun done hdone
    obtain ⟨rest, rfl⟩ := hdone
    have hboth := hvalid.left.and hrun.left
    exact hgood _ (hboth.invariant (fun s a hok => hstep s a hok.1 hok.2) hinit)

/-- What the actions of a run put out, in order. -/
def outputs {O : Type*} (out : S → A → List O) (step : S → A → S) (s : S) : List A → List O
  | [] => []
  | a :: rest => out s a ++ outputs out step (step s a) rest

/-- A queue whose steps take from its front and add at its end puts out what went in, in order. -/
theorem Admissible.outputs {O : Type*} {inv : S → Prop} {queue : S → List O} {out inp : S → A → List O}
    (hstep : ∀ s a, ok s a → inv s → inv (step s a))
    (hqueue : ∀ s a, ok s a → inv s → out s a ++ queue (step s a) = queue s ++ inp s a)
    (hrun : Admissible ok step s actions) (hinit : inv s) :
    outputs out step s actions ++ queue (run step s actions) = queue s ++ outputs inp step s actions := by
  induction actions generalizing s with
  | nil => exact (append_nil _).symm
  | cons a rest ih =>
    change out s a ++ _ ++ queue (run step (step s a) rest) = queue s ++ (inp s a ++ _)
    rw [append_assoc, ih hrun.2 (hstep s a hrun.1 hinit), ← append_assoc, hqueue s a hrun.1 hinit,
      append_assoc]

/-- An invariant kept by every action holds after every run. -/
theorem run_invariant {step : S → A → S} {inv : S → Prop}
    (hstep : ∀ s a, inv s → inv (step s a)) {s : S} (hinit : inv s) (actions : List A) :
    inv (run step s actions) := by
  induction actions generalizing s with
  | nil => exact hinit
  | cons a rest ih => exact ih (hstep s a hinit)

/-- A quantity that each admissible action changes by its gain has changed by the total gain. -/
theorem Admissible.quantity [AddCommMonoid M] {quantity : S → M} {gain : S → A → M}
    (hstep : ∀ s a, ok s a → quantity (step s a) = quantity s + gain s a)
    (hrun : Admissible ok step s actions) :
    quantity (run step s actions) = quantity s + runTotal gain step s actions := by
  induction actions generalizing s with
  | nil => exact (add_zero _).symm
  | cons a rest ih =>
    change quantity (run step (step s a) rest) = _
    rw [ih hrun.2, hstep s a hrun.1, runTotal, add_assoc]

/-- A quantity that every action changes by its gain has changed by the total gain. -/
theorem run_quantity [AddCommMonoid M] {step : S → A → S} {quantity : S → M} {gain : S → A → M}
    (hstep : ∀ s a, quantity (step s a) = quantity s + gain s a) (s : S) (actions : List A) :
    quantity (run step s actions) = quantity s + runTotal gain step s actions :=
  (@Admissible.of_forall _ _ (fun _ => True) _ actions (fun _ _ => trivial) s).quantity
    (fun s a _ => hstep s a)

/-- The total of a difference is the difference of the totals. -/
theorem runTotal_sub [AddCommGroup M] (gain loss : S → A → M) (step : S → A → S) (s : S)
    (actions : List A) :
    runTotal (fun s a => gain s a - loss s a) step s actions =
      runTotal gain step s actions - runTotal loss step s actions := by
  induction actions generalizing s with
  | nil => exact (sub_zero _).symm
  | cons a rest ih =>
    simp only [runTotal, ih]
    abel

section

variable {step : S → A → S} {P Q : S → Prop} {s : S}

/-- Some continuation leads to a state with the property. -/
def CanReach (step : S → A → S) (P : S → Prop) (s : S) : Prop := ∃ actions, P (run step s actions)

/-- Nothing needs to be done. -/
theorem CanReach.here (h : P s) : CanReach step P s := ⟨[], h⟩

/-- After one action. -/
theorem CanReach.after (a : A) (h : CanReach step P (step s a)) : CanReach step P s := by
  obtain ⟨actions, hacts⟩ := h
  exact ⟨a :: actions, hacts⟩

/-- One stage after the other. -/
theorem CanReach.trans (h : CanReach step Q s) (hnext : ∀ s, Q s → CanReach step P s) :
    CanReach step P s := by
  obtain ⟨first, hfirst⟩ := h
  obtain ⟨second, hsnd⟩ := hnext _ hfirst
  refine ⟨first ++ second, ?_⟩
  rwa [run_append]

/-- What every action keeps cannot be left. -/
theorem not_canReach_of_kept {stuck : S → Prop} (hstep : ∀ s a, stuck s → stuck (step s a))
    (hstuck : ∀ s, stuck s → ¬ P s) (h : stuck s) : ¬ CanReach step P s := by
  rintro ⟨actions, hacts⟩
  exact hstuck _ (run_invariant hstep h actions) hacts

end

section

variable {E : Type*} {ok : List E → E → Prop} {before after : List E}

/-- Every event of a trace is justified by the events before it. -/
def Justified (ok : List E → E → Prop) (trace : List E) : Prop :=
  ∀ before e after, trace = before ++ e :: after → ok before e

/-- Events that the trace so far justifies may follow it. -/
theorem Justified.append (hmono : ∀ s t e, s ⊆ t → ok s e → ok t e) (hpre : Justified ok before)
    (hafter : ∀ e ∈ after, ok before e) : Justified ok (before ++ after) := by
  intro s e t h
  rcases append_eq_append_iff.mp h with ⟨u, hs, ht⟩ | ⟨u, hs, ht⟩
  · apply hmono before s e
    · rw [hs]
      exact subset_append_left before u
    · exact hafter e (by rw [ht]; simp)
  cases u with
  | nil =>
    rw [append_nil] at hs
    rw [nil_append] at ht
    rw [← hs]
    exact hafter e (by rw [← ht]; exact mem_cons_self)
  | cons x u =>
    obtain ⟨rfl, -⟩ := List.cons.inj ht
    exact hpre s e u hs

/-- An event that the trace so far justifies may follow it. -/
theorem Justified.concat (hpre : Justified ok before) {e : E} (he : ok before e) :
    Justified ok (before ++ [e]) := by
  intro s x t h
  rcases eq_nil_or_concat t with rfl | ⟨t, last, rfl⟩
  · obtain ⟨rfl, hx⟩ := append_inj' h rfl
    exact (List.cons.inj hx).1 ▸ he
  · have hsplit : before ++ [e] = (s ++ x :: t) ++ [last] := by
      rw [h, concat_eq_append, append_assoc, cons_append]
    exact hpre s x t (append_inj' hsplit rfl).1

end

end Espx.Foundation
