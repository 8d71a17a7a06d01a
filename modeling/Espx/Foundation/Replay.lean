import Mathlib.Data.List.Basic

/-!
# Replay of what was executed

Items stand in an order, each of them idempotent. As long as an item is executed only while no later one
has been, the state is the one that the executed items give in their order, however often an item is
repeated in between.
-/

namespace Espx.Foundation

open List

variable {S A : Type*}

/-- The state that the executed items give, in the order of the list. -/
def replay (apply : S → A → S) (done : A → Bool) (start : S) (items : List A) : S :=
  (items.filter done).foldl apply start

variable {apply : S → A → S} {done done' : A → Bool} {start : S} {items before after : List A} {item : A}

/-- None of the items is marked. -/
theorem filter_eq_nil_of_unmarked (h : ∀ x ∈ items, done x = false) : items.filter done = [] := by
  apply filter_eq_nil_iff.mpr
  intro x hx
  rw [h x hx]
  exact Bool.false_ne_true

/-- What is kept by a condition that no item meets without the earlier ones. -/
theorem filter_prefix_of_pairwise (h : items.Pairwise fun x later => done later = true → done x = true) :
    items.filter done <+: items := by
  induction items with
  | nil => exact prefix_rfl
  | cons x rest ih =>
    obtain ⟨hfirst, hrest⟩ := pairwise_cons.mp h
    by_cases hx : done x = true
    · rw [filter_cons_of_pos hx]
      exact (prefix_cons_inj x).mpr (ih hrest)
    · have hnone : (x :: rest).filter done = [] := by
        rw [filter_cons_of_neg hx, filter_eq_nil_iff]
        exact fun y hy hdone => hx (hfirst y hy hdone)
      rw [hnone]
      exact nil_prefix

/-- Only the marks of the items matter. -/
theorem replay_congr (h : ∀ x ∈ items, done' x = done x) :
    replay apply done' start items = replay apply done start items := by
  rw [replay, filter_congr h, replay]

/-- A new item changes nothing before it is executed. -/
theorem replay_append_of_not (h : done item = false) :
    replay apply done start (items ++ [item]) = replay apply done start items := by
  rw [replay, filter_append, filter_singleton, h, cond_false, append_nil, replay]

/-- Nothing has been executed. -/
theorem replay_of_none (h : ∀ x ∈ items, done x = false) : replay apply done start items = start := by
  rw [replay, filter_eq_nil_of_unmarked h, foldl_nil]

/-- An item is executed, for the first time or again, while no later one has been. -/
theorem replay_execute (hidem : ∀ s, apply (apply s item) item = apply s item)
    (hpre : ∀ x ∈ before, done' x = done x) (hdone : done' item = true)
    (hafter : ∀ x ∈ after, done x = false ∧ done' x = false) :
    replay apply done' start (before ++ item :: after) =
      apply (replay apply done start (before ++ item :: after)) item := by
  have hlater : after.filter done = [] := filter_eq_nil_of_unmarked fun x hx => (hafter x hx).1
  have hlater' : after.filter done' = [] := filter_eq_nil_of_unmarked fun x hx => (hafter x hx).2
  have hnew : replay apply done' start (before ++ item :: after) =
      apply ((before.filter done).foldl apply start) item := by
    rw [replay, filter_append, filter_cons_of_pos hdone, hlater', filter_congr hpre,
      foldl_append, foldl_cons, foldl_nil]
  have hold : replay apply done start (before ++ item :: after) =
      if done item then apply ((before.filter done).foldl apply start) item
      else (before.filter done).foldl apply start := by
    rw [replay, filter_append, filter_cons, hlater]
    split
    · rw [foldl_append, foldl_cons, foldl_nil]
    · rw [append_nil]
  rw [hnew, hold]
  split
  · exact (hidem _).symm
  · rfl

end Espx.Foundation
