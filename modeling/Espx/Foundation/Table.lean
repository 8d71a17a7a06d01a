import Mathlib.Algebra.BigOperators.Group.Finset.Basic
import Mathlib.Tactic.Abel

/-!
# Tables with a primary key

A table is a list of keyed rows, newest first, in which no key occurs twice. The sum of a quantity over
all rows changes with one row exactly as that row's quantity does. The same holds of a sum over a finite
type.
-/

namespace Espx.Foundation

open List

/-- A sum after one of its terms has changed. -/
theorem sum_of_single_change {ι M : Type*} [Fintype ι] [DecidableEq ι] [AddCommGroup M] {f g : ι → M}
    (j : ι) (h : ∀ i, i ≠ j → f i = g i) : ∑ i, f i = ∑ i, g i + (f j - g j) := by
  rw [← Finset.add_sum_erase Finset.univ f (Finset.mem_univ j),
    ← Finset.add_sum_erase Finset.univ g (Finset.mem_univ j),
    Finset.sum_congr rfl fun i hi => h i (Finset.ne_of_mem_erase hi)]
  abel

/-- Keyed rows, newest first, with the primary-key constraint. -/
structure Table (K V : Type*) where
  rows : List (K × V)
  nodup : (rows.map Prod.fst).Nodup

namespace Table

variable {K V M : Type*} [DecidableEq K] {v : V} {k : K}

/-- The table without rows. -/
def empty : Table K V := ⟨[], List.nodup_nil⟩

/-- The row of a key. -/
def get? (t : Table K V) (k : K) : Option V := t.rows.lookup k

/-- `UPDATE … WHERE key = k`: nothing happens when there is no such row. -/
def modify (t : Table K V) (k : K) (f : V → V) : Table K V where
  rows := t.rows.map fun row => if row.1 = k then (row.1, f row.2) else row
  nodup := by
    rw [List.map_map]
    have hkeys : (Prod.fst ∘ fun row : K × V => if row.1 = k then (row.1, f row.2) else row) =
        Prod.fst := by
      funext row
      by_cases h : row.1 = k <;> simp [h]
    rw [hkeys]
    exact t.nodup

/-- `INSERT`: a key that is already taken leaves the table as it is. -/
def insert (t : Table K V) (k : K) (v : V) : Table K V :=
  if h : k ∈ t.rows.map Prod.fst then t
  else ⟨(k, v) :: t.rows, by simpa using ⟨by simpa using h, t.nodup⟩⟩

/-- The sum of a quantity over all rows. -/
def sum [AddCommMonoid M] (t : Table K V) (f : K → V → M) : M :=
  (t.rows.map fun row => f row.1 row.2).sum

/-- A lookup that meets its key in the first row. -/
private theorem lookup_cons_pos {rows : List (K × V)} {k a : K} (h : k = a) :
    ((a, v) :: rows).lookup k = some v := by
  have hb : (k == a) = true := by simpa using h
  rw [lookup_cons, hb]

/-- A lookup that goes past the first row. -/
private theorem lookup_cons_neg {rows : List (K × V)} {k a : K} (h : k ≠ a) :
    ((a, v) :: rows).lookup k = rows.lookup k := by
  have hb : (k == a) = false := by simpa using h
  rw [lookup_cons, hb]

/-- A key without a row is not among the keys. -/
theorem get?_eq_none_iff (t : Table K V) (k : K) : t.get? k = none ↔ k ∉ t.rows.map Prod.fst := by
  unfold get?
  induction t.rows with
  | nil => simp
  | cons row rest ih =>
    obtain ⟨a, v⟩ := row
    by_cases h : k = a
    · simp [h]
    · rw [lookup_cons_neg h, ih]
      simp [h]

/-- A row of the table is the row of its key. -/
theorem get?_of_mem (t : Table K V) (h : (k, v) ∈ t.rows) : t.get? k = some v := by
  obtain ⟨rows, hnodup⟩ := t
  change rows.lookup k = some v
  induction rows with
  | nil => cases h
  | cons row rest ih =>
    obtain ⟨a, w⟩ := row
    simp only [map_cons, nodup_cons] at hnodup
    rcases mem_cons.mp h with heq | hrest
    · cases heq
      exact lookup_cons_pos rfl
    have hne : k ≠ a := by
      rintro rfl
      exact hnodup.1 (mem_map.mpr ⟨(k, v), hrest, rfl⟩)
    rw [lookup_cons_neg hne]
    exact ih hnodup.2 hrest

/-- The row of a key is among the rows. -/
theorem mem_of_get? (t : Table K V) (h : t.get? k = some v) : (k, v) ∈ t.rows := by
  obtain ⟨before, after, hrows, _⟩ := lookup_eq_some_iff.mp h
  rw [hrows]
  exact mem_append_right before mem_cons_self

/-- Looking up rows after one key's rows were changed. -/
private theorem lookup_modify (rows : List (K × V)) (k k' : K) (f : V → V) :
    (rows.map fun row => if row.1 = k then (row.1, f row.2) else row).lookup k' =
      if k' = k then (rows.lookup k').map f else rows.lookup k' := by
  induction rows with
  | nil => simp
  | cons row rest ih =>
    obtain ⟨a, v⟩ := row
    rw [map_cons]
    by_cases hk : a = k
    · rw [if_pos hk]
      by_cases h : k' = a
      · rw [lookup_cons_pos h, lookup_cons_pos h, if_pos (h.trans hk), Option.map_some]
      · rw [lookup_cons_neg h, lookup_cons_neg h, ih]
    · rw [if_neg hk]
      by_cases h : k' = a
      · rw [lookup_cons_pos h, lookup_cons_pos h, if_neg (fun heq => hk (h.symm.trans heq))]
      · rw [lookup_cons_neg h, lookup_cons_neg h, ih]

/-- The changed row. -/
@[simp] theorem get?_modify_self (t : Table K V) (k : K) (f : V → V) :
    (t.modify k f).get? k = (t.get? k).map f := by
  simp [get?, modify, lookup_modify]

/-- The rows of other keys are kept. -/
theorem get?_modify_of_ne (t : Table K V) {k k' : K} (f : V → V) (h : k' ≠ k) :
    (t.modify k f).get? k' = t.get? k' := by
  simp [get?, modify, lookup_modify, h]

/-- The inserted row, when its key was free. -/
theorem get?_insert_self (t : Table K V) (v : V) (h : t.get? k = none) :
    (t.insert k v).get? k = some v := by
  have hk := (t.get?_eq_none_iff k).mp h
  simp only [insert, hk, dif_neg, not_false_iff, get?]
  exact lookup_cons_self

/-- Inserting one key keeps the rows of the others. -/
theorem get?_insert_of_ne (t : Table K V) {k k' : K} (v : V) (h : k' ≠ k) :
    (t.insert k v).get? k' = t.get? k' := by
  unfold insert
  split
  · rfl
  · exact lookup_cons_neg h

/-- An inserted row adds its quantity. -/
theorem sum_insert [AddCommMonoid M] (t : Table K V) (v : V) (f : K → V → M) (h : t.get? k = none) :
    (t.insert k v).sum f = f k v + t.sum f := by
  have hk := (t.get?_eq_none_iff k).mp h
  simp only [insert, hk, dif_neg, not_false_iff, sum, map_cons, sum_cons]

/-- Changing one row changes a sum by that row's difference. -/
theorem sum_modify [AddCommGroup M] (t : Table K V) (g : V → V) (f : K → V → M)
    (h : t.get? k = some v) : (t.modify k g).sum f = t.sum f + (f k (g v) - f k v) := by
  obtain ⟨rows, hnodup⟩ := t
  simp only [get?] at h
  simp only [sum, modify, map_map]
  induction rows with
  | nil => simp at h
  | cons row rest ih =>
    obtain ⟨a, w⟩ := row
    simp only [map_cons, nodup_cons] at hnodup
    simp only [map_cons, sum_cons, Function.comp_apply]
    by_cases hk : k = a
    · rw [lookup_cons_pos hk, Option.some.injEq] at h
      have hrest : (rest.map ((fun row => f row.1 row.2) ∘
          fun row => if row.1 = k then (row.1, g row.2) else row)) =
          rest.map fun row => f row.1 row.2 := by
        apply map_congr_left
        intro other hother
        have hne : other.1 ≠ k := fun heq =>
          hnodup.1 (mem_map.mpr ⟨other, hother, heq.trans hk⟩)
        simp [hne]
      rw [hrest, if_pos hk.symm, h, hk]
      abel
    · rw [lookup_cons_neg hk] at h
      rw [if_neg (fun heq => hk heq.symm), ih hnodup.2 h]
      abel

end Table

end Espx.Foundation
