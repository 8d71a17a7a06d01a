import Mathlib.Data.Nat.Notation

/-!
# A log that is read from a position on

A log is the list of all entries that were ever appended; an entry's identifier is its place in the list.
The first entries may be gone, by trimming or deletion. A reader asks for what comes after an identifier
and gets what is left of it.
-/

namespace Espx.Foundation

/-- The entries ever appended, and how many of the first ones are gone. -/
structure Log (E : Type*) where
  entries : List E
  gone : ℕ

namespace Log

variable {E : Type*} (l : Log E)

/-- The place of the first entry after an identifier that is still there. -/
def start (after : ℕ) : ℕ := max after l.gone

/-- The entries after an identifier that are still there. -/
def range (after : ℕ) : List E := l.entries.drop (l.start after)

/-- The entries from one place to another. -/
def between (i j : ℕ) : List E := (l.entries.drop i).take (j - i)

variable {l}

/-- How much comes after an identifier. -/
theorem length_range (after : ℕ) : (l.range after).length = l.entries.length - l.start after :=
  List.length_drop

/-- Nothing lies between a place and itself. -/
@[simp] theorem between_self (i : ℕ) : l.between i i = [] := by
  rw [between, Nat.sub_self, List.take_zero]

/-- One entry more. -/
theorem between_succ {i j : ℕ} {entry : E} (hij : i ≤ j) (hentry : l.entries[j]? = some entry) :
    l.between i (j + 1) = l.between i j ++ [entry] := by
  have hget : (l.entries.drop i)[j - i]? = some entry := by
    rw [List.getElem?_drop, Nat.add_sub_cancel' hij, hentry]
  rw [between, Nat.succ_sub hij, List.take_add_one, hget]
  rfl

/-- Entries between two places stay when others are appended. -/
theorem between_append {l' : Log E} {i j : ℕ} {more : List E} (h : l'.entries = l.entries ++ more)
    (hj : j ≤ l.entries.length) : l'.between i j = l.between i j := by
  rcases Nat.le_total i j with hij | hji
  · rw [between, h, List.drop_append_of_le_length (Nat.le_trans hij hj),
      List.take_append_of_le_length (by rw [List.length_drop]; omega), between]
  · rw [between, between, Nat.sub_eq_zero_of_le hji, List.take_zero, List.take_zero]

end Log

end Espx.Foundation
