import Mathlib.Data.Int.Notation
import Mathlib.Data.Nat.Notation

/-!
# Scanning a buffer that grows

A scanner ends with a result, with an error, or because the buffer ends too early; an index outside the
buffer and a loop that does not end are outcomes of their own. A scanner is stable when more bytes change
nothing unless the buffer ended too early.

A loop that takes the bytes one by one is a machine with a step per byte. Loops that may go backwards get
fuel; more fuel never changes the outcome of a loop that ended.
-/

namespace Espx.Foundation

open List

variable {ε : Type*} {α β : Type}

/-- How a scanner ends. -/
inductive Scan (ε : Type*) (α : Type)
  | ok (a : α)
  | error (e : ε)
  | incomplete
  | panic
  | running
  deriving DecidableEq, Repr

namespace Scan

/-- Continue with a result. -/
def bind (x : Scan ε α) (f : α → Scan ε β) : Scan ε β :=
  match x with
  | ok a => f a
  | error e => error e
  | incomplete => incomplete
  | panic => panic
  | running => running

instance : Monad (Scan ε) where
  pure := ok
  bind := bind

@[simp] theorem ok_bind (a : α) (f : α → Scan ε β) : (ok a >>= f) = f a := rfl
@[simp] theorem error_bind (e : ε) (f : α → Scan ε β) : (error e >>= f) = error e := rfl
@[simp] theorem incomplete_bind (f : α → Scan ε β) : (incomplete >>= f) = incomplete := rfl
@[simp] theorem panic_bind (f : α → Scan ε β) : (panic >>= f) = panic := rfl
@[simp] theorem running_bind (f : α → Scan ε β) : (running >>= f) = running := rfl

variable {x : Scan ε α}

/-- A sequence ends with a result when both parts do. -/
theorem bind_eq_ok {f : α → Scan ε β} {b : β} : (x >>= f) = ok b ↔ ∃ a, x = ok a ∧ f a = ok b := by
  cases x <;> simp

/-- The result, where there is one. -/
def toOption : Scan ε α → Option α
  | ok a => some a
  | _ => none

@[simp] theorem toOption_ok (a : α) : (ok a : Scan ε α).toOption = some a := rfl

/-- The result of a sequence. -/
theorem toOption_bind (x : Scan ε α) (f : α → Scan ε β) :
    (x >>= f).toOption = x.toOption.bind fun a => (f a).toOption := by
  cases x <;> rfl

/-- A scanner has a result where that is its outcome. -/
theorem toOption_eq_some {a : α} : x.toOption = some a ↔ x = ok a := by
  cases x <;> simp [toOption]

section

variable (data : List α)

/-- The byte at an index that the program has not compared with the length. -/
def index (i : ℤ) : Scan ε α :=
  if i < 0 then panic
  else
    match data[i.toNat]? with
    | none => panic
    | some b => ok b

/-- The bytes between two indices. -/
def slice (low high : ℤ) : Scan ε (List α) :=
  if 0 ≤ low ∧ low ≤ high ∧ high ≤ data.length then
    ok ((data.drop low.toNat).take (high - low).toNat)
  else panic

variable {data} {i : ℕ} {rest : List α} {b : α}

/-- An index can be read inside the buffer. -/
theorem index_eq_ok {i : ℤ} : (index data i : Scan ε α) = ok b ↔ 0 ≤ i ∧ data[i.toNat]? = some b := by
  unfold index
  split
  · simp only [reduceCtorEq, false_iff, not_and]
    omega
  cases data[i.toNat]? with
  | none => simp
  | some found =>
    simp only [ok.injEq, Option.some.injEq, iff_and_self]
    omega

/-- The index at which the rest of the buffer is known. -/
theorem index_of_drop (h : data.drop i = b :: rest) : (index data i : Scan ε α) = ok b := by
  have hget : data[i]? = some b := by
    rw [← head?_drop, h]
    exact Eq.refl _
  exact index_eq_ok.mpr ⟨Int.natCast_nonneg i, hget⟩

/-- A byte of the buffer is inside it. -/
theorem lt_length_of_drop (h : data.drop i = b :: rest) : i < data.length := by
  have hlen := congrArg List.length h
  rw [length_drop, length_cons] at hlen
  omega

/-- The buffer after a part. -/
theorem drop_add {part rest : List α} (h : data.drop i = part ++ rest) :
    data.drop (i + part.length) = rest := by
  rw [← drop_drop, h, drop_left]

/-- The buffer after a byte. -/
theorem drop_succ (h : data.drop i = b :: rest) : data.drop (i + 1) = rest := by
  rw [← drop_drop, h]
  rfl

/-- The slice at which the rest of the buffer is known. -/
theorem slice_of_drop {part rest : List α} (h : data.drop i = part ++ rest) (hi : i ≤ data.length) :
    (slice data i ((i + part.length : ℕ) : ℤ) : Scan ε (List α)) = ok part := by
  have hlen : data.length - i = part.length + rest.length := by
    rw [← length_drop, h, length_append]
  have hin : (0 : ℤ) ≤ i ∧ (i : ℤ) ≤ (i + part.length : ℕ) ∧
      ((i + part.length : ℕ) : ℤ) ≤ data.length := by omega
  have hcount : (((i + part.length : ℕ) : ℤ) - i).toNat = part.length := by omega
  unfold slice
  rw [if_pos hin, hcount, Int.toNat_natCast, h, take_left]

end

section

/-- The outcome on a longer buffer is the same, where the shorter one does not end too early. -/
def Stable (x y : Scan ε α) : Prop := x ≠ incomplete → y = x

/-- The same outcome is stable. -/
theorem Stable.refl {x : Scan ε α} : Stable x x := fun _ => Eq.refl x

/-- A buffer that ends too early says nothing about a longer one. -/
theorem Stable.incomplete {x : Scan ε α} : Stable .incomplete x := fun h => absurd (Eq.refl _) h

/-- The outcome with more fuel is the same, where the loop ended. -/
def Fuelled (x y : Scan ε α) : Prop := x ≠ running → y = x

/-- The outcome with perhaps more fuel and perhaps more data is another one only where the loop did not
end, or the buffer ended too early, and that is not the same now. -/
def Grows (sameFuel sameData : Prop) (x y : Scan ε α) : Prop :=
  (x = running → sameFuel) → (x = incomplete → sameData) → y = x

variable {p q : Prop} {x y : Scan ε α}

/-- Nothing grows. -/
theorem Grows.refl : Grows p q x x := fun _ _ => Eq.refl x

/-- A sequence grows with its parts. -/
theorem Grows.bind {f g : α → Scan ε β} (hx : Grows p q x y)
    (hf : ∀ a, x = ok a → Grows p q (f a) (g a)) : Grows p q (x >>= f) (y >>= g) := by
  intro hfuel hdata
  have hxy : y = x := by
    refine hx (fun h => hfuel ?_) (fun h => hdata ?_) <;> rw [h] <;> exact Eq.refl _
  rw [hxy]
  cases x with
  | ok a => exact hf a (Eq.refl _) hfuel hdata
  | error e | incomplete | panic | running => exact Eq.refl _

variable {data more : List α}

/-- An index is read the same way in a longer buffer, unless that reaches beyond the index first. -/
theorem index_append {i : ℤ} (h : i < data.length ∨ data.length + more.length ≤ i) :
    (index (data ++ more) i : Scan ε α) = index data i := by
  unfold index
  by_cases hneg : i < 0
  · rw [if_pos hneg, if_pos hneg]
  rcases h with hlt | hge
  · rw [getElem?_append_left (by omega)]
  have hlong : (data ++ more)[i.toNat]? = none := getElem?_eq_none (by rw [length_append]; omega)
  have hshort : data[i.toNat]? = none := getElem?_eq_none (by omega)
  rw [hlong, hshort]

/-- A slice is taken the same way in a longer buffer, unless that reaches beyond the slice first. -/
theorem slice_append {low high : ℤ} (h : high ≤ data.length ∨ (data ++ more).length < high) :
    (slice (data ++ more) low high : Scan ε (List α)) = slice data low high := by
  have hlen : (data ++ more).length = data.length + more.length := length_append
  unfold slice
  by_cases hin : 0 ≤ low ∧ low ≤ high ∧ high ≤ data.length
  · have hmore : 0 ≤ low ∧ low ≤ high ∧ high ≤ (data ++ more).length := by omega
    have hdrop : low.toNat ≤ data.length := by omega
    have htake : (high - low).toNat ≤ (data.drop low.toNat).length := by
      rw [length_drop]
      omega
    rw [if_pos hin, if_pos hmore, drop_append_of_le_length hdrop, take_append_of_le_length htake]
  · have hout : ¬ (0 ≤ low ∧ low ≤ high ∧ high ≤ (data ++ more).length) := by omega
    rw [if_neg hin, if_neg hout]

end

section

variable {σ : Type}

/-- What a machine does with a byte. -/
inductive Move (ε : Type*) (σ α : Type)
  | next (s : σ)
  | done (a : α)
  | fail (e : ε)

variable (step : σ → β → Move ε σ α)

/-- Feed the bytes from an index on to a machine; the result comes with the index after its last
byte. -/
def feed : σ → ℕ → List β → Scan ε (ℤ × α)
  | _, _, [] => incomplete
  | s, i, b :: rest =>
    match step s b with
    | .next s => feed s (i + 1) rest
    | .done a => ok (((i + 1 : ℕ) : ℤ), a)
    | .fail e => error e

/-- Feed the bytes of a buffer from a position on. -/
def feedFrom (s : σ) (data : List β) (pos : ℤ) : Scan ε (ℤ × α) :=
  if data.length ≤ pos then incomplete
  else if pos < 0 then panic
  else feed step s pos.toNat (data.drop pos.toNat)

variable {step} {s : σ}

/-- A machine is stable. -/
theorem feed_stable (i : ℕ) (rest more : List β) :
    Stable (feed step s i rest) (feed step s i (rest ++ more)) := by
  induction rest generalizing s i with
  | nil => exact .incomplete
  | cons b rest ih =>
    rw [cons_append, feed, feed]
    cases step s b with
    | next s => exact ih (i + 1)
    | done a | fail e => exact .refl

/-- A machine that starts at a position of the buffer is stable. -/
theorem feedFrom_stable (data more : List β) (pos : ℤ) :
    Stable (feedFrom step s data pos) (feedFrom step s (data ++ more) pos) := by
  unfold feedFrom
  by_cases hend : data.length ≤ pos
  · rw [if_pos hend]
    exact .incomplete
  have hmore : ¬ (data ++ more).length ≤ pos := by
    rw [length_append]
    omega
  rw [if_neg hend, if_neg hmore]
  split
  · exact .refl
  · rw [drop_append_of_le_length (by omega)]
    exact feed_stable _ _ _

/-- A machine grows with its data. -/
theorem feedFrom_grows (data more : List β) (pos : ℤ) {p : Prop} :
    Grows p (more = []) (feedFrom step s data pos) (feedFrom step s (data ++ more) pos) := by
  intro _ hdata
  by_cases h : feedFrom step s data pos = incomplete
  · rw [hdata h, append_nil]
  · exact feedFrom_stable data more pos h

section

variable {I : σ → Prop} {P : α → Prop} (hnext : ∀ s b s', I s → step s b = .next s' → I s')
  (hdone : ∀ s b a, I s → step s b = .done a → P a) (hs : I s)
include hnext hdone hs

/-- What a machine keeps from state to state holds where it ends. -/
theorem feed_invariant {i : ℕ} {rest : List β} {j : ℤ} {a : α}
    (h : feed step s i rest = ok (j, a)) : P a := by
  induction rest generalizing s i with
  | nil => cases h
  | cons b rest ih =>
    rw [feed] at h
    cases hstep : step s b with
    | next s' =>
      rw [hstep] at h
      exact ih (hnext s b s' hs hstep) h
    | done a' =>
      rw [hstep] at h
      obtain ⟨-, rfl⟩ := Prod.mk.inj (ok.inj h)
      exact hdone s b a' hs hstep
    | fail e =>
      rw [hstep] at h
      cases h

/-- What a machine keeps holds where it ends in a buffer. -/
theorem feedFrom_invariant {data : List β} {pos j : ℤ} {a : α}
    (h : feedFrom step s data pos = ok (j, a)) : P a := by
  unfold feedFrom at h
  split at h
  · cases h
  split at h
  · cases h
  · exact feed_invariant hnext hdone hs h

end

/-- The index after a result is at most that of the end. -/
theorem feed_bound {i : ℕ} {rest : List β} {j : ℤ} {a : α} (h : feed step s i rest = ok (j, a)) :
    i < j ∧ j ≤ i + rest.length := by
  induction rest generalizing s i with
  | nil => cases h
  | cons b rest ih =>
    rw [feed] at h
    rw [length_cons]
    cases hstep : step s b with
    | next s' =>
      rw [hstep] at h
      have := ih h
      omega
    | done a' =>
      rw [hstep] at h
      obtain ⟨rfl, -⟩ := Prod.mk.inj (ok.inj h)
      omega
    | fail e =>
      rw [hstep] at h
      cases h

/-- A machine that started inside the buffer ends there. -/
theorem feedFrom_bound {data : List β} {pos j : ℤ} {a : α}
    (h : feedFrom step s data pos = ok (j, a)) : 0 ≤ pos ∧ pos < j ∧ j ≤ data.length := by
  unfold feedFrom at h
  split at h
  · cases h
  split at h
  · cases h
  · have := feed_bound h
    rw [length_drop] at this
    omega

end

section

/-- The scanner does not panic, its result and its error meet their conditions, it wants more bytes only
where it may, and it ends where it has fuel enough. -/
inductive Ends (short enough : Prop) (E : ε → Prop) (P : α → Prop) : Scan ε α → Prop
  | ok {a : α} (h : P a) : Ends short enough E P (.ok a)
  | error {e : ε} (h : E e) : Ends short enough E P (.error e)
  | incomplete (h : short) : Ends short enough E P .incomplete
  | running (h : ¬ enough) : Ends short enough E P .running

variable {short enough : Prop} {E : ε → Prop} {P : α → Prop} {Q : β → Prop} {x : Scan ε α}

/-- The parts of a sequence end. -/
theorem Ends.bind {f : α → Scan ε β} (hx : Ends short enough E P x)
    (hf : ∀ a, P a → Ends short enough E Q (f a)) : Ends short enough E Q (x >>= f) := by
  cases hx with
  | ok h => exact hf _ h
  | error h => exact .error h
  | incomplete h => exact .incomplete h
  | running h => exact .running h

/-- Less fuel is enough, and less is asked of the result. -/
theorem Ends.imp {enough' : Prop} {P' : α → Prop} (hx : Ends short enough E P x)
    (he : enough' → enough) (hP : ∀ a, P a → P' a) : Ends short enough' E P' x := by
  cases hx with
  | ok h => exact .ok (hP _ h)
  | error h => exact .error h
  | incomplete h => exact .incomplete h
  | running h => exact .running fun henough => h (he henough)

/-- With fuel and bytes enough there is a result or an error. -/
theorem Ends.cases (hx : Ends False enough E P x) (h : enough) :
    (∃ a, x = .ok a ∧ P a) ∨ ∃ e, x = .error e ∧ E e := by
  cases hx with
  | ok ha => exact Or.inl ⟨_, Eq.refl _, ha⟩
  | error he => exact Or.inr ⟨_, Eq.refl _, he⟩
  | incomplete hshort => exact absurd hshort id
  | running hnot => exact absurd h hnot

/-- A result is the result. -/
theorem Ends.self (hx : Ends short enough E P x) : Ends short enough E (fun a => x = .ok a) x := by
  cases hx with
  | ok h => exact .ok (Eq.refl _)
  | error h => exact .error h
  | incomplete h => exact .incomplete h
  | running h => exact .running h

/-- The result meets its condition. -/
theorem Ends.result {a : α} (hx : Ends short enough E P x) (h : x = .ok a) : P a := by
  cases hx with
  | ok ha => exact Scan.ok.inj h ▸ ha
  | error | incomplete | running => cases h

/-- A scanner that ends does not panic. -/
theorem Ends.ne_panic (hx : Ends short enough E P x) : x ≠ .panic := by
  cases hx with
  | ok | error | incomplete | running => simp

/-- A scanner with fuel enough has an outcome. -/
theorem Ends.ne_running (hx : Ends short enough E P x) (h : enough) : x ≠ .running := by
  cases hx with
  | ok | error | incomplete => simp
  | running hnot => exact absurd h hnot

/-- An index inside the buffer is read. -/
theorem Ends.index {data : List α} {i : ℤ} (hlow : 0 ≤ i) (hhigh : i < data.length) :
    Ends short enough E (fun b => data[i.toNat]? = some b) (Scan.index data i : Scan ε α) := by
  have hlt : i.toNat < data.length := by omega
  have hget : data[i.toNat]? = some data[i.toNat] := getElem?_eq_getElem hlt
  rw [index_eq_ok.mpr ⟨hlow, hget⟩]
  exact .ok hget

/-- A slice inside the buffer is taken. -/
theorem Ends.slice {data : List α} {low high : ℤ} (hlow : 0 ≤ low) (hle : low ≤ high)
    (hhigh : high ≤ data.length) :
    Ends short enough E (fun part => part = (data.drop low.toNat).take (high - low).toNat)
      (Scan.slice data low high : Scan ε (List α)) := by
  unfold Scan.slice
  rw [if_pos ⟨hlow, hle, hhigh⟩]
  exact .ok (Eq.refl _)

end

section

variable {σ : Type} {step : σ → β → Move ε σ α} {s : σ}

/-- A machine ends with a result, an error or a wish for more bytes. -/
theorem feed_ends {enough : Prop} (i : ℕ) (rest : List β) :
    Ends True enough (fun _ => True) (fun _ => True) (feed step s i rest) := by
  induction rest generalizing s i with
  | nil => exact .incomplete trivial
  | cons b rest ih =>
    rw [feed]
    cases step s b with
    | next s => exact ih (i + 1)
    | done a => exact .ok trivial
    | fail e => exact .error trivial

/-- A machine that starts at a position which is not negative. -/
theorem feedFrom_ends {enough : Prop} {data : List β} {pos : ℤ} (h : 0 ≤ pos) :
    Ends True enough (fun _ => True) (fun out => feedFrom step s data pos = ok out)
      (feedFrom step s data pos) := by
  suffices hends : Ends True enough (fun _ => True) (fun _ => True) (feedFrom step s data pos) from
    hends.self
  unfold feedFrom
  split
  · exact .incomplete trivial
  · rw [if_neg (by omega)]
    exact feed_ends _ _

/-- The machine in a buffer is the machine on its rest. -/
theorem feed_of_feedFrom {data : List β} {pos : ℕ} {out : ℤ × α}
    (h : feedFrom step s data pos = ok out) : feed step s pos (data.drop pos) = ok out := by
  unfold feedFrom at h
  split at h
  · cases h
  · exact h

end

/-- The outcome of a program whose loops need fuel. -/
def Returns (f : ℕ → Scan ε α) (x : Scan ε α) : Prop := x ≠ running ∧ ∃ fuel, f fuel = x

end Scan

end Espx.Foundation
