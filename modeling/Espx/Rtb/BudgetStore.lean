import Mathlib.Data.BitVec
import Espx.Foundation.Run

/-!
# Budgets in a slice that grows

A spend loads the pointer to the slice once and then loads and swaps the budget in that slice; a new
campaign is added by copying the slice, under a mutex that spends do not take, and publishing the copy.
Each atomic operation and the copy of each element is a step, and a spend returns in the step of its swap.
-/

namespace Espx.Rtb

open Espx.Foundation Function

/-- An `int64`. -/
abbrev Amount := BitVec 64

/-- A call of `checkAndSpendOn` or `creditOn` that has loaded a slice, and the value of its last load. -/
structure Spender where
  slice : ℕ
  idx : ℕ
  price : Amount
  credit : Bool
  curr : Option Amount

/-- What the call adds to the budget. -/
def Spender.change (sp : Spender) : Amount := if sp.credit then sp.price else -sp.price

/-- A call of `appendSlotLocked` for a campaign, with the elements that it has copied. -/
structure Growth where
  id : ℕ
  val : Amount
  copied : ℕ → Option Amount

/-- The new slice; what is not copied is zero. -/
def Growth.data (g : Growth) (length : ℕ) : List Amount :=
  (List.range length).map (fun i => (g.copied i).getD 0) ++ [g.val]

theorem Spender.change_eq_zero {sp : Spender} : sp.change = 0 ↔ sp.price = 0 := by
  unfold Spender.change
  split
  · rfl
  · exact neg_eq_zero

/-- The new slice has the published budgets exactly where each element is what it was copied from. -/
theorem Growth.data_eq_iff {g : Growth} {l : List Amount} (hall : ∀ i < l.length, (g.copied i).isSome) :
    g.data l.length = l ++ [g.val] ↔ ∀ i < l.length, g.copied i = l[i]? := by
  rw [Growth.data, List.append_left_inj]
  constructor
  · intro h i hi
    obtain ⟨v, hv⟩ := Option.isSome_iff_exists.mp (hall i hi)
    have hget := congrArg (·[i]?) h
    simp [hi, hv] at hget
    rw [hv, hget, List.getElem?_eq_getElem hi]
  · intro h
    refine List.ext_getElem (by simp) fun i hi hl => ?_
    simp [h i hl, hl]

theorem modify_add_eq_self {l : List Amount} {i : ℕ} {c : Amount} :
    l = l.modify i (· + c) ↔ (i < l.length → c = 0) := by
  constructor
  · intro h hi
    have hget := congrArg (·[i]?) h
    simpa [List.getElem?_modify, hi] using hget
  · intro h
    refine List.ext_getElem? fun j => ?_
    rw [List.getElem?_modify]
    split
    · rename_i heq
      subst heq
      by_cases hi : i < l.length
      · simp [h hi]
      · simp [hi]
    · simp

/-- `BudgetStore`, with the slices that were published before; `slots` has the campaign of each slot. Not
in the code: the initial budget of each slot with what the calls have added to it. -/
structure BudgetStore where
  slices : ℕ → List Amount
  budgets : ℕ
  slots : List ℕ
  growth : Option Growth
  spenders : ℕ → Option Spender
  dailySpent : List Amount
  dailyEpoch : ℕ
  expected : List Amount

/-- `normalizeBudget`. -/
def normalizeBudget (val : Amount) : Amount := if val.slt 0 then 0 else val

/-- A step of some goroutine. -/
inductive BudgetAction
  | enter (t idx : ℕ) (price : Amount) (credit : Bool)
  | load (t : ℕ)
  | compareAndSwap (t : ℕ)
  | getOrAllocateSlot (id : ℕ) (initialBudget : Amount)
  | copy (i : ℕ)
  | publish
  | maybeRollDaily (day : ℕ)

namespace BudgetStore

/-- `NewBudgetStore`. -/
def new : BudgetStore := ⟨fun _ => [], 0, [], none, fun _ => none, [], 0, []⟩

variable (s : BudgetStore)

/-- The published slice. -/
def published : List Amount := s.slices s.budgets

/-- A goroutine goes on with a call, or returns. -/
def withSpender (t : ℕ) (sp : Option Spender) : BudgetStore :=
  { s with spenders := update s.spenders t sp }

/-- The start of `checkAndSpendOn` and of `creditOn`: the slice is loaded. -/
def enter (t idx : ℕ) (price : Amount) (credit : Bool) : BudgetStore :=
  if s.spenders t = none ∧ idx < s.published.length then
    s.withSpender t (some ⟨s.budgets, idx, price, credit, none⟩)
  else s

/-- The load of a call; a spend that the budget does not cover returns false. -/
def load (t : ℕ) : BudgetStore :=
  match s.spenders t with
  | some ⟨slice, idx, price, credit, none⟩ =>
    let curr := (s.slices slice).getD idx 0
    if credit = false ∧ curr.slt price then s.withSpender t none
    else s.withSpender t (some ⟨slice, idx, price, credit, some curr⟩)
  | _ => s

/-- The swap of a call: it returns, or loads again. -/
def compareAndSwap (t : ℕ) : BudgetStore :=
  match s.spenders t with
  | none => s
  | some sp =>
    match sp.curr with
    | none => s
    | some curr =>
      if (s.slices sp.slice)[sp.idx]? = some curr then
        { s.withSpender t none with
          slices := update s.slices sp.slice ((s.slices sp.slice).set sp.idx (curr + sp.change))
          expected := s.expected.modify sp.idx (· + sp.change) }
      else s.withSpender t (some { sp with curr := none })

/-- `GetOrAllocateSlot` takes the mutex and `appendSlotLocked` loads the slice, unless the campaign has a
slot. -/
def getOrAllocateSlot (id : ℕ) (initialBudget : Amount) : BudgetStore :=
  if s.growth.isSome ∨ id ∈ s.slots then s
  else { s with growth := some ⟨id, normalizeBudget initialBudget, fun _ => none⟩ }

/-- `copy` reaches an element. -/
def copy (i : ℕ) : BudgetStore :=
  match s.growth with
  | none => s
  | some g =>
    if g.copied i = none then
      { s with growth := some { g with copied := update g.copied i s.published[i]? } }
    else s

/-- The new slice is published, `growDailyLocked` runs and the mutex is released. -/
def publish : BudgetStore :=
  match s.growth with
  | none => s
  | some g =>
    if ∀ i < s.published.length, (g.copied i).isSome then
      { s with
        slices := update s.slices (s.budgets + 1) (g.data s.published.length)
        budgets := s.budgets + 1
        slots := s.slots ++ [g.id]
        growth := none
        dailySpent := s.dailySpent ++ List.replicate (s.published.length + 1 - s.dailySpent.length) 0
        expected := s.expected ++ [g.val] }
    else s

/-- `maybeRollDaily`, while the mutex is free. -/
def maybeRollDaily (day : ℕ) : BudgetStore :=
  if s.growth.isSome ∨ s.dailyEpoch = day then s
  else { s with dailySpent := List.replicate s.dailySpent.length 0, dailyEpoch := day }

/-- One step. -/
def step : BudgetAction → BudgetStore
  | .enter t idx price credit => s.enter t idx price credit
  | .load t => s.load t
  | .compareAndSwap t => s.compareAndSwap t
  | .getOrAllocateSlot id initialBudget => s.getOrAllocateSlot id initialBudget
  | .copy i => s.copy i
  | .publish => s.publish
  | .maybeRollDaily day => s.maybeRollDaily day

/-- The published budgets are the initial ones with what the calls that swapped have added. -/
def Kept : Prop := s.published = s.expected

/-- A swap is in the published slice or of no amount, and a slice is published in which each element is
what it was copied from. -/
def Undisturbed : BudgetAction → Prop
  | .compareAndSwap t => ∀ sp ∈ s.spenders t, ∀ curr ∈ sp.curr,
      (s.slices sp.slice)[sp.idx]? = some curr → sp.idx < s.published.length →
        sp.slice = s.budgets ∨ sp.price = 0
  | .publish => ∀ g ∈ s.growth, (∀ i < s.published.length, (g.copied i).isSome) →
      ∀ i < s.published.length, g.copied i = s.published[i]?
  | _ => True

section

variable {s}

/-- A swap in the published slice keeps the law, another one only where it changes nothing. -/
theorem kept_compareAndSwap (h : s.Kept) (t : ℕ) :
    (s.compareAndSwap t).Kept ↔ s.Undisturbed (.compareAndSwap t) := by
  simp only [compareAndSwap, Undisturbed]
  cases s.spenders t with
  | none => exact iff_of_true h fun _ hsp => by cases hsp
  | some sp =>
    simp only [Option.mem_def, Option.some.injEq, forall_eq']
    cases sp.curr with
    | none => exact iff_of_true h fun _ hcurr => by cases hcurr
    | some curr =>
      simp only [Option.some.injEq, forall_eq']
      by_cases hswaps : (s.slices sp.slice)[sp.idx]? = some curr
      · rw [if_pos hswaps, forall_prop_of_true hswaps]
        by_cases hslice : sp.slice = s.budgets
        · refine iff_of_true ?_ fun _ => .inl hslice
          change update s.slices sp.slice _ s.budgets = s.expected.modify sp.idx _
          rw [← show s.published = s.expected from h, published, ← hslice, update_self,
            List.modify_eq_set_getElem?, hswaps]
          rfl
        · rw [or_iff_right hslice, ← Spender.change_eq_zero]
          change update s.slices sp.slice _ s.budgets = s.expected.modify sp.idx _ ↔ _
          rw [update_of_ne (Ne.symm hslice), ← show s.published = s.expected from h]
          exact modify_add_eq_self
      · rw [if_neg hswaps]
        exact iff_of_true h fun hcurr => absurd hcurr hswaps

theorem kept_publish (h : s.Kept) : s.publish.Kept ↔ s.Undisturbed .publish := by
  simp only [publish, Undisturbed]
  cases s.growth with
  | none => exact iff_of_true h fun _ hg => by cases hg
  | some g =>
    simp only [Option.mem_def, Option.some.injEq, forall_eq']
    by_cases hall : ∀ i < s.published.length, (g.copied i).isSome
    · rw [if_pos hall, forall_prop_of_true hall, ← g.data_eq_iff hall]
      change update s.slices (s.budgets + 1) _ (s.budgets + 1) = s.expected ++ [g.val] ↔ _
      rw [update_self, ← show s.published = s.expected from h]
    · rw [if_neg hall]
      exact iff_of_true h fun hcopy => absurd hcopy hall

/-- A step keeps the law exactly where it does not disturb. -/
theorem kept_step_iff (h : s.Kept) (action : BudgetAction) :
    (s.step action).Kept ↔ s.Undisturbed action := by
  cases action with
  | compareAndSwap t => exact kept_compareAndSwap h t
  | publish => exact kept_publish h
  | _ =>
    refine iff_of_true ?_ trivial
    simp only [step, enter, load, getOrAllocateSlot, copy, maybeRollDaily]
    repeat' split
    all_goals exact h

end

/-- In a run from a new store the budgets keep the law in every state exactly when no step disturbs. -/
theorem budgets_kept_iff (actions : List BudgetAction) :
    (∀ done, done <+: actions → (run step new done).Kept) ↔ Admissible Undisturbed step new actions := by
  have hvalid : Admissible (fun _ _ => True) step new actions :=
    Admissible.of_forall (fun _ _ => trivial) _
  have hinit : new.Kept := rfl
  refine forall_reached_iff_admissible (fun s h => h) ?_ ?_ hinit hvalid
  · exact fun s action _ hok h => (kept_step_iff h action).mpr hok
  · exact fun s action _ h hafter => (kept_step_iff h action).mp hafter

/-- A campaign with a budget of 100 is added. A spend of 30 loads it; another campaign comes, and the
budget is copied before the swap: the spend returns true, and the published budget is 100. -/
theorem spend_lost_in_growth :
    let s := run step new [.getOrAllocateSlot 7 100, .publish, .enter 0 0 30 false, .load 0,
      .getOrAllocateSlot 8 50, .copy 0, .compareAndSwap 0, .publish]
    s.published = [100, 50] ∧ s.expected = [70, 50] ∧ ¬s.Kept := by
  refine ⟨by decide, by decide, ?_⟩
  unfold Kept
  decide

end BudgetStore

end Espx.Rtb
