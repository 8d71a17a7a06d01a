import Espx.Domain.Sharding
import Espx.Foundation.Run
import Espx.Foundation.Table
import Mathlib.Algebra.BigOperators.Fin
import Mathlib.Algebra.Order.BigOperators.Group.Finset
import Mathlib.Tactic.Ring

/-!
# The local quanta ledger

Credit that a tracker holds in memory: 4096 cells, four for each campaign, addressed by a truncated
checksum of the campaign id and labelled with the whole of it. A credit labels the cell that it lands on,
whoever owned it; the rest compares labels and nothing else. The spend rate of `TrySpendDebit` is read by
refills only and is left out.
-/

namespace Espx.Ingestion

open Espx.Foundation Espx.Domain Function

/-- `LocalQuantaCell`. -/
structure LocalQuantaCell where
  campaignHash : UInt32
  remaining : ℤ
  chunkSize : ℤ
  campaignID : UUID

/-- The cells of `LocalQuantaLedger`. -/
abbrev LocalQuantaLedger := Fin 4096 → LocalQuantaCell

/-- `NewLocalQuantaLedger`. -/
def newLocalQuantaLedger : LocalQuantaLedger := fun _ =>
  { campaignHash := 0, remaining := 0, chunkSize := 0, campaignID := uuidNil }

/-- Addition of `int64`, which wraps around. -/
def addInt64 (a b : ℤ) : ℤ := (a + b).bmod (2 ^ 64)

/-- `ledgerCellHash`. -/
def ledgerCellHash (id : UUID) (subSlot : Fin 4) : UInt32 :=
  if 0 < subSlot.val then crc32Castagnoli id ^^^ (UInt32.ofNat subSlot.val * 0x85ebca6b)
  else crc32Castagnoli id

/-- The index of `cellForDebit`. -/
def cellIndex (id : UUID) (subSlot : Fin 4) : Fin 4096 :=
  Fin.ofNat 4096 ((crc32Castagnoli id + UInt32.ofNat subSlot.val * 1024) &&& 4095).toNat

section

variable (l : LocalQuantaLedger) (id : UUID) (subSlot : Fin 4)

/-- `RefundDebit`. -/
def refundDebit (amountMicro : ℤ) : LocalQuantaLedger :=
  if amountMicro ≤ 0 then l
  else
    let cell := l (cellIndex id subSlot)
    if cell.campaignHash ≠ ledgerCellHash id subSlot then l
    else update l (cellIndex id subSlot)
      { cell with remaining := addInt64 cell.remaining amountMicro }

/-- `TrySpendDebit`. -/
def trySpendDebit (amountMicro : ℤ) : Bool × LocalQuantaLedger :=
  if amountMicro ≤ 0 then (true, l)
  else
    let cell := l (cellIndex id subSlot)
    if cell.campaignHash ≠ ledgerCellHash id subSlot then (false, l)
    else if cell.remaining < amountMicro then (false, l)
    else (true, update l (cellIndex id subSlot)
      { cell with remaining := cell.remaining - amountMicro })

/-- `CreditDebit`. -/
def creditDebit (amountMicro chunkSize : ℤ) : LocalQuantaLedger :=
  if amountMicro ≤ 0 then l
  else
    let cell := l (cellIndex id subSlot)
    update l (cellIndex id subSlot)
      { campaignHash := ledgerCellHash id subSlot
        remaining := addInt64 cell.remaining amountMicro
        chunkSize := if 0 < chunkSize then chunkSize else cell.chunkSize
        campaignID := id }

/-- `takeRemainingDebit`. -/
def takeRemainingDebit : ℤ × LocalQuantaLedger :=
  let cell := l (cellIndex id subSlot)
  if cell.campaignHash ≠ ledgerCellHash id subSlot then (0, l)
  else if cell.remaining ≤ 0 then (0, l)
  else (cell.remaining, update l (cellIndex id subSlot) { cell with remaining := 0 })

end

/-- The loop of `TakeRemaining` over sub-slots. -/
def takeSubSlots (id : UUID) : List (Fin 4) → ℤ → LocalQuantaLedger → ℤ × LocalQuantaLedger
  | [], total, l => (total, l)
  | sub :: rest, total, l =>
    let (taken, l') := takeRemainingDebit l id sub
    takeSubSlots id rest (addInt64 total taken) l'

/-- `TakeRemaining`. -/
def takeRemaining (l : LocalQuantaLedger) (id : UUID) : ℤ × LocalQuantaLedger :=
  takeSubSlots id [0, 1, 2, 3] 0 l

/-- A call. -/
inductive QuantaCall
  | credit (id : UUID) (subSlot : Fin 4) (amountMicro chunkSize : ℤ)
  | spend (id : UUID) (subSlot : Fin 4) (amountMicro : ℤ)
  | refund (id : UUID) (subSlot : Fin 4) (amountMicro : ℤ)
  | take (id : UUID)

/-- The ledger, with what each campaign has put in and got out. -/
structure QuantaState where
  ledger : LocalQuantaLedger
  received : UUID → ℤ
  paid : UUID → ℤ

/-- One call, and the books of the campaign that makes it. -/
def quantaStep (s : QuantaState) : QuantaCall → QuantaState
  | .credit id sub amount chunkSize =>
    { s with
      ledger := creditDebit s.ledger id sub amount chunkSize
      received := update s.received id (s.received id + amount) }
  | .spend id sub amount =>
    let (accepted, l) := trySpendDebit s.ledger id sub amount
    { s with
      ledger := l
      paid := update s.paid id (s.paid id + if accepted then amount else 0) }
  | .refund id sub amount =>
    { s with
      ledger := refundDebit s.ledger id sub amount
      received := update s.received id (s.received id + amount) }
  | .take id =>
    let (taken, l) := takeRemaining s.ledger id
    { s with
      ledger := l
      paid := update s.paid id (s.paid id + taken) }

/-- What one cell holds under a campaign's label. -/
def cellShare (id : UUID) (sub : Fin 4) (l : LocalQuantaLedger) : ℤ :=
  if (l (cellIndex id sub)).campaignHash = ledgerCellHash id sub then
    max 0 (l (cellIndex id sub)).remaining
  else 0

/-- What the four cells of a campaign hold under its labels. -/
def share (id : UUID) (l : LocalQuantaLedger) : ℤ := ∑ sub : Fin 4, cellShare id sub l

section

variable {l : LocalQuantaLedger} {c d : UUID} {sub : Fin 4} {cell : LocalQuantaCell}

/-- The four cells of a campaign are different ones. -/
theorem cellIndex_injective (c : UUID) : Function.Injective (cellIndex c) := by
  intro i j h
  generalize hcrc : crc32Castagnoli c = crc
  simp only [cellIndex, hcrc, Fin.ext_iff, Fin.val_ofNat] at h
  simp only [UInt32.toNat_and, UInt32.toNat_add, UInt32.toNat_mul, UInt32.toNat_ofNat'] at h
  have hmask : (4095 : UInt32).toNat = 2 ^ 12 - 1 := by decide
  rw [hmask, Nat.and_two_pow_sub_one_eq_mod, Nat.and_two_pow_sub_one_eq_mod] at h
  have hstep : (1024 : UInt32).toNat = 1024 := by decide
  rw [hstep] at h
  apply Fin.ext
  omega

theorem cellShare_nonneg (c : UUID) (sub : Fin 4) (l : LocalQuantaLedger) : 0 ≤ cellShare c sub l := by
  unfold cellShare
  split
  · exact le_max_left 0 _
  · exact le_refl 0

theorem share_nonneg (c : UUID) (l : LocalQuantaLedger) : 0 ≤ share c l :=
  Finset.sum_nonneg fun sub _ => cellShare_nonneg c sub l

theorem cellShare_le_share (c : UUID) (sub : Fin 4) (l : LocalQuantaLedger) :
    cellShare c sub l ≤ share c l :=
  Finset.single_le_sum (fun sub _ => cellShare_nonneg c sub l) (Finset.mem_univ sub)

theorem cellShare_update_of_ne {i : Fin 4096} (h : cellIndex c sub ≠ i) :
    cellShare c sub (update l i cell) = cellShare c sub l := by
  simp only [cellShare, update_of_ne h]

/-- The share of a campaign that writes a cell under its label. -/
theorem share_update_self (l : LocalQuantaLedger) (hlabel : cell.campaignHash = ledgerCellHash d sub) :
    share d (update l (cellIndex d sub) cell) =
      share d l + (max 0 cell.remaining - cellShare d sub l) := by
  have hself : max 0 cell.remaining = cellShare d sub (update l (cellIndex d sub) cell) := by
    simp only [cellShare, update_self, hlabel, if_true]
  rw [hself]
  apply sum_of_single_change
  intro other hother
  exact cellShare_update_of_ne fun heq => hother (cellIndex_injective d heq)

/-- The share of a campaign whose label stands neither in the old cell nor in the new one. -/
theorem share_update_of_ne {i : Fin 4096} (hold : ∀ sub, cellIndex c sub = i → cellShare c sub l = 0)
    (hnew : ∀ sub, cellIndex c sub = i → cell.campaignHash ≠ ledgerCellHash c sub) :
    share c (update l i cell) = share c l := by
  apply Finset.sum_congr rfl
  intro sub _
  by_cases hi : cellIndex c sub = i
  · rw [hold sub hi, cellShare, hi, update_self, if_neg (hnew sub hi)]
  · exact cellShare_update_of_ne hi

end

/-- No other campaign of `K` has a cell with the same index and label. -/
def Alone (K : Finset UUID) (d : UUID) (sub : Fin 4) : Prop :=
  ∀ c ∈ K, c ≠ d → ∀ other,
    ¬ (cellIndex c other = cellIndex d sub ∧ ledgerCellHash c other = ledgerCellHash d sub)

instance (K : Finset UUID) (d : UUID) (sub : Fin 4) : Decidable (Alone K d sub) :=
  Finset.decidableDforallFinset

/-- A call of a campaign of `K` with a positive `int64`. -/
def QuantaCall.Valid (K : Finset UUID) : QuantaCall → Prop
  | .credit id _ amount _ => id ∈ K ∧ 0 < amount ∧ amount < 2 ^ 63
  | .spend id _ amount => id ∈ K ∧ 0 < amount ∧ amount < 2 ^ 63
  | .refund id _ amount => id ∈ K ∧ 0 < amount ∧ amount < 2 ^ 63
  | .take id => id ∈ K

instance (K : Finset UUID) : (call : QuantaCall) → Decidable (call.Valid K)
  | .credit .. | .spend .. | .refund .. => inferInstanceAs (Decidable (_ ∧ _ ∧ _))
  | .take id => inferInstanceAs (Decidable (id ∈ K))

/-- A credit finds the cell empty or under its own label, a refund finds its own label; no other campaign
has the cell under that label, and the share fits `int64`. -/
def QuantaCall.Safe (K : Finset UUID) (l : LocalQuantaLedger) : QuantaCall → Prop
  | .credit id sub amount _ => Alone K id sub ∧ share id l + amount < 2 ^ 63 ∧
      ((l (cellIndex id sub)).remaining = 0 ∨
        (l (cellIndex id sub)).campaignHash = ledgerCellHash id sub)
  | .refund id sub amount => Alone K id sub ∧ share id l + amount < 2 ^ 63 ∧
      (l (cellIndex id sub)).campaignHash = ledgerCellHash id sub
  | _ => True

instance (K : Finset UUID) (l : LocalQuantaLedger) : (call : QuantaCall) → Decidable (call.Safe K l)
  | .credit .. | .refund .. => inferInstanceAs (Decidable (_ ∧ _ ∧ _))
  | .spend .. | .take _ => .isTrue trivial

/-- Every campaign of `K` got out at most what it put in, and the rest is what it would be given
now. -/
def QuantaState.Conserved (K : Finset UUID) (s : QuantaState) : Prop :=
  ∀ c ∈ K, s.paid c ≤ s.received c ∧ s.received c - s.paid c = (takeRemaining s.ledger c).1

/-- Every cell with a balance is owned by one campaign of `K` alone, and the books of each
campaign differ by its share. -/
structure QuantaInv (K : Finset UUID) (s : QuantaState) : Prop where
  nonneg : ∀ i, 0 ≤ (s.ledger i).remaining
  owned : ∀ i, 0 < (s.ledger i).remaining → ∃ d ∈ K, ∃ sub, cellIndex d sub = i ∧
    (s.ledger i).campaignHash = ledgerCellHash d sub ∧ Alone K d sub
  books : ∀ c ∈ K, s.received c - s.paid c = share c s.ledger
  fits : ∀ c ∈ K, share c s.ledger < 2 ^ 63

section

variable {K : Finset UUID} {s : QuantaState} {l : LocalQuantaLedger} {c d : UUID} {sub : Fin 4}
  {subs : List (Fin 4)} {s' : QuantaState} {amount : ℤ} {cell : LocalQuantaCell}

/-- What `takeRemainingDebit` gives and leaves. -/
theorem takeRemainingDebit_eq (l : LocalQuantaLedger) (d : UUID) (sub : Fin 4) :
    takeRemainingDebit l d sub = (cellShare d sub l,
      if 0 < cellShare d sub l then
        update l (cellIndex d sub) { l (cellIndex d sub) with remaining := 0 }
      else l) := by
  unfold takeRemainingDebit cellShare
  by_cases hlabel : (l (cellIndex d sub)).campaignHash = ledgerCellHash d sub
  · by_cases hpos : (l (cellIndex d sub)).remaining ≤ 0
    · simp [hlabel, hpos]
    · simp [hlabel, hpos, max_eq_right (not_le.mp hpos).le]
  · simp [hlabel]

theorem takeRemainingDebit_cellShare {other : Fin 4} (hne : other ≠ sub) :
    cellShare d other (takeRemainingDebit l d sub).2 = cellShare d other l := by
  rw [takeRemainingDebit_eq]
  split
  · exact cellShare_update_of_ne fun heq => hne (cellIndex_injective d heq)
  · rfl

theorem takeRemainingDebit_cellShares {sub : Fin 4} (h : sub ∉ subs) (l : LocalQuantaLedger) :
    (subs.map fun other => cellShare d other (takeRemainingDebit l d sub).2) =
      subs.map fun other => cellShare d other l := by
  apply List.map_congr_left
  intro other hother
  exact takeRemainingDebit_cellShare fun heq => h (heq ▸ hother)

/-- The loop returns the sum of the shares. -/
theorem takeSubSlots_fst (hnodup : subs.Nodup) (total : ℤ) (l : LocalQuantaLedger) :
    (takeSubSlots d subs (total.bmod (2 ^ 64)) l).1 =
      (total + (subs.map fun sub => cellShare d sub l).sum).bmod (2 ^ 64) := by
  induction subs generalizing total l with
  | nil => simp [takeSubSlots]
  | cons sub rest ih =>
    rw [List.nodup_cons] at hnodup
    have htotal : addInt64 (total.bmod (2 ^ 64)) (takeRemainingDebit l d sub).1 =
        (total + cellShare d sub l).bmod (2 ^ 64) := by
      rw [takeRemainingDebit_eq, addInt64, Int.bmod_add_bmod]
    change (takeSubSlots d rest (addInt64 (total.bmod (2 ^ 64)) (takeRemainingDebit l d sub).1)
      (takeRemainingDebit l d sub).2).1 = _
    rw [htotal, ih hnodup.2, takeRemainingDebit_cellShares hnodup.1, List.map_cons, List.sum_cons,
      add_assoc]

theorem takeRemaining_fst (l : LocalQuantaLedger) (d : UUID) :
    (takeRemaining l d).1 = (share d l).bmod (2 ^ 64) := by
  have hloop := @takeSubSlots_fst d [0, 1, 2, 3] (by decide) 0 l
  rw [show share d l = 0 + ([0, 1, 2, 3].map fun sub => cellShare d sub l).sum by
    simp [share, Fin.sum_univ_four, add_assoc]]
  exact hloop

theorem bmod_of_lt {x : ℤ} (hnn : 0 ≤ x) (hlt : x < 2 ^ 63) : x.bmod (2 ^ 64) = x := by
  apply Int.bmod_eq_of_le <;> omega

theorem bmod_of_le {x : ℤ} (hle : 2 ^ 63 ≤ x) (hlt : x < 2 ^ 64) : x.bmod (2 ^ 64) < 0 := by
  rw [Int.bmod_def]
  omega

theorem QuantaInv.conserved (h : QuantaInv K s) : s.Conserved K := by
  intro c hc
  have hbooks := h.books c hc
  have hnn := share_nonneg c s.ledger
  refine ⟨by omega, ?_⟩
  rw [takeRemaining_fst, bmod_of_lt hnn (h.fits c hc), hbooks]

/-- A cell that a campaign may write: no other campaign has it under the same label, and its
balance, if any, is under that label. -/
structure Writable (K : Finset UUID) (l : LocalQuantaLedger) (d : UUID) (sub : Fin 4) : Prop where
  member : d ∈ K
  alone : Alone K d sub
  label : (l (cellIndex d sub)).remaining = 0 ∨ (l (cellIndex d sub)).campaignHash = ledgerCellHash d sub

/-- Writing a writable cell leaves the shares of the other campaigns. -/
theorem Writable.share_other (h : Writable K l d sub)
    (hlabel : cell.campaignHash = ledgerCellHash d sub) (hc : c ∈ K) (hne : c ≠ d) :
    share c (update l (cellIndex d sub) cell) = share c l := by
  apply share_update_of_ne
  · intro other hindex
    have hother : ledgerCellHash c other ≠ ledgerCellHash d sub :=
      fun heq => h.alone c hc hne other ⟨hindex, heq⟩
    unfold cellShare
    rw [hindex]
    split
    · rename_i hmine
      rcases h.label with hzero | hown
      · rw [hzero, max_self]
      · exact absurd (hmine.symm.trans hown) hother
    · rfl
  · intro other hindex heq
    exact h.alone c hc hne other ⟨hindex, heq.symm.trans hlabel⟩

theorem Writable.cellShare_eq (h : Writable K l d sub) (hnn : 0 ≤ (l (cellIndex d sub)).remaining) :
    cellShare d sub l = (l (cellIndex d sub)).remaining := by
  unfold cellShare
  split
  · exact max_eq_right hnn
  rename_i hlabel
  rcases h.label with hzero | hown
  · exact hzero.symm
  · exact absurd hown hlabel

/-- Writing a writable cell under its label keeps the invariant, when the books move by the
difference. -/
theorem QuantaInv.write (h : QuantaInv K s)
    (hwrite : Writable K s.ledger d sub) (hlabel : cell.campaignHash = ledgerCellHash d sub)
    (hnn : 0 ≤ cell.remaining) (hled : s'.ledger = update s.ledger (cellIndex d sub) cell)
    (hfits : share d s.ledger + (cell.remaining - (s.ledger (cellIndex d sub)).remaining) < 2 ^ 63)
    (hbooks : s'.received d - s'.paid d = s.received d - s.paid d +
      (cell.remaining - (s.ledger (cellIndex d sub)).remaining))
    (hothers : ∀ c, c ≠ d → s'.received c = s.received c ∧ s'.paid c = s.paid c) : QuantaInv K s' := by
  have hself : share d s'.ledger = share d s.ledger +
      (cell.remaining - (s.ledger (cellIndex d sub)).remaining) := by
    rw [hled, share_update_self _ hlabel, hwrite.cellShare_eq (h.nonneg _), max_eq_right hnn]
  have hother : ∀ c ∈ K, c ≠ d → share c s'.ledger = share c s.ledger := by
    intro c hc hne
    rw [hled]
    exact hwrite.share_other hlabel hc hne
  constructor
  · intro i
    rw [hled]
    by_cases hi : i = cellIndex d sub
    · rw [hi, update_self]
      exact hnn
    · rw [update_of_ne hi]
      exact h.nonneg i
  · intro i
    rw [hled]
    by_cases hi : i = cellIndex d sub
    · intro _
      rw [hi, update_self]
      exact ⟨d, hwrite.member, sub, rfl, hlabel, hwrite.alone⟩
    · rw [update_of_ne hi]
      exact h.owned i
  · intro c hc
    by_cases hne : c = d
    · rw [hne, hbooks, hself, h.books d hwrite.member]
    · rw [hother c hc hne, (hothers c hne).1, (hothers c hne).2, h.books c hc]
  · intro c hc
    by_cases hne : c = d
    · rw [hne, hself]
      exact hfits
    · rw [hother c hc hne]
      exact h.fits c hc

/-- A campaign that finds a balance under its label owns the cell. -/
theorem QuantaInv.writable (h : QuantaInv K s) (hd : d ∈ K)
    (hlabel : (s.ledger (cellIndex d sub)).campaignHash = ledgerCellHash d sub)
    (hpos : 0 < (s.ledger (cellIndex d sub)).remaining) : Writable K s.ledger d sub := by
  obtain ⟨owner, howner, other, hindex, hown, halone⟩ := h.owned _ hpos
  have hsame : owner = d := by
    by_contra hne
    exact halone d hd (Ne.symm hne) sub ⟨hindex.symm, hlabel.symm.trans hown⟩
  subst hsame
  rw [cellIndex_injective owner hindex] at halone
  exact ⟨hd, halone, .inr hlabel⟩

theorem QuantaInv.same (h : QuantaInv K s) (hled : s'.ledger = s.ledger)
    (hbooks : ∀ c, s'.received c - s'.paid c = s.received c - s.paid c) : QuantaInv K s' := by
  constructor
  · rw [hled]
    exact h.nonneg
  · rw [hled]
    exact h.owned
  · intro c hc
    rw [hled, hbooks, h.books c hc]
  · rw [hled]
    exact h.fits

/-- The amount has been written to the cell and to the books. -/
structure Deposit (d : UUID) (sub : Fin 4) (amount : ℤ) (s s' : QuantaState) (cell : LocalQuantaCell) :
    Prop where
  label : cell.campaignHash = ledgerCellHash d sub
  remaining : cell.remaining = addInt64 (s.ledger (cellIndex d sub)).remaining amount
  ledger : s'.ledger = update s.ledger (cellIndex d sub) cell
  paid : s'.paid = s.paid
  received : s'.received = update s.received d (s.received d + amount)

theorem deposit_credit (s : QuantaState) (d : UUID) (sub : Fin 4) (chunkSize : ℤ) (hamt : 0 < amount) :
    ∃ cell, Deposit d sub amount s (quantaStep s (.credit d sub amount chunkSize)) cell :=
  ⟨_, rfl, rfl, if_neg (not_le.mpr hamt), rfl, rfl⟩

theorem deposit_refund (hamt : 0 < amount)
    (hlabel : (s.ledger (cellIndex d sub)).campaignHash = ledgerCellHash d sub) :
    ∃ cell, Deposit d sub amount s (quantaStep s (.refund d sub amount)) cell :=
  ⟨{ s.ledger (cellIndex d sub) with
      remaining := addInt64 (s.ledger (cellIndex d sub)).remaining amount }, hlabel, rfl,
    (if_neg (not_le.mpr hamt)).trans (if_neg (not_not.mpr hlabel)), rfl, rfl⟩

/-- A deposit into a writable cell that fits. -/
theorem QuantaInv.deposit (h : QuantaInv K s) (hwrite : Writable K s.ledger d sub) (hamt : 0 < amount)
    (hfits : share d s.ledger + amount < 2 ^ 63) (hdep : Deposit d sub amount s s' cell) :
    QuantaInv K s' := by
  obtain ⟨hlabel, hcell, hled, hpaid, hrecv⟩ := hdep
  have hnn := h.nonneg (cellIndex d sub)
  have hle : (s.ledger (cellIndex d sub)).remaining ≤ share d s.ledger := by
    rw [← hwrite.cellShare_eq hnn]
    exact cellShare_le_share d sub s.ledger
  have hsum : cell.remaining = (s.ledger (cellIndex d sub)).remaining + amount := by
    rw [hcell, addInt64, bmod_of_lt (by omega) (by omega)]
  apply h.write hwrite hlabel (by omega) hled (by omega)
  · rw [hpaid, hrecv, update_self, hsum]
    ring
  · intro c hne
    rw [hpaid, hrecv, update_of_ne hne]
    exact ⟨rfl, rfl⟩

/-- What `TrySpendDebit` answers and leaves. -/
theorem trySpendDebit_eq (l : LocalQuantaLedger) (d : UUID) (sub : Fin 4) (hamt : 0 < amount) :
    trySpendDebit l d sub amount =
      if (l (cellIndex d sub)).campaignHash = ledgerCellHash d sub ∧
          amount ≤ (l (cellIndex d sub)).remaining then
        (true, update l (cellIndex d sub)
          { l (cellIndex d sub) with remaining := (l (cellIndex d sub)).remaining - amount })
      else (false, l) := by
  unfold trySpendDebit
  rw [if_neg (not_le.mpr hamt)]
  by_cases hlabel : (l (cellIndex d sub)).campaignHash = ledgerCellHash d sub
  · by_cases hcover : amount ≤ (l (cellIndex d sub)).remaining
    · simp [hlabel, hcover]
    · simp [hlabel, hcover, not_le.mp hcover]
  · simp [hlabel]

/-- A spend that is accepted comes from an owned cell. -/
theorem QuantaInv.spend (h : QuantaInv K s) (hd : d ∈ K) (hamt : 0 < amount) :
    QuantaInv K (quantaStep s (.spend d sub amount)) := by
  simp only [quantaStep, trySpendDebit_eq s.ledger d sub hamt]
  split
  · rename_i hacc
    have hlabel : ({ s.ledger (cellIndex d sub) with
        remaining := (s.ledger (cellIndex d sub)).remaining - amount } : LocalQuantaCell).campaignHash =
        ledgerCellHash d sub := hacc.1
    have hfits := h.fits d hd
    apply h.write (h.writable hd hacc.1 (by omega)) hlabel
    · exact sub_nonneg.mpr hacc.2
    · rfl
    · dsimp only
      omega
    · simp only [update_self, if_true]
      ring
    · intro c hne
      exact ⟨rfl, update_of_ne hne _ _⟩
  · refine h.same rfl fun c => ?_
    simp

/-- Taking one cell. -/
theorem QuantaInv.takeDebit (h : QuantaInv K s) (hd : d ∈ K) (sub : Fin 4) :
    QuantaInv K { s with
      ledger := (takeRemainingDebit s.ledger d sub).2
      paid := update s.paid d (s.paid d + cellShare d sub s.ledger) } := by
  rw [takeRemainingDebit_eq]
  split
  · rename_i hpos
    have hlabel : (s.ledger (cellIndex d sub)).campaignHash = ledgerCellHash d sub := by
      by_contra hne
      rw [cellShare, if_neg hne] at hpos
      omega
    have hshare : cellShare d sub s.ledger = (s.ledger (cellIndex d sub)).remaining := by
      rw [cellShare, if_pos hlabel, max_eq_right (h.nonneg _)]
    have hfits := h.fits d hd
    have hlabel' : ({ s.ledger (cellIndex d sub) with remaining := 0 } : LocalQuantaCell).campaignHash =
        ledgerCellHash d sub := hlabel
    apply h.write (h.writable hd hlabel (by omega)) hlabel'
    · exact le_refl (0 : ℤ)
    · rfl
    · dsimp only
      omega
    · simp only [update_self, hshare]
      ring
    · intro c hne
      exact ⟨rfl, update_of_ne hne _ _⟩
  · rename_i hpos
    have hzero : cellShare d sub s.ledger = 0 :=
      le_antisymm (not_lt.mp hpos) (cellShare_nonneg d sub s.ledger)
    exact h.same rfl fun c => by simp [hzero]

/-- Taking several cells. -/
theorem QuantaInv.takeSubSlots (hnodup : subs.Nodup) (h : QuantaInv K s) (hd : d ∈ K) (total : ℤ) :
    QuantaInv K { s with
      ledger := (Ingestion.takeSubSlots d subs total s.ledger).2
      paid := update s.paid d (s.paid d + (subs.map fun sub => cellShare d sub s.ledger).sum) } := by
  induction subs generalizing s total with
  | nil => exact h.same rfl fun c => by simp
  | cons sub rest ih =>
    rw [List.nodup_cons] at hnodup
    have hloop := ih hnodup.2 (h.takeDebit hd sub) (addInt64 total (takeRemainingDebit s.ledger d sub).1)
    simp only [takeRemainingDebit_cellShares hnodup.1, update_self, update_idem, add_assoc] at hloop
    exact hloop

/-- Taking everything. -/
theorem QuantaInv.take (h : QuantaInv K s) (hd : d ∈ K) : QuantaInv K (quantaStep s (.take d)) := by
  have hloop := @QuantaInv.takeSubSlots K s d [0, 1, 2, 3] (by decide) h hd 0
  have htaken : ([0, 1, 2, 3].map fun sub => cellShare d sub s.ledger).sum =
      (takeRemaining s.ledger d).1 := by
    rw [takeRemaining_fst, bmod_of_lt (share_nonneg d s.ledger) (h.fits d hd)]
    simp [share, Fin.sum_univ_four, add_assoc]
  rw [htaken] at hloop
  simp only [quantaStep]
  exact hloop

/-- A balance fits `int64`. -/
theorem QuantaInv.remaining_lt (h : QuantaInv K s) (i : Fin 4096) : (s.ledger i).remaining < 2 ^ 63 := by
  by_cases hpos : 0 < (s.ledger i).remaining
  · obtain ⟨owner, howner, sub, rfl, hlabel, -⟩ := h.owned i hpos
    have hle := cellShare_le_share owner sub s.ledger
    rw [cellShare, if_pos hlabel, max_eq_right (h.nonneg _)] at hle
    exact hle.trans_lt (h.fits owner howner)
  · omega

/-- A deposit after which the books are right was safe. -/
theorem QuantaInv.deposit_safe (h : QuantaInv K s) (hgood : s'.Conserved K)
    (hd : d ∈ K) (hamt : 0 < amount) (hint : amount < 2 ^ 63)
    (hdep : Deposit d sub amount s s' cell) (chunkSize : ℤ) :
    (QuantaCall.credit d sub amount chunkSize).Safe K s.ledger := by
  obtain ⟨hlabel, hcell, hled, hpaid, hrecv⟩ := hdep
  have hput : share d s'.ledger =
      share d s.ledger + (max 0 cell.remaining - cellShare d sub s.ledger) := by
    rw [hled, share_update_self _ hlabel]
  have hbooks : share d s.ledger + amount = (share d s'.ledger).bmod (2 ^ 64) := by
    have hd' := (hgood d hd).2
    rw [takeRemaining_fst, hpaid, hrecv, update_self] at hd'
    have hpre := h.books d hd
    omega
  have hnn := h.nonneg (cellIndex d sub)
  have hbound := h.remaining_lt (cellIndex d sub)
  have hpart := cellShare_nonneg d sub s.ledger
  have hfits := h.fits d hd
  obtain ⟨hsum, hfound, hnext⟩ : cell.remaining = (s.ledger (cellIndex d sub)).remaining + amount ∧
      cellShare d sub s.ledger = (s.ledger (cellIndex d sub)).remaining ∧
      share d s.ledger + amount < 2 ^ 63 := by
    by_cases hwrap : (s.ledger (cellIndex d sub)).remaining + amount < 2 ^ 63
    · have hsum : cell.remaining = (s.ledger (cellIndex d sub)).remaining + amount := by
        rw [hcell, addInt64, bmod_of_lt (by omega) hwrap]
      by_cases hsmall : share d s'.ledger < 2 ^ 63
      · rw [bmod_of_lt (share_nonneg d s'.ledger) hsmall] at hbooks
        exact ⟨hsum, by omega, by omega⟩
      · have hneg := bmod_of_le (not_lt.mp hsmall) (by omega)
        omega
    · have hneg : cell.remaining < 0 := by
        rw [hcell, addInt64]
        exact bmod_of_le (not_lt.mp hwrap) (by omega)
      rw [bmod_of_lt (share_nonneg d s'.ledger) (by omega)] at hbooks
      omega
  refine ⟨?_, hnext, ?_⟩
  · intro c hc hne other hcollide
    have hsame : cellShare c other s.ledger = cellShare d sub s.ledger := by
      rw [cellShare, hcollide.1, hcollide.2, ← cellShare]
    have htheirs : share c s'.ledger = share c s.ledger + amount := by
      rw [hled, ← hcollide.1, share_update_self _ (hlabel.trans hcollide.2.symm), hsame, hfound,
        hsum, max_eq_right (by omega)]
      ring
    have hc' := (hgood c hc).2
    rw [takeRemaining_fst, htheirs, hpaid, hrecv, update_of_ne hne, h.books c hc] at hc'
    have hpositive := share_nonneg c s.ledger
    have htheirFits := h.fits c hc
    by_cases hsmall : share c s.ledger + amount < 2 ^ 63
    · rw [bmod_of_lt (by omega) hsmall] at hc'
      omega
    · have hneg := bmod_of_le (not_lt.mp hsmall) (by omega)
      omega
  · by_cases hown : (s.ledger (cellIndex d sub)).campaignHash = ledgerCellHash d sub
    · exact .inr hown
    · rw [cellShare, if_neg hown] at hfound
      exact .inl hfound.symm

/-- Each call keeps the invariant when it is safe. -/
theorem quantaStep_inv (call : QuantaCall) (hvalid : call.Valid K) (hsafe : call.Safe K s.ledger)
    (h : QuantaInv K s) : QuantaInv K (quantaStep s call) := by
  cases call with
  | credit id sub amount chunkSize =>
    obtain ⟨hmem, hamt, -⟩ := hvalid
    obtain ⟨halone, hfits, hlabel⟩ := hsafe
    obtain ⟨cell, hdep⟩ := deposit_credit s id sub chunkSize hamt
    exact h.deposit ⟨hmem, halone, hlabel⟩ hamt hfits hdep
  | spend id sub amount => exact h.spend hvalid.1 hvalid.2.1
  | refund id sub amount =>
    obtain ⟨hmem, hamt, -⟩ := hvalid
    obtain ⟨halone, hfits, hlabel⟩ := hsafe
    obtain ⟨cell, hdep⟩ := deposit_refund hamt hlabel
    exact h.deposit ⟨hmem, halone, .inr hlabel⟩ hamt hfits hdep
  | take id => exact h.take hvalid

/-- A refund that finds another label is lost. -/
theorem QuantaInv.refund_label (h : QuantaInv K s) (hd : d ∈ K) (hamt : 0 < amount)
    (hgood : (quantaStep s (.refund d sub amount)).Conserved K) :
    (s.ledger (cellIndex d sub)).campaignHash = ledgerCellHash d sub := by
  by_contra hlabel
  have hlost : refundDebit s.ledger d sub amount = s.ledger := by
    unfold refundDebit
    rw [if_neg (not_le.mpr hamt)]
    exact if_pos hlabel
  have hd' := (hgood d hd).2
  simp only [quantaStep, hlost, update_self, takeRemaining_fst,
    bmod_of_lt (share_nonneg d s.ledger) (h.fits d hd)] at hd'
  have hbooks := h.books d hd
  omega

/-- A call after which the books are right was safe. -/
theorem quantaStep_safe (call : QuantaCall) (hvalid : call.Valid K) (h : QuantaInv K s)
    (hgood : (quantaStep s call).Conserved K) : call.Safe K s.ledger := by
  cases call with
  | credit id sub amount chunkSize =>
    obtain ⟨hmem, hamt, hint⟩ := hvalid
    obtain ⟨cell, hdep⟩ := deposit_credit s id sub chunkSize hamt
    exact h.deposit_safe hgood hmem hamt hint hdep chunkSize
  | spend id sub amount | take id => trivial
  | refund id sub amount =>
    obtain ⟨hmem, hamt, hint⟩ := hvalid
    have hlabel := h.refund_label hmem hamt hgood
    obtain ⟨cell, hdep⟩ := deposit_refund hamt hlabel
    obtain ⟨halone, hfits, -⟩ := h.deposit_safe hgood hmem hamt hint hdep 0
    exact ⟨halone, hfits, hlabel⟩

end

/-- An empty ledger and empty books. -/
def quantaStart : QuantaState where
  ledger := newLocalQuantaLedger
  received _ := 0
  paid _ := 0

/-- The invariant holds at the start. -/
theorem quantaStart_inv (K : Finset UUID) : QuantaInv K quantaStart := by
  have hzero : ∀ c, share c newLocalQuantaLedger = 0 := by
    intro c
    apply Finset.sum_eq_zero
    intro sub _
    simp [cellShare, newLocalQuantaLedger]
  constructor
  · intro i
    exact le_refl 0
  · intro i hpos
    exact absurd hpos (lt_irrefl 0)
  · intro c _
    exact (hzero c).symm
  · intro c _
    rw [show share c quantaStart.ledger = 0 from hzero c]
    decide

/-- In every state of a run of calls by the campaigns of `K`, no campaign has got out more than it has put
in and the rest is what it would be given, exactly if every credit and every refund is safe. -/
theorem quanta_conserved_iff (K : Finset UUID) (calls : List QuantaCall)
    (hvalid : ∀ call ∈ calls, call.Valid K) :
    (∀ done, done <+: calls → (run quantaStep quantaStart done).Conserved K) ↔
      Admissible (fun s call => call.Safe K s.ledger) quantaStep quantaStart calls :=
  forall_reached_iff_admissible (fun _ h => h.conserved)
    (fun _ call hvalid hsafe h => quantaStep_inv call hvalid hsafe h)
    (fun _ call hvalid h hgood => quantaStep_safe call hvalid h hgood) (quantaStart_inv K)
    (Admissible.of_forall hvalid quantaStart)

/-- Two campaigns whose checksums agree in the low twelve bits. -/
def sampleColliding : UUID × UUID :=
  (((Vector.replicate 16 7).setIfInBounds 14 6).setIfInBounds 15 0x3b,
    ((Vector.replicate 16 7).setIfInBounds 14 8).setIfInBounds 15 0)

/-- The first campaign is credited, spends, is refunded and gives back; the second one uses the
same cell after that. -/
def sampleTurns : List QuantaCall :=
  [.credit sampleColliding.1 0 10 10, .spend sampleColliding.1 0 4, .refund sampleColliding.1 0 1,
    .take sampleColliding.1, .credit sampleColliding.2 0 5 0, .spend sampleColliding.2 0 7]

/-- Two campaigns that use a cell in turns keep their money. -/
theorem quanta_conserved_turns :
    (∀ call ∈ sampleTurns, call.Valid {sampleColliding.1, sampleColliding.2}) ∧
      ∀ done, done <+: sampleTurns →
        (run quantaStep quantaStart done).Conserved {sampleColliding.1, sampleColliding.2} := by
  have hvalid : ∀ call ∈ sampleTurns, call.Valid {sampleColliding.1, sampleColliding.2} := by
    decide +kernel
  exact ⟨hvalid, (quanta_conserved_iff {sampleColliding.1, sampleColliding.2} sampleTurns
    hvalid).mpr (by decide +kernel)⟩

/-- The second campaign spends what the first one was credited. -/
theorem quanta_moved :
    let s := run quantaStep quantaStart
      [.credit sampleColliding.1 0 10 0, .credit sampleColliding.2 0 5 0, .spend sampleColliding.2 0 15]
    s.received sampleColliding.2 = 5 ∧ s.paid sampleColliding.2 = 15 ∧
      s.received sampleColliding.1 - s.paid sampleColliding.1 = 10 ∧
      (takeRemaining s.ledger sampleColliding.1).1 = 0 := by
  decide +kernel

end Espx.Ingestion
