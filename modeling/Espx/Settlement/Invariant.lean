import Espx.Foundation.Run
import Espx.Settlement.System

/-!
# The settlement invariant

Nothing is lost and nothing stands twice, except for the amount of a half-done settlement. An entry that a
worker holds stands under the stored transaction id, is covered by the inflight counter, and agrees with
Postgres once its id has been applied there. A prepare keeps this under the condition `SafePrepare`.
-/

namespace Espx.Settlement

open Espx.Foundation Espx.Domain Espx.Ingestion Function Finset

namespace SettlementState

variable {W : Type*} (id customerID : UUID) (threshold : ℤ)

/-- A worker's entry stands under the stored id, is covered by the inflight counter, and once Postgres has
applied its id it is what Postgres recorded. -/
structure Holds (s : SettlementState W) (entry : PendingRollup) : Prop where
  tx : s.tx id = some entry.txID
  idStr : entry.idStr = uuidString id
  pos : 0 < entry.amountMicro
  le_inFlight : entry.amountMicro ≤ s.inFlight id
  recorded : entry.txID ∈ s.pg.syncIdempotency → entry.amountMicro = s.pg.settledAmount entry.txID

/-- What holds in every state: nothing is lost and nothing stands twice, except for the amount
of a half-done settlement. -/
structure Inv (base : ℤ) (s : SettlementState W) : Prop where
  sync_nonneg : 0 ≤ s.sync id
  inFlight_nonneg : 0 ≤ s.inFlight id
  tx_issued : ∀ txID, s.tx id = some txID → txID ∈ s.issued
  applied_issued : s.pg.syncIdempotency ⊆ s.issued
  issued_nonempty : "" ∉ s.issued
  half_covered : ∀ txID, s.tx id = some txID → txID ∈ s.pg.syncIdempotency →
    s.pg.settledAmount txID ≤ s.inFlight id ∧ 0 < s.pg.settledAmount txID
  total : s.spend id + s.inFlight id + s.sync id = base + s.accepted + s.halfDone id
  holds : ∀ w entry, s.stage w = .staged entry ∨ s.stage w = .settled entry → Holds id s entry
  applied : ∀ w entry, s.stage w = .settled entry → entry.txID ∈ s.pg.syncIdempotency
  alone : ∀ w w', s.stage w ≠ .idle → s.stage w' ≠ .idle → w = w'

section

variable {id customerID threshold} {base : ℤ} {s s' : SettlementState W}

section

variable (h : Inv id base s)
include h

/-- The invariant speaks of the counters, the stored id, Postgres and the workers only. -/
theorem Inv.of_same (hsync : s'.sync id = s.sync id) (hflight : s'.inFlight id = s.inFlight id)
    (htx : s'.tx id = s.tx id) (hpg : s'.pg = s.pg) (hstage : s'.stage = s.stage)
    (hacc : s'.accepted = s.accepted) (hissue : s.issued ⊆ s'.issued)
    (hne : "" ∉ s'.issued) : Inv id base s' := by
  have hhalf : s'.halfDone id = s.halfDone id := by simp only [halfDone, htx, hpg]
  have hspend : s'.spend id = s.spend id := by simp only [spend, hpg]
  constructor
  · rw [hsync]; exact h.sync_nonneg
  · rw [hflight]; exact h.inFlight_nonneg
  · intro txID htxID
    exact hissue (h.tx_issued txID (htx ▸ htxID))
  · rw [hpg]; exact h.applied_issued.trans hissue
  · exact hne
  · rw [htx, hpg, hflight]; exact h.half_covered
  · rw [hspend, hflight, hsync, hacc, hhalf]; exact h.total
  · rw [hstage]
    intro w entry hw
    obtain ⟨h1, h2, h3, h4, h5⟩ := h.holds w entry hw
    exact ⟨htx.trans h1, h2, h3, hflight ▸ h4, hpg ▸ h5⟩
  · rw [hstage, hpg]; exact h.applied
  · rw [hstage]; exact h.alone

/-- Spend that is added to the sync counter is accounted for at once. -/
theorem Inv.debited {amount : ℕ} {redis : Redis}
    (hsync : redis.count (campaignKeys id).syncKey = s.redis.count (campaignKeys id).syncKey + amount)
    (hflight : redis.count (campaignKeys id).inFlightKey = s.redis.count (campaignKeys id).inFlightKey)
    (htext : redis.text = s.redis.text) :
    Inv id base { s with redis := redis, accepted := s.accepted + amount } := by
  have htx : redis.text (campaignKeys id).txKey = s.tx id := by rw [htext]; rfl
  have htotal := h.total
  have hhalf : ({ s with redis := redis, accepted := s.accepted + amount } :
      SettlementState W).halfDone id = s.halfDone id := by
    simp only [halfDone, tx, htext]
  refine ⟨?_, ?_, ?_, h.applied_issued, h.issued_nonempty, ?_, ?_, ?_, h.applied, h.alone⟩
  · have hnn := h.sync_nonneg
    simp only [sync] at hnn ⊢
    omega
  · simp only [inFlight, hflight]
    exact h.inFlight_nonneg
  · intro txID htxID
    exact h.tx_issued txID (htx.symm.trans htxID)
  · intro txID htxID
    simp only [inFlight, hflight]
    exact h.half_covered txID (htx.symm.trans htxID)
  · simp only [spend, inFlight, sync] at htotal ⊢
    omega
  · intro w entry hw
    obtain ⟨h1, h2, h3, h4, h5⟩ := h.holds w entry hw
    refine ⟨htx.trans h1, h2, h3, ?_, h5⟩
    simp only [inFlight, hflight]
    exact h4

/-- The id that a prepare answers with: the stored one, or the fresh one. -/
theorem Inv.syncTxID_eq (newTxID : String) :
    syncTxID (campaignKeys id) newTxID s.redis = (s.tx id).getD newTxID := by
  unfold syncTxID
  cases htx : s.tx id with
  | none =>
    have hnone : s.redis.text (campaignKeys id).txKey = none := htx
    rw [hnone]
    rfl
  | some txID =>
    have hsome : s.redis.text (campaignKeys id).txKey = some txID := htx
    have hne : txID ≠ "" := fun heq => h.issued_nonempty (heq ▸ h.tx_issued txID htx)
    rw [hsome, Option.getD_some, if_neg hne]
    rfl

/-- Without anything to settle there is no entry and no half-done settlement. -/
theorem Inv.of_empty (hempty : s.inFlight id ≤ 0) : (∀ w, s.stage w = .idle) ∧ s.halfDone id = 0 := by
  constructor
  · intro w
    cases hw : s.stage w with
    | idle => rfl
    | staged entry =>
      have hentry := h.holds w entry (.inl hw)
      have hpos := hentry.pos
      have hle := hentry.le_inFlight
      omega
    | settled entry =>
      have hentry := h.holds w entry (.inr hw)
      have hpos := hentry.pos
      have hle := hentry.le_inFlight
      omega
  · unfold halfDone
    cases htx : s.tx id with
    | none => rfl
    | some txID =>
      dsimp only
      split
      · rename_i happ
        obtain ⟨hle, hpos⟩ := h.half_covered txID htx happ
        omega
      · rfl

omit h in
/-- A state in which no id is stored and no worker holds an entry. -/
theorem Inv.of_unheld (hsync : 0 ≤ s.sync id) (hflight : 0 ≤ s.inFlight id) (htx : s.tx id = none)
    (hidle : ∀ w, s.stage w = .idle) (happ : s.pg.syncIdempotency ⊆ s.issued) (hne : "" ∉ s.issued)
    (htotal : s.spend id + s.inFlight id + s.sync id = base + s.accepted) : Inv id base s := by
  have hhalf : s.halfDone id = 0 := by simp only [halfDone, htx]
  refine ⟨hsync, hflight, ?_, happ, hne, ?_, by omega, ?_, ?_, fun w w' hw => absurd (hidle w) hw⟩
  · simp [htx]
  · simp [htx]
  · simp [hidle]
  · simp [hidle]

/-- The script of a prepare that finds the lock free. -/
theorem Inv.prepared {newTxID : String} (hfresh : newTxID ≠ "" ∧ newTxID ∉ s.issued)
    (hsync : s'.sync id = 0) (hflight : s'.inFlight id = s.inFlight id + s.sync id)
    (htx : s'.tx id = if 0 < s.inFlight id + s.sync id then
      some ((s.tx id).getD newTxID) else none) (hpg : s'.pg = s.pg) (hstage : s'.stage = s.stage)
    (hacc : s'.accepted = s.accepted) (hissue : s'.issued = insert newTxID s.issued) : Inv id base s' := by
  have hsyncNonneg := h.sync_nonneg
  have hinFlightNonneg := h.inFlight_nonneg
  have hnew : newTxID ∉ s.pg.syncIdempotency := fun hmem => hfresh.2 (h.applied_issued hmem)
  have hspend : s'.spend id = s.spend id := by simp only [spend, hpg]
  have htotal := h.total
  have hne : "" ∉ s'.issued := by
    rw [hissue, mem_insert, not_or]
    exact ⟨fun heq => hfresh.1 heq.symm, h.issued_nonempty⟩
  have happ : s'.pg.syncIdempotency ⊆ s'.issued := by
    rw [hpg, hissue]
    exact h.applied_issued.trans (subset_insert _ _)
  by_cases hpos : 0 < s.inFlight id + s.sync id
  · rw [if_pos hpos] at htx
    have hhalf : s'.halfDone id = s.halfDone id := by
      simp only [halfDone, htx, hpg]
      cases s.tx id with
      | none => exact if_neg hnew
      | some txID => rfl
    have hstored : ∀ txID, s'.tx id = some txID → txID ∈ s.pg.syncIdempotency → s.tx id = some txID := by
      intro txID htxID hmem
      rw [htx, Option.some.injEq] at htxID
      cases hold : s.tx id with
      | none =>
        rw [hold, Option.getD_none] at htxID
        exact absurd (htxID ▸ hmem) hnew
      | some old =>
        rw [hold, Option.getD_some] at htxID
        rw [htxID]
    refine ⟨by omega, by omega, ?_, happ, hne, ?_, by omega, ?_, ?_, ?_⟩
    · intro txID htxID
      rw [htx, Option.some.injEq] at htxID
      rw [hissue, ← htxID]
      cases hold : s.tx id with
      | none => exact mem_insert_self _ _
      | some old => exact mem_insert_of_mem (h.tx_issued old hold)
    · intro txID htxID hmem
      rw [hpg] at hmem ⊢
      obtain ⟨hle, hlt⟩ := h.half_covered txID (hstored txID htxID hmem) hmem
      exact ⟨by omega, hlt⟩
    · intro w entry hw
      rw [hstage] at hw
      obtain ⟨h1, h2, h3, h4, h5⟩ := h.holds w entry hw
      refine ⟨?_, h2, h3, by omega, hpg ▸ h5⟩
      rw [htx, h1, Option.getD_some]
    · rw [hstage, hpg]
      exact h.applied
    · rw [hstage]
      exact h.alone
  · rw [if_neg hpos] at htx
    obtain ⟨hidle, hzero⟩ := h.of_empty (by omega)
    exact .of_unheld (by omega) (by omega) htx (hstage ▸ hidle) happ hne (by omega)

/-- The script of a prepare, seen through the integers and texts it leaves. -/
theorem Inv.scripted {newTxID : String} {redis : Redis} (hfresh : newTxID ≠ "" ∧ newTxID ∉ s.issued)
    (hnum : redis.num = (prepareSyncScript (campaignKeys id) newTxID s.redis).2.num)
    (htext : redis.text = (prepareSyncScript (campaignKeys id) newTxID s.redis).2.text) :
    Inv id base { s with redis := redis, issued := insert newTxID s.issued } := by
  have hcount : ∀ key, redis.count key =
      (prepareSyncScript (campaignKeys id) newTxID s.redis).2.count key := fun key => by
    rw [Redis.count, hnum, Redis.count]
  have hne : "" ∉ insert newTxID s.issued := by
    rw [mem_insert, not_or]
    exact ⟨fun heq => hfresh.1 heq.symm, h.issued_nonempty⟩
  cases hlock : s.redis.num (campaignKeys id).lockKey with
  | some v =>
    have hlocked := prepareSyncScript_locked newTxID (r := s.redis) (by rw [hlock]; rfl)
    rw [hlocked] at hcount htext
    exact h.of_same (hcount _) (hcount _) (congrFun htext _) rfl rfl rfl (subset_insert _ _) hne
  | none =>
    obtain ⟨hsync, hflight, -, htx⟩ := prepareSyncScript_spec (budgetEntityKeys_distinct _ _)
      newTxID hlock h.sync_nonneg h.inFlight_nonneg
    apply h.prepared hfresh
    · exact (hcount _).trans hsync
    · exact (hcount _).trans hflight
    · rw [← h.syncTxID_eq]
      exact (congrFun htext _).trans htx
    · rfl
    · rfl
    · rfl
    · rfl

/-- A change of the campaign's status is no matter of money. -/
theorem Inv.of_status (status : CampaignStatus) :
    Inv id base { s with pg := s.pg.updateCampaignStatus id status } := by
  have hspend : ({ s with pg := s.pg.updateCampaignStatus id status } :
      SettlementState W).spend id = s.spend id := by
    simp only [spend, Pg.updateCampaignStatus, Table.get?_modify_self, Option.map_map]
    rfl
  refine { h with total := ?_, holds := ?_ }
  · rw [hspend]
    exact h.total
  · exact fun w entry hw => { h.holds w entry hw with }

/-- A settlement of a held entry is half done once Postgres has applied it. -/
theorem Inv.of_flushed {w : W} {entry : PendingRollup} (hstaged : s.stage w = .staged entry)
    {pg : Pg} (hflush : Flushed (flushItem threshold id entry) s.pg pg) :
    Inv id base { s with pg := pg } := by
  have hentry := h.holds w entry (.inl hstaged)
  have hfresh : entry.txID ∉ s.pg.syncIdempotency := hflush.fresh
  have hmem : entry.txID ∈ pg.syncIdempotency := by
    rw [hflush.syncIdempotency]
    exact mem_insert_self _ _
  have hamt : pg.settledAmount entry.txID = entry.amountMicro := hflush.settledAmount
  have hstored : ∀ txID, s.tx id = some txID → txID = entry.txID := fun txID htxID =>
    Option.some.inj (htxID.symm.trans hentry.tx)
  have hhold : ∀ v e, s.stage v = .staged e ∨ s.stage v = .settled e → e = entry := by
    intro v e hv
    have hsame : v = w := by
      apply h.alone
      · rcases hv with hv | hv <;> rw [hv] <;> exact Stage.noConfusion
      · rw [hstaged]
        exact Stage.noConfusion
    rw [hsame, hstaged] at hv
    rcases hv with hv | hv <;> cases hv
    rfl
  have hpre : s.halfDone id = 0 := by
    simp only [halfDone, hentry.tx]
    exact if_neg hfresh
  have hafter : ({ s with pg := pg } : SettlementState W).halfDone id = entry.amountMicro := by
    have htx : ({ s with pg := pg } : SettlementState W).tx id = some entry.txID := hentry.tx
    simp only [halfDone, htx]
    rw [if_pos hmem, hamt]
  have hspend : ({ s with pg := pg } : SettlementState W).spend id = s.spend id + entry.amountMicro := by
    obtain ⟨row, -, -, hrow, -⟩ := hflush.covered
    obtain ⟨row', hrow', hgrown⟩ := hflush.campaign hrow
    have hold : s.pg.campaigns.get? id = some row := hrow
    have hnew : pg.campaigns.get? id = some row' := hrow'
    simp only [spend, hold, hnew, Option.map_some, Option.getD_some]
    exact hgrown
  refine ⟨h.sync_nonneg, h.inFlight_nonneg, h.tx_issued, ?_, h.issued_nonempty, ?_, ?_, ?_, ?_, h.alone⟩
  · intro txID htxID
    rw [hflush.syncIdempotency, mem_insert] at htxID
    rcases htxID with rfl | htxID
    · exact h.tx_issued _ hentry.tx
    · exact h.applied_issued htxID
  · intro txID htxID _
    rw [hstored txID htxID, hamt]
    exact ⟨hentry.le_inFlight, hentry.pos⟩
  · rw [hspend, hafter]
    have htotal := h.total
    rw [hpre] at htotal
    change s.spend id + entry.amountMicro + s.inFlight id + s.sync id =
      base + s.accepted + entry.amountMicro
    omega
  · intro v e hv
    rw [hhold v e hv]
    exact { hentry with recorded := fun _ => hamt.symm }
  · intro v e hv
    rw [hhold v e (.inr hv)]
    exact hmem

end

variable [DecidableEq W]

/-- A worker may drop its entry, or hold one that is accounted for when nobody else does. -/
theorem Inv.set_stage (h : Inv id base s) (w : W) {st : Stage}
    (hholds : ∀ entry, st = .staged entry ∨ st = .settled entry → Holds id s entry)
    (happ : ∀ entry, st = .settled entry → entry.txID ∈ s.pg.syncIdempotency)
    (hothers : st ≠ .idle → ∀ w', w' ≠ w → s.stage w' = .idle) :
    Inv id base { s with stage := Function.update s.stage w st } := by
  refine { h with holds := ?_, applied := ?_, alone := ?_ }
  · exact (forall_update_iff s.stage fun _ st => ∀ entry, st = .staged entry ∨ st = .settled entry →
      Holds id _ entry).mpr ⟨fun entry he => { hholds entry he with },
        fun v _ entry hv => { h.holds v entry hv with }⟩
  · exact (forall_update_iff s.stage fun _ st => ∀ entry, st = .settled entry →
      entry.txID ∈ s.pg.syncIdempotency).mpr ⟨happ, fun v _ => h.applied v⟩
  · intro v v' hv hv'
    by_cases hvw : v = w
    · by_cases hvw' : v' = w
      · exact hvw.trans hvw'.symm
      subst hvw
      simp only [update_self] at hv
      simp only [update_of_ne hvw'] at hv'
      exact absurd (hothers hv v' hvw') hv'
    · by_cases hvw' : v' = w
      · subst hvw'
        simp only [update_self] at hv'
        simp only [update_of_ne hvw] at hv
        exact absurd (hothers hv' v hvw) hv
      · simp only [update_of_ne hvw] at hv
        simp only [update_of_ne hvw'] at hv'
        exact h.alone v v' hv hv'

/-- An accepted debit keeps the invariant. -/
theorem step_debit_inv (h : Inv id base s) (slot : Slot) (amount : ℕ) :
    Inv id base (s.step id customerID threshold (.debit slot amount)) := by
  simp only [step]
  cases hacc : acceptDebit id customerID slot amount s.redis with
  | none => exact h
  | some redis =>
    obtain ⟨hsync, hflight, -, htext⟩ := acceptDebit_counts hacc
    exact h.debited hsync hflight htext

/-- A prepare keeps the invariant when it is safe. -/
theorem step_prepare_inv (h : Inv id base s) (w : W) (newTxID : String) (delivered : Bool)
    (hfresh : s.Fresh (.prepare w newTxID delivered))
    (hsafe : s.SafePrepare id (.prepare w newTxID delivered)) :
    Inv id base (s.prepare id w newTxID delivered) := by
  have hscr := prepareEntity_redis "campaign" (uuidString id) id newTxID s.redis
  unfold prepare
  set prepared := prepareEntity "campaign" (uuidString id) id newTxID s.redis
  have hprepared : Inv id base { s with
      redis := prepared.2
      issued := insert newTxID s.issued } := h.scripted hfresh hscr.1 hscr.2
  have hlost : Inv id base { s with
      redis := (prepareSyncScript (campaignKeys id) newTxID s.redis).2
      issued := insert newTxID s.issued } := h.scripted hfresh rfl rfl
  have htaken : ∀ entry, prepared.1 = some entry → delivered = true → Inv id base { s with
        redis := prepared.2
        stage := Function.update s.stage w (.staged entry)
        issued := insert newTxID s.issued } := by
    intro entry hentry hdeliv
    obtain ⟨hlock, htotal, hamt, htxID, hidStr⟩ := prepareEntity_eq_some hentry
    obtain ⟨-, hflight, -, htx⟩ := prepareSyncScript_spec (budgetEntityKeys_distinct _ _)
      newTxID hlock h.sync_nonneg h.inFlight_nonneg
    rw [hdeliv] at hsafe
    obtain ⟨hothers, hrec⟩ := hsafe hlock htotal
    refine hprepared.set_stage w ?_ ?_ (fun _ => hothers)
    · intro entry' hentry'
      obtain rfl : entry = entry' := by
        rcases hentry' with heq | heq
        · exact Stage.staged.inj heq
        · cases heq
      refine ⟨?_, hidStr, hamt ▸ htotal, ?_, ?_⟩
      · change prepared.2.text (campaignKeys id).txKey = some entry.txID
        rw [hscr.2, htxID]
        exact htx.trans (if_pos htotal)
      · change entry.amountMicro ≤ prepared.2.count (campaignKeys id).inFlightKey
        rw [Redis.count, hscr.1, hamt]
        exact hflight.ge
      · intro hmem
        have hstored : s.tx id = some entry.txID := by
          have hans := htxID.trans (h.syncTxID_eq newTxID)
          cases hold : s.tx id with
          | none =>
            rw [hold, Option.getD_none] at hans
            exact absurd (h.applied_issued (hans ▸ hmem)) hfresh.2
          | some old =>
            rw [hold, Option.getD_some] at hans
            rw [hans]
        exact hamt.trans (hrec _ hstored hmem)
    · intro entry' hentry'
      cases hentry'
  dsimp only
  split
  · exact h
  split
  · rename_i hdeliv
    cases hentry : prepared.1 with
    | none => exact hprepared
    | some entry => exact htaken entry hentry hdeliv
  · exact hlost

/-- A flush is a matter of Postgres: it changes nothing, pauses the campaign, or applies the entry of the
worker, which may learn of it. -/
theorem flush_cases (s : SettlementState W) (w : W) (rowLocked : Bool) (reply : Reply) :
    let next := s.flush id threshold w rowLocked reply
    next = s ∨ next = { s with pg := s.pg.updateCampaignStatus id .paused } ∨
      ∃ entry pg, s.stage w = .staged entry ∧
        applySpendFlush rowLocked (flushItem threshold id entry) s.pg = .ok pg ∧
        (next = { s with pg := pg } ∨
          next = { s with pg := pg, stage := Function.update s.stage w (.settled entry) }) := by
  unfold flush
  cases hstage : s.stage w with
  | idle | settled entry => cases reply <;> exact .inl rfl
  | staged entry =>
    cases hbatch : updateSpendBatch (fun _ => rowLocked) [flushItem threshold id entry] s.pg with
    | none => cases reply <;> simp [hbatch]
    | some out =>
      obtain ⟨outcomes, pg⟩ := out
      rcases updateSpendBatch_single hbatch with ⟨rfl, hok⟩ | ⟨rfl, err, rfl⟩
      · cases reply with
        | failed => exact .inl rfl
        | received => exact .inr (.inr ⟨entry, pg, rfl, hok, .inr (by simp only [hbatch])⟩)
        | lost => exact .inr (.inr ⟨entry, pg, rfl, hok, .inl (by simp only [hbatch])⟩)
      · cases reply with
        | failed => exact .inl rfl
        | lost => exact .inl (by simp only [hbatch])
        | received => cases err <;> simp [hbatch]

/-- A flush keeps the invariant, whatever becomes of it. -/
theorem step_flush_inv (h : Inv id base s) (w : W) (rowLocked : Bool) (reply : Reply) :
    Inv id base (s.flush id threshold w rowLocked reply) := by
  rcases s.flush_cases w rowLocked reply with hnext | hnext | ⟨entry, pg, hstage, hok, hnext⟩
  · rw [hnext]
    exact h
  · rw [hnext]
    exact h.of_status .paused
  obtain ⟨hinv, hmem⟩ : Inv id base { s with pg := pg } ∧ entry.txID ∈ pg.syncIdempotency := by
    rcases applySpendFlush_eq_ok hok with ⟨hmem, rfl⟩ | hflush
    · exact ⟨h, hmem⟩
    · refine ⟨h.of_flushed hstage hflush, ?_⟩
      rw [hflush.syncIdempotency]
      exact mem_insert_self _ _
  rcases hnext with hnext | hnext
  · rw [hnext]
    exact hinv
  rw [hnext]
  refine hinv.set_stage w ?_ ?_ ?_
  · intro e he
    obtain rfl : entry = e := by
      rcases he with he | he
      · cases he
      · exact Stage.settled.inj he
    exact hinv.holds w entry (.inl hstage)
  · intro e he
    obtain rfl : entry = e := Stage.settled.inj he
    exact hmem
  · intro _ v hv
    by_contra hne
    exact hv (h.alone v w hne (by rw [hstage]; exact Stage.noConfusion))

/-- A commit completes a half-done settlement; a lost one leaves it half done. -/
theorem step_commit_inv (h : Inv id base s) (w : W) (delivered : Bool) :
    Inv id base (s.commit w delivered) := by
  unfold commit
  cases hstage : s.stage w with
  | idle | staged entry => exact h
  | settled entry =>
    have hentry := h.holds w entry (.inr hstage)
    have hmem := h.applied w entry hstage
    cases delivered with
    | false =>
      refine h.set_stage w ?_ ?_ ?_
      · rintro e (he | he) <;> cases he
      · intro e he
        cases he
      · exact fun hne => absurd rfl hne
    | true =>
      have hother : ∀ v, Function.update s.stage w .idle v = .idle := by
        intro v
        by_cases hv : v = w
        · subst hv
          exact update_self _ _ _
        · rw [update_of_ne hv]
          by_contra hne
          exact hv (h.alone v w hne (by rw [hstage]; exact Stage.noConfusion))
      obtain ⟨hsync, hflight, -, htx⟩ := commitSyncScript_spec
        (budgetEntityKeys_distinct "campaign" (uuidString id)) entry.amountMicro (uuidString id) s.redis
      have hle := hentry.le_inFlight
      have hhalf : s.halfDone id = entry.amountMicro := by
        simp only [halfDone, hentry.tx]
        rw [if_pos hmem, ← hentry.recorded hmem]
      have htotal := h.total
      have hsyncNonneg := h.sync_nonneg
      simp only [if_true, commitEntity, hentry.idStr]
      refine .of_unheld (hsyncNonneg.trans_eq hsync.symm) ((le_max_left _ _).trans_eq hflight.symm) htx
        hother h.applied_issued h.issued_nonempty ?_
      simp only [spend, inFlight, sync, campaignKeys] at htotal hle hflight hsync ⊢
      omega

/-- Every step that is fresh and safe keeps the invariant. -/
theorem step_inv (a : SettlementAction W) (ha : s.Fresh a ∧ s.SafePrepare id a)
    (h : Inv id base s) : Inv id base (s.step id customerID threshold a) := by
  cases a with
  | debit slot amount => exact step_debit_inv h slot amount
  | prepare w newTxID delivered => exact step_prepare_inv h w newTxID delivered ha.1 ha.2
  | flush w rowLocked reply => exact step_flush_inv h w rowLocked reply
  | commit w delivered => exact step_commit_inv h w delivered
  | lockExpiry =>
    have hkeys := budgetEntityKeys_distinct "campaign" (uuidString id)
    exact h.of_same (Redis.delNum_count_of_ne _ hkeys.lock_sync.symm)
      (Redis.delNum_count_of_ne _ hkeys.lock_inFlight.symm) rfl rfl rfl rfl (Finset.Subset.refl _)
      h.issued_nonempty
  | crash w =>
    refine h.set_stage w ?_ ?_ ?_
    · rintro e (he | he) <;> cases he
    · intro e he
      cases he
    · exact fun hne => absurd rfl hne

end

/-- A state before any settlement: nothing is stored, nobody holds an entry, and the ids that
Postgres knows count as issued. -/
structure Start (s : SettlementState W) : Prop where
  sync_nonneg : 0 ≤ s.sync id
  inFlight_nonneg : 0 ≤ s.inFlight id
  tx : s.tx id = none
  idle : ∀ w, s.stage w = .idle
  accepted : s.accepted = 0
  applied_issued : s.pg.syncIdempotency ⊆ s.issued
  issued_nonempty : "" ∉ s.issued

/-- The invariant holds at the start. -/
theorem Start.inv {s : SettlementState W} (h : Start id s) :
    Inv id (s.spend id + s.inFlight id + s.sync id) s := by
  refine .of_unheld h.sync_nonneg h.inFlight_nonneg h.tx h.idle h.applied_issued h.issued_nonempty ?_
  rw [h.accepted, add_zero]

theorem halfDone_eq_zero {s : SettlementState W} (h : ¬ s.HalfDone id) : s.halfDone id = 0 := by
  unfold halfDone
  cases htx : s.tx id with
  | none => rfl
  | some txID => exact if_neg fun hmem => h ⟨txID, htx, hmem⟩

end SettlementState

end Espx.Settlement
