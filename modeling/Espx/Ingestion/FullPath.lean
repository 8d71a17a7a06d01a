import Espx.Foundation.Run
import Espx.Ingestion.FilterCalls
import Mathlib.Algebra.BigOperators.Group.Finset.Piecewise

/-!
# The full filter script conserves money

What an execution of `unified-filter.lua` takes from the spend key it adds to the two sync counters of the
campaign; a refused event leaves all but the ingress counter alone; an accepted one is appended to the
event stream, and to the stream of a slot migration while one is running.
-/

namespace Espx.Ingestion

open Espx.Foundation Espx.Domain UnifiedCall

/-- One execution of the full script: an event of a registered campaign, with a frequency key as the writers
of `brand_fcap_key` build it. -/
structure FilterExecution where
  filter : UnifiedFilter
  event : Event
  row : ListActiveCampaignsRow
  now : Clock
  registered : row.id = event.campaignID
  brandKey : row.brandFcapKey = "" ∨ BrandKey row.brandFcapKey

namespace FilterExecution

variable (x : FilterExecution) {key : String}

/-- The registered campaign. -/
def camp : Campaign := campaignFromListActiveCampaignsRow x.row

/-- The call that the filter makes. -/
def call : UnifiedCall := unifiedCall x.filter x.event x.camp x.now

/-- The step of the Redis server. -/
def step (r : Redis) (x : FilterExecution) : Redis := (x.call.run r).2

/-- A key that has a word behind the tag of a campaign. -/
def Tagged (word key : String) : Prop := ∃ id rest, key = campaignHashTag id ++ (word ++ rest)

/-- Such a key, or one that begins as the frequency keys of brands. -/
def Booked (word key : String) : Prop := Tagged word key ∨ BrandKey key

theorem Tagged.ne {word other key : String} (h : Tagged word key) {key' : String} (h' : Booked other key')
    (hclash : clash word.toList other.toList = true) : key ≠ key' := by
  obtain ⟨id, rest, rfl⟩ := h
  have hbrand : ∀ plain ∈ brandWords, clash "\x7b".toList plain.toList = true := by decide
  rcases h' with ⟨_, _, rfl⟩ | ⟨plain, hplain, _, rfl⟩
  · exact tagged_ne_of_clash hclash
  · exact tagged_ne_plain (hbrand plain hplain)

theorem Booked.not_money {word : String} (h : Booked word key)
    (hword : ∀ other ∈ moneyWords, clash word.toList other.toList = true) : ¬ MoneyKey key := by
  have hbrand : ∀ plain ∈ brandWords, clash plain.toList "\x7b".toList = true := by decide
  rcases h with ⟨_, _, rfl⟩ | ⟨plain, hplain, _, rfl⟩
  · exact not_moneyKey_tagged hword
  · exact not_moneyKey_plain (hbrand plain hplain)

/-- The keys of the bookkeeping have words of their own. -/
theorem bookKeys_booked :
    Booked "ingress:day:" x.call.precheck.ingressKey ∧ Tagged "dup:" x.call.dupKey ∧
      Tagged "idempotency:click:" x.call.idempotencyKey ∧
      Tagged "budget:daily_spent:campaign:" x.call.dailySpendKey ∧ Booked "fcap:c:" x.call.fcapKey ∧
      Tagged "imp_ts:" x.call.impTSKey ∧ Tagged "budget:refill_lock:" x.call.refillLockKey := by
  have htag {id : UUID} {word rest key : String} (h : campaignHashTag id ++ (word ++ rest) = key) :
      Tagged word key := ⟨id, rest, h.symm⟩
  simp only [call, camp, unifiedCall, luaPrecheck, campaignFromListActiveCampaignsRow, ingressDayKey,
    dailySpendKeyPrefix, String.append_assoc]
  refine ⟨?_, htag rfl, htag rfl, htag rfl, ?_, htag rfl, htag rfl⟩
  · split
    · exact .inl (htag rfl)
    · exact .inr ⟨"fcap:", by decide, "ignored", rfl⟩
  · split
    · unfold fcapKeyPrefix
      split
      · rename_i hne
        obtain ⟨plain, hplain, rest, hrest⟩ := x.brandKey.resolve_left hne
        refine .inr ⟨plain, hplain, rest ++ (":u:" ++ x.event.userID), ?_⟩
        rw [hrest]
        simp only [String.append_assoc]
      · simp only [String.append_assoc]
        exact .inl (htag rfl)
    · exact .inr ⟨"fcap:", by decide, "ignored", rfl⟩

/-- No key of the bookkeeping holds money. -/
theorem bookKeys_not_money (hkey : key ∈ x.call.bookKeys) : ¬ MoneyKey key := by
  obtain ⟨hin, hdup, hidem, hdaily, hfcap, himp, hlock⟩ := x.bookKeys_booked
  simp only [bookKeys, List.mem_cons, List.not_mem_nil, or_false] at hkey
  rcases hkey with rfl | rfl | rfl | rfl | rfl | rfl | rfl
  · exact hin.not_money (by decide)
  · exact Booked.not_money (.inl hdup) (by decide)
  · exact Booked.not_money (.inl hidem) (by decide)
  · exact Booked.not_money (.inl hdaily) (by decide)
  · exact hfcap.not_money (by decide)
  · exact Booked.not_money (.inl himp) (by decide)
  · exact Booked.not_money (.inl hlock) (by decide)

theorem ingressKey_not_money : ¬ MoneyKey x.call.precheck.ingressKey :=
  x.bookKeys_booked.1.not_money (by decide)

theorem spendKey_of_campaign : SpendKey x.event.campaignID x.call.spendKey := by
  have hbudget : x.call.budgetSourceKey = budgetCampaignKey x.event.campaignID := by
    rw [← x.registered]
    rfl
  unfold spendKey
  split
  · exact SpendKey.quota _
  · rw [hbudget]
    exact SpendKey.budget

theorem campaignSyncKey_eq : x.call.campaignSyncKey = campaignSyncKey x.event.campaignID := by
  rw [← x.registered]
  rfl

theorem customerSyncKey_eq :
    x.call.customerSyncKey = customerSyncKey x.event.campaignID x.row.customerID := by
  rw [← x.registered]
  rfl

theorem money_not_book (h : MoneyKey key) : key ∉ x.call.bookKeys :=
  fun hbook => x.bookKeys_not_money hbook h

/-- An execution moves an amount from the spend key to the two sync counters, and no other
money. -/
def Books (r after : Redis) (amount : ℤ) : Prop :=
  ∀ key, MoneyKey key → after.count key =
    r.count key + (if key = x.call.spendKey then -amount else 0) +
      (if key = x.call.campaignSyncKey then amount else 0) +
      (if key = x.call.customerSyncKey then amount else 0)

theorem step_books (r : Redis) : x.Books r (step r x) (x.call.charged r) :=
  fun _ hkey => x.call.run_count r (x.money_not_book hkey)

section

variable {x} {r after : Redis} {amount : ℤ} (h : x.Books r after amount)

include h

/-- What is taken from a spend key. -/
theorem Books.spend {id : UUID} {key : String} (hkey : SpendKey id key) :
    after.count key = r.count key + if key = x.call.spendKey then -amount else 0 := by
  have hc : key ≠ x.call.campaignSyncKey := by
    exact hkey.ne_campaignSync
  have hu : key ≠ x.call.customerSyncKey := by
    exact hkey.ne_customerSync
  rw [h key hkey.money, if_neg hc, if_neg hu, add_zero, add_zero]

/-- What is added to a campaign counter. -/
theorem Books.campaignSync (id : UUID) :
    after.count (campaignSyncKey id) =
      r.count (campaignSyncKey id) + if x.event.campaignID = id then amount else 0 := by
  have hs : campaignSyncKey id ≠ x.call.spendKey := x.spendKey_of_campaign.ne_campaignSync.symm
  have hu : campaignSyncKey id ≠ x.call.customerSyncKey := by
    exact campaignSyncKey_ne_customerSyncKey _ _ _
  have hc : campaignSyncKey id = x.call.campaignSyncKey ↔ x.event.campaignID = id := by
    rw [campaignSyncKey_eq]
    exact ⟨fun h => (campaignSyncKey_inj h).symm, fun h => h ▸ rfl⟩
  rw [h _ (MoneyKey.campaignSync id), if_neg hs, if_neg hu, add_zero, add_zero]
  simp only [hc]

/-- What is added to a customer counter. -/
theorem Books.customerSync (id customerID : UUID) :
    after.count (customerSyncKey id customerID) =
      r.count (customerSyncKey id customerID) +
        if x.event.campaignID = id ∧ x.row.customerID = customerID then amount else 0 := by
  have hs : customerSyncKey id customerID ≠ x.call.spendKey :=
    x.spendKey_of_campaign.ne_customerSync.symm
  have hc : customerSyncKey id customerID ≠ x.call.campaignSyncKey := by
    exact (campaignSyncKey_ne_customerSyncKey _ _ _).symm
  have hu : customerSyncKey id customerID = x.call.customerSyncKey ↔
      x.event.campaignID = id ∧ x.row.customerID = customerID := by
    rw [customerSyncKey_eq]
    constructor
    · intro h
      obtain ⟨hid, hcust⟩ := customerSyncKey_inj h
      exact ⟨hid.symm, hcust.symm⟩
    · rintro ⟨rfl, rfl⟩
      rfl
  rw [h _ (MoneyKey.customerSync id customerID), if_neg hs, if_neg hc, add_zero, add_zero]
  simp only [hu]

end

/-- An execution takes no more than the spend key holds, and never a negative amount. -/
theorem charged_bounds (r : Redis) (hamt : 0 ≤ x.call.amount) :
    0 ≤ x.call.charged r ∧ (0 < x.call.charged r → x.call.charged r ≤ r.count x.call.spendKey) := by
  have hnn : 0 ≤ x.call.price := by
    unfold price
    split <;> omega
  rcases x.call.run_cases r with ⟨hcode, -⟩ | ⟨hcode, hidem, budget, hbudget, hreject, -⟩
  · have hzero : x.call.charged r = 0 := if_pos (hcode.imp id And.right)
    omega
  have hprice : x.call.charged r = x.call.price := if_neg (by simp [hcode, hidem])
  have hcount : r.count x.call.spendKey = budget := by rw [Redis.count, hbudget, Option.getD_some]
  rw [hprice, hcount]
  refine ⟨hnn, ?_⟩
  unfold price
  split
  · omega
  · rename_i hskip
    intro _
    exact (x.call.budgetReject_eq_none (x.call.reject_eq_none _ hreject).2 (by simpa using hskip)).1

/-- A spend key is not driven below zero by a step. -/
theorem step_spend_bounded (r : Redis) {id : UUID} (h : SpendKey id key) {floor : ℤ}
    (hamt : key = x.call.spendKey → 0 ≤ x.call.amount) (hfloor : floor ≤ 0)
    (hkey : floor ≤ r.count key) : floor ≤ (step r x).count key := by
  rw [(x.step_books r).spend h]
  split
  · rename_i heq
    obtain ⟨hnn, hcover⟩ := x.charged_bounds r (hamt heq)
    rw [heq] at hkey ⊢
    by_cases hpos : 0 < x.call.charged r
    · omega
    · omega
  · omega

/-- The balance of a campaign's spend keys and counters: nothing is lost between them, and no
spend key is below its floor. -/
structure Balanced (id customerID : UUID) (keys : Finset String) (floor : String → ℤ)
    (campaignTotal customerTotal : ℤ) (r : Redis) : Prop where
  spend : ∀ key ∈ keys, floor key ≤ r.count key
  campaign : ∑ key ∈ keys, r.count key + r.count (campaignSyncKey id) = campaignTotal
  customer : ∑ key ∈ keys, r.count key + r.count (customerSyncKey id customerID) = customerTotal

/-- What a step takes from a set of spend keys. -/
theorem step_sum_spend (r : Redis) {id : UUID} {keys : Finset String}
    (hkeys : ∀ key ∈ keys, SpendKey id key) :
    ∑ key ∈ keys, (step r x).count key =
      ∑ key ∈ keys, r.count key + if x.call.spendKey ∈ keys then -x.call.charged r else 0 := by
  have hsum : ∑ key ∈ keys, (step r x).count key =
      ∑ key ∈ keys, (r.count key + if key = x.call.spendKey then -x.call.charged r else 0) :=
    Finset.sum_congr rfl fun key hkey => (x.step_books r).spend (hkeys key hkey)
  rw [hsum, Finset.sum_add_distrib, Finset.sum_ite_eq']

/-- The balance is kept by each execution of the campaign on these keys, and by executions of
other campaigns. -/
theorem step_balanced {id customerID : UUID} {keys : Finset String}
    (hkeys : ∀ key ∈ keys, SpendKey id key) {floor : String → ℤ} (hfloor : ∀ key, floor key ≤ 0)
    {campaignTotal customerTotal : ℤ} {r : Redis}
    (hx : x.event.campaignID = id →
      0 ≤ x.call.amount ∧ x.call.spendKey ∈ keys ∧ x.row.customerID = customerID)
    (h : Balanced id customerID keys floor campaignTotal customerTotal r) :
    Balanced id customerID keys floor campaignTotal customerTotal (step r x) := by
  obtain ⟨hspend, hcamp, hcust⟩ := h
  have hbound : ∀ key ∈ keys, floor key ≤ (step r x).count key := by
    intro key hkey
    refine x.step_spend_bounded r (hkeys key hkey) ?_ (hfloor key) (hspend key hkey)
    intro heq
    exact (hx (x.spendKey_of_campaign.campaign_eq (heq ▸ hkeys key hkey))).1
  by_cases hid : x.event.campaignID = id
  · obtain ⟨-, hmem, howner⟩ := hx hid
    refine ⟨hbound, ?_, ?_⟩
    · rw [x.step_sum_spend r hkeys, (x.step_books r).campaignSync, if_pos hmem, if_pos hid]
      omega
    · rw [x.step_sum_spend r hkeys, (x.step_books r).customerSync, if_pos hmem, if_pos ⟨hid, howner⟩]
      omega
  · have hother : x.call.spendKey ∉ keys := fun hmem =>
      hid (x.spendKey_of_campaign.campaign_eq (hkeys _ hmem))
    refine ⟨hbound, ?_, ?_⟩
    · rw [x.step_sum_spend r hkeys, (x.step_books r).campaignSync, if_neg hother, if_neg hid]
      omega
    · rw [x.step_sum_spend r hkeys, (x.step_books r).customerSync, if_neg hother,
        if_neg (fun hboth => hid hboth.1)]
      omega

/-- The day's counter is a key of its own. -/
theorem dailySpendKey_alone :
    x.call.dailySpendKey ∉ [x.call.dupKey, x.call.spendKey, x.call.campaignSyncKey,
      x.call.customerSyncKey, x.call.idempotencyKey, x.call.fcapKey, x.call.impTSKey,
      x.call.refillLockKey] ∧ x.call.dailySpendKey ≠ x.call.precheck.ingressKey := by
  have hmoney : ¬ MoneyKey x.call.dailySpendKey :=
    x.bookKeys_not_money (by simp [bookKeys])
  obtain ⟨hin, hdup, hidem, hdaily, hfcap, himp, hlock⟩ := x.bookKeys_booked
  refine ⟨?_, hdaily.ne hin (by decide)⟩
  simp only [List.mem_cons, List.not_mem_nil, or_false, not_or]
  refine ⟨hdaily.ne (.inl hdup) (by decide), ?_, ?_, ?_, hdaily.ne (.inl hidem) (by decide),
    hdaily.ne hfcap (by decide), hdaily.ne (.inl himp) (by decide), hdaily.ne (.inl hlock) (by decide)⟩
  · exact fun h => hmoney (h ▸ x.spendKey_of_campaign.money)
  · exact fun h => hmoney (h ▸ x.campaignSyncKey_eq ▸ MoneyKey.campaignSync _)
  · exact fun h => hmoney (h ▸ x.customerSyncKey_eq ▸ MoneyKey.customerSync _ _)

section

variable (r : Redis) (hcode : (x.call.run r).1 ∉ refusalCodes) (hidem : r.num x.call.idempotencyKey = none)
include hcode hidem

/-- What the script does to an event that it neither refuses nor finds charged. -/
theorem step_eq_accept :
    ∃ budget, x.call.reject (x.call.precheck.countIngress r) budget r = none ∧
      step r x = x.call.accept (x.call.precheck.countIngress r) budget := by
  rcases x.call.run_cases r with ⟨href | ⟨-, hset⟩, -⟩ | ⟨-, -, budget, -, hrun⟩
  · exact absurd href hcode
  · rw [hidem] at hset
    cases hset
  · exact ⟨budget, hrun⟩

/-- After an accepted and paced debit the spend of the day is within the pace. -/
theorem step_daily_le (hskip : x.call.skipBudget = false) (hpaced : x.call.paced = true) :
    (step r x).count x.call.dailySpendKey ≤ x.call.cumulativeLimit := by
  obtain ⟨halone, hin⟩ := x.dailySpendKey_alone
  obtain ⟨budget, hreject, hrun⟩ := x.step_eq_accept r hcode hidem
  have hpace := (x.call.budgetReject_eq_none (x.call.reject_eq_none _ hreject).2 hskip).2 hpaced
  rw [hrun, x.call.accept_daily _ budget hskip hpaced halone,
    x.call.precheck.countIngress_count_of_ne r hin]
  exact hpace

end

/-- The writes that follow the idempotency key do not touch it. -/
theorem idempotencyKey_alone :
    x.call.idempotencyKey ≠ x.call.dailySpendKey ∧ x.call.idempotencyKey ≠ x.call.fcapKey ∧
      x.call.idempotencyKey ≠ x.call.impTSKey ∧ x.call.idempotencyKey ≠ x.call.refillLockKey := by
  obtain ⟨-, -, hidem, hdaily, hfcap, himp, hlock⟩ := x.bookKeys_booked
  exact ⟨hidem.ne (.inl hdaily) (by decide), hidem.ne hfcap (by decide), hidem.ne (.inl himp) (by decide),
    hidem.ne (.inl hlock) (by decide)⟩

/-- What an accepted event does: stream entries, idempotency key and debit. -/
theorem step_accepted (r : Redis) (hcode : (x.call.run r).1 ∉ refusalCodes)
    (hidem : r.num x.call.idempotencyKey = none) :
    (step r x).streams =
        ((if x.call.skipBudget = false ∧ (r.text dualWriteFlag).isSome then
          r.xadd dualWriteStream x.call.migrationEntry else r).xadd x.call.streamKey
            (x.call.streamEntry r)).streams ∧
      (step r x).num x.call.idempotencyKey = some 1 ∧
      (step r x).count x.call.spendKey = r.count x.call.spendKey - x.call.price := by
  have hchg : x.call.charged r = x.call.price := if_neg (by simp [hcode, hidem])
  have hspend := (x.step_books r).spend x.spendKey_of_campaign
  rw [if_pos rfl, hchg] at hspend
  obtain ⟨budget, -, hrun⟩ := x.step_eq_accept r hcode hidem
  refine ⟨?_, ?_, by omega⟩
  · obtain ⟨htext, -, -, hstr⟩ := x.call.precheck.countIngress_frame r
    have hentry : x.call.streamEntry (x.call.precheck.countIngress r) = x.call.streamEntry r := by
      simp only [streamEntry, streamPayload, htext]
    rw [hrun, x.call.accept_streams, hentry, htext]
    split <;> simp only [Redis.xadd, hstr]
  · obtain ⟨hd, hf, hi, hl⟩ := x.idempotencyKey_alone
    rw [hrun, x.call.accept_idempotency _ budget hd hf hi hl]

/-- What a refused event, or one that was charged before, leaves unchanged. -/
theorem step_refused (r : Redis)
    (h : (x.call.run r).1 ∈ refusalCodes ∨ (r.num x.call.idempotencyKey).isSome) :
    (∀ key, key ≠ x.call.precheck.ingressKey → (step r x).num key = r.num key) ∧
      (step r x).text = r.text ∧ (step r x).sets = r.sets ∧ (step r x).hashes = r.hashes ∧
      (step r x).streams = r.streams := by
  rcases x.call.run_cases r with ⟨-, href⟩ | ⟨hcode, hidem, -⟩
  · exact ⟨fun key hkey => href.num hkey, href.frame⟩
  rcases h with h | h
  · exact absurd h hcode
  · rw [hidem] at h
    cases h

end FilterExecution

open FilterExecution in
/-- The full script conserves money and is atomic. Of the spend keys that the executions of a campaign
debit, whatever other campaigns do in between, none is driven below zero, and what the keys lost is what
each of the two counters gained. A refused or repeated event changes the ingress counter at most. An
accepted one is appended to the event stream once, and once to the migration stream when it is debited
during a dual write; it sets its idempotency key and costs exactly its price. A paced debit keeps the
pace. -/
theorem unifiedFilter_conserves (r : Redis) (xs : List FilterExecution) {id customerID : UUID}
    {keys : Finset String} (hkeys : ∀ key ∈ keys, SpendKey id key)
    (hxs : ∀ x ∈ xs, x.event.campaignID = id →
      0 ≤ x.call.amount ∧ x.call.spendKey ∈ keys ∧ x.row.customerID = customerID)
    (x : FilterExecution) :
    ((∀ key ∈ keys, min 0 (r.count key) ≤ (run step r xs).count key) ∧
      (run step r xs).count (campaignSyncKey id) - r.count (campaignSyncKey id) =
        ∑ key ∈ keys, (r.count key - (run step r xs).count key) ∧
      (run step r xs).count (customerSyncKey id customerID) - r.count (customerSyncKey id customerID) =
        ∑ key ∈ keys, (r.count key - (run step r xs).count key)) ∧
    ((x.call.run r).1 ∈ refusalCodes ∨ (r.num x.call.idempotencyKey).isSome →
      (∀ k, k ≠ x.call.precheck.ingressKey → (step r x).num k = r.num k) ∧
        (step r x).text = r.text ∧ (step r x).sets = r.sets ∧ (step r x).hashes = r.hashes ∧
        (step r x).streams = r.streams) ∧
    ((x.call.run r).1 ∉ refusalCodes → r.num x.call.idempotencyKey = none →
      (step r x).streams =
          ((if x.call.skipBudget = false ∧ (r.text dualWriteFlag).isSome then
            r.xadd dualWriteStream x.call.migrationEntry else r).xadd x.call.streamKey
              (x.call.streamEntry r)).streams ∧
        (step r x).num x.call.idempotencyKey = some 1 ∧
        (step r x).count x.call.spendKey = r.count x.call.spendKey - x.call.price) ∧
    ((x.call.run r).1 ∉ refusalCodes → r.num x.call.idempotencyKey = none →
      x.call.skipBudget = false → x.call.paced = true →
      (step r x).count x.call.dailySpendKey ≤ x.call.cumulativeLimit) := by
  have hbalanced : Balanced id customerID keys (fun key => min 0 (r.count key))
      (∑ key ∈ keys, r.count key + r.count (campaignSyncKey id))
      (∑ key ∈ keys, r.count key + r.count (customerSyncKey id customerID)) (run step r xs) := by
    apply (Admissible.of_forall hxs r).invariant
    · intro s y hy hs
      exact y.step_balanced hkeys (fun key => min_le_left _ _) hy hs
    · exact ⟨fun key _ => min_le_right _ _, rfl, rfl⟩
  obtain ⟨hspend, hcamp, hcust⟩ := hbalanced
  rw [Finset.sum_sub_distrib]
  refine ⟨⟨hspend, by omega, by omega⟩, x.step_refused r, x.step_accepted r, ?_⟩
  exact fun hcode hidem hskip hpaced => x.step_daily_le r hcode hidem hskip hpaced

/-- The click of the samples. -/
def sampleExecution : FilterExecution where
  filter := sampleFilter
  event := sampleClick
  row := sampleRow
  now := sampleClock
  registered := sampleClick_registered
  brandKey := sampleRow_brandKey

/-- A server that holds the budget of the sample campaign and runs a dual write. -/
def sampleDualWrite : Redis :=
  (Redis.empty.setNum (budgetCampaignKey sampleRow.id) 100).setText dualWriteFlag "1"

/-- Two clicks, of which the second is a repetition, on a server with a budget. -/
theorem unifiedFilter_conserves_sample :
    (run FilterExecution.step sampleDualWrite [sampleExecution, sampleExecution]).count
        (campaignSyncKey sampleRow.id) - sampleDualWrite.count (campaignSyncKey sampleRow.id) =
      ∑ key ∈ {budgetCampaignKey sampleRow.id}, (sampleDualWrite.count key -
        (run FilterExecution.step sampleDualWrite [sampleExecution, sampleExecution]).count key) :=
  (unifiedFilter_conserves sampleDualWrite [sampleExecution, sampleExecution]
    (by
      intro key hkey
      rw [Finset.mem_singleton.mp hkey]
      exact SpendKey.budget)
    (by
      intro x hx _
      simp only [List.mem_cons, List.not_mem_nil, or_false, or_self] at hx
      subst hx
      exact ⟨by decide, Finset.mem_singleton_self _, rfl⟩) sampleExecution).1.2.1

/-- During a dual write one accepted click leaves two stream entries. -/
theorem unifiedFilter_dual_write_two_entries :
    (sampleExecution.call.run sampleDualWrite).1 = 0 ∧
      sampleDualWrite.num sampleExecution.call.idempotencyKey = none ∧
      ((FilterExecution.step sampleDualWrite sampleExecution).streams "events").length =
        (sampleDualWrite.streams "events").length + 1 ∧
      ((FilterExecution.step sampleDualWrite sampleExecution).streams dualWriteStream).length =
        (sampleDualWrite.streams dualWriteStream).length + 1 := by
  decide +kernel

end Espx.Ingestion
