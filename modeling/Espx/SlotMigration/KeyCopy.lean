import Espx.SlotMigration.Reports

/-!
# Copying the keys of a campaign

The keys that `MigrateCampaignKeys` copies from shard to shard: ten of each campaign by name, among
them its budget, its quota and its counter, and others by pattern, none of which holds money.
-/

namespace Espx.SlotMigration

open Espx.Foundation Espx.Domain Espx.Ingestion Function

/-- `PlacementBlacklistKey`. -/
def placementBlacklistKey (id : UUID) : String :=
  campaignHashTag id ++ "blacklist:placement:" ++ uuidString id

/-- `CampaignRedisKeyCatalog.FixedKeys`. -/
def fixedKeys (id : UUID) : List String :=
  [budgetCampaignKey id, campaignHashTag id ++ "budget:quota:" ++ uuidString id,
    campaignHashTag id ++ "budget:refill_lock:" ++ uuidString id,
    budgetFrozenRedisKey id,
    campaignSyncKey id,
    "budget:inflight:campaign:" ++ uuidString id,
    "budget:lock:campaign:" ++ uuidString id,
    "budget:txid:campaign:" ++ uuidString id,
    "campaign:settings:" ++ uuidString id,
    placementBlacklistKey id]

/-- `CampaignRedisKeyCatalog.PrefixPatterns`. -/
def prefixPatterns (id : UUID) : List String :=
  [dailySpendKeyPrefix id, fcapKeyPrefix id "", campaignHashTag id ++ "dup:",
    campaignHashTag id ++ "dedup/v2:",
    campaignHashTag id ++ "idempotency:click:",
    campaignHashTag id ++ "rl:ip:",
    campaignHashTag id ++ "imp_ts:"]

/-- `migrateKey`: a key that the source has replaces the one of the target. No key of a campaign is a
stream. -/
def migrateKey (src dst : Redis) (key : String) : Redis :=
  if (src.num key).isSome ∨ (src.text key).isSome ∨ src.sets key ≠ ∅ ∨ src.hashes key ≠ ∅ then
    { dst with
      num := update dst.num key (src.num key)
      text := update dst.text key (src.text key)
      sets := update dst.sets key (src.sets key)
      hashes := update dst.hashes key (src.hashes key) }
  else dst

variable (src dst : Redis)

theorem migrateKey_count_of_ne {key counter : String} (h : counter ≠ key) :
    (migrateKey src dst key).count counter = dst.count counter := by
  unfold migrateKey
  split
  · change (update dst.num key _ counter).getD 0 = _
    rw [update_of_ne h]
    rfl
  · rfl

/-- A copied counter is the source's; one that the source has not got is left as it is. -/
theorem migrateKey_count_self {key : String} (h : src.num key = none → dst.num key = none) :
    (migrateKey src dst key).count key = src.count key := by
  unfold migrateKey
  split
  · change (update dst.num key _ key).getD 0 = _
    rw [update_self]
    rfl
  rename_i hmiss
  have hnum : src.num key = none := by
    rw [← Option.not_isSome_iff_eq_none]
    exact fun hsome => hmiss (Or.inl hsome)
  rw [Redis.count, Redis.count, h hnum, hnum]

/-- The keys that are found by their patterns hold no money. -/
theorem prefixPatterns_not_money {id : UUID} {pattern : String} (h : pattern ∈ prefixPatterns id)
    (rest : String) : ¬ MoneyKey (pattern ++ rest) := by
  simp only [prefixPatterns, List.mem_cons, List.not_mem_nil, or_false] at h
  rcases h with rfl | rfl | rfl | rfl | rfl | rfl | rfl
  · simp only [dailySpendKeyPrefix, String.append_assoc]
    exact not_moneyKey_tagged (by decide)
  · simp only [fcapKeyPrefix, ne_eq, not_true, if_false, String.append_assoc]
    exact not_moneyKey_tagged (by decide)
  all_goals
    rw [String.append_assoc]
    exact not_moneyKey_tagged (by decide)

end Espx.SlotMigration
