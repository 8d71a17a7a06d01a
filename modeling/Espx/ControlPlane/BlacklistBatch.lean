import Espx.Foundation.Redis

/-!
# Batches of blacklist events

`applyBlacklistPayloadsBatch` groups events by reason and sends each shard the removals of a reason before
its additions. One by one the last event about an address decides; in a batch any addition does.
-/

namespace Espx.ControlPlane

open Espx.Foundation List

/-- `BlacklistPayload`. -/
structure BlacklistPayload where
  action : String
  ip : String
  reason : String

namespace BlacklistPayload

variable (p : BlacklistPayload)

/-- The reason after `normalizeBlacklistReason`. -/
def normalized : String := if p.reason = "" then "manual" else p.reason

/-- The action is one of the two. -/
def valid : Bool := p.action = "add" ∨ p.action = "remove"

/-- The command of an event on one shard. -/
def write (r : Redis) : Redis :=
  if p.action = "add" then r.sadd ("blacklist:" ++ p.normalized) p.ip
  else r.srem ("blacklist:" ++ p.normalized) p.ip

end BlacklistPayload

/-- The addresses that a shard lists under a reason. -/
def listed (reason : String) (r : Redis) : Finset String := r.sets ("blacklist:" ++ reason)

/-- `applyBlacklistPayload`: the error and the shards. -/
def applyBlacklistPayload (rdbs : ℕ → Redis) (p : BlacklistPayload) : Option String × (ℕ → Redis) :=
  if p.valid then (none, fun shard => p.write (rdbs shard))
  else (some ("unknown blacklist action: " ++ p.action), rdbs)

section

variable (events : List BlacklistPayload) (reason : String)

/-- The addresses that the batch of a reason has for an action. -/
def reasonIPs (action : String) : List String :=
  (events.filter fun p => p.normalized = reason ∧ p.action = action).map (·.ip)

/-- The pipeline of a reason on one shard: an `SREM` for each removal and an `SADD` of the additions. -/
def syncReason (r : Redis) : Redis :=
  let key := "blacklist:" ++ reason
  { r with
    sets := Function.update r.sets key (r.sets key \ (reasonIPs events reason "remove").toFinset ∪
      (reasonIPs events reason "add").toFinset) }

/-- `applyBlacklistPayloadsBatch`, for the order in which Go walks the map of reasons. -/
def applyBlacklistPayloadsBatch (order : List String) (rdbs : ℕ → Redis) : Option String × (ℕ → Redis) :=
  match events.find? (!·.valid) with
  | some p => (some ("unknown blacklist action: " ++ p.action), rdbs)
  | none => (none, order.foldl (fun rdbs reason shard => syncReason events reason (rdbs shard)) rdbs)

/-- The events one by one. -/
def applyOneByOne (rdbs : ℕ → Redis) : ℕ → Redis :=
  events.foldl (fun rdbs p => (applyBlacklistPayload rdbs p).2) rdbs

/-- The last event about an address under a reason. -/
def lastAbout (ip : String) : Option BlacklistPayload :=
  events.reverse.find? fun p => p.normalized = reason ∧ p.ip = ip

/-- Every address that is added under a reason is added by the last event about it there. -/
def addedLast : Bool :=
  ∀ p ∈ events, p.action = "add" → (lastAbout events p.normalized p.ip).map (·.action) = some "add"

end

section

variable {ip reason : String} {events : List BlacklistPayload} {order : List String} {rdbs : ℕ → Redis}
  {shard : ℕ}

/-- An event decides about its own address and leaves the others. -/
theorem mem_listed_write (p : BlacklistPayload) (r : Redis) : ip ∈ listed reason (p.write r) ↔
    if p.normalized = reason ∧ p.ip = ip then p.action = "add" else ip ∈ listed reason r := by
  unfold BlacklistPayload.write listed
  by_cases hkey : p.normalized = reason
  · by_cases hip : p.ip = ip
    · by_cases hadd : p.action = "add" <;> simp [hkey, hip, hadd]
    · by_cases hadd : p.action = "add" <;> simp [hkey, hip, Ne.symm hip, hadd]
  · by_cases hadd : p.action = "add" <;> simp [hkey, Ne.symm hkey, hadd, Redis.sadd, Redis.srem]

/-- One by one the last event decides. -/
theorem mem_applyOneByOne (hvalid : ∀ p ∈ events, p.valid) :
    ip ∈ listed reason (applyOneByOne events rdbs shard) ↔
      (lastAbout events reason ip).elim (ip ∈ listed reason (rdbs shard)) (·.action = "add") := by
  induction events using reverseRecOn with
  | nil => rfl
  | append_singleton events p ih =>
    obtain ⟨hfirst, hp⟩ := forall_mem_append.mp hvalid
    rw [applyOneByOne] at ih ⊢
    rw [foldl_append, foldl_cons, foldl_nil, applyBlacklistPayload, if_pos (hp p mem_cons_self),
      mem_listed_write, ih hfirst, lastAbout, lastAbout, reverse_append, reverse_singleton,
      singleton_append, find?_cons]
    by_cases habout : p.normalized = reason ∧ p.ip = ip
    · rw [if_pos habout, decide_eq_true habout]
      rfl
    · rw [if_neg habout, decide_eq_false habout]

/-- In a batch an address is in the list of a reason when it was added, or was in it and not removed. -/
theorem mem_foldl_syncReason :
    ip ∈ listed reason (order.foldl (fun rdbs reason shard => syncReason events reason (rdbs shard))
        rdbs shard) ↔
      reason ∈ order ∧ ip ∈ reasonIPs events reason "add" ∨ ip ∈ listed reason (rdbs shard) ∧
        ¬ (reason ∈ order ∧ ip ∈ reasonIPs events reason "remove") := by
  induction order generalizing rdbs with
  | nil => simp
  | cons first order ih =>
    rw [foldl_cons, ih, listed, listed, syncReason, mem_cons]
    by_cases h : reason = first
    · subst h
      simp
      tauto
    · simp [h]

theorem mem_reasonIPs {action : String} : ip ∈ reasonIPs events reason action ↔
    ∃ p ∈ events, (p.normalized = reason ∧ p.ip = ip) ∧ p.action = action := by
  simp only [reasonIPs, mem_map, mem_filter, decide_eq_true_iff]
  constructor
  · rintro ⟨p, ⟨hp, hreason, hact⟩, rfl⟩
    exact ⟨p, hp, ⟨hreason, rfl⟩, hact⟩
  · rintro ⟨p, hp, ⟨hreason, rfl⟩, hact⟩
    exact ⟨p, ⟨hp, hreason, hact⟩, rfl⟩

end

/-- A batch leaves the blacklists that its events leave one by one exactly when every address that is added
under a reason is added by the last event about it there. -/
theorem blacklists_batch_iff {order : List String} {events : List BlacklistPayload} {rdbs : ℕ → Redis}
    (hvalid : ∀ p ∈ events, p.valid) (horder : ∀ p ∈ events, p.normalized ∈ order) :
    (∀ shard reason, listed reason ((applyBlacklistPayloadsBatch events order rdbs).2 shard) =
      listed reason (applyOneByOne events rdbs shard)) ↔ addedLast events = true := by
  have hfind : events.find? (!·.valid) = none := find?_eq_none.mpr (by simpa using hvalid)
  have hwalked {ip reason action : String} (h : ip ∈ reasonIPs events reason action) : reason ∈ order := by
    obtain ⟨p, hp, ⟨rfl, -⟩, -⟩ := mem_reasonIPs.mp h
    exact horder p hp
  have hagree (listed : Prop) (reason ip : String) : (ip ∈ reasonIPs events reason "add" ∨
      listed ∧ ip ∉ reasonIPs events reason "remove" ↔
        (lastAbout events reason ip).elim listed (·.action = "add")) ↔
      (ip ∈ reasonIPs events reason "add" →
        (lastAbout events reason ip).map (·.action) = some "add") := by
    cases hlast : lastAbout events reason ip with
    | none =>
      have hnone {action : String} : ip ∉ reasonIPs events reason action := by
        intro h
        obtain ⟨p, hp, habout, -⟩ := mem_reasonIPs.mp h
        exact find?_eq_none.mp hlast p (mem_reverse.mpr hp) (decide_eq_true habout)
      simp [hnone]
    | some last =>
      have hmem := mem_reverse.mp (mem_of_find?_eq_some hlast)
      have habout := find?_some hlast
      have hips := mem_reasonIPs.mpr ⟨last, hmem, of_decide_eq_true habout, rfl⟩
      rcases of_decide_eq_true (hvalid last hmem) with hact | hact <;> rw [hact] at hips
      · simp [hact, hips]
      · simp [hact, hips]
  rw [applyBlacklistPayloadsBatch, hfind]
  simp only [Finset.ext_iff, mem_foldl_syncReason, mem_applyOneByOne hvalid,
    and_iff_right_of_imp hwalked, hagree]
  constructor
  · intro h
    exact decide_eq_true fun p hp hadd => h 0 _ _ (mem_reasonIPs.mpr ⟨p, hp, ⟨rfl, rfl⟩, hadd⟩)
  · intro h _ reason ip hip
    obtain ⟨p, hp, ⟨rfl, rfl⟩, hadd⟩ := mem_reasonIPs.mp hip
    exact of_decide_eq_true h p hp hadd

/-- Two events about one address. -/
def sampleBlacklist (first second : String) : List BlacklistPayload :=
  [⟨first, "10.0.0.1", ""⟩, ⟨second, "10.0.0.1", ""⟩]

/-- An address that is removed and then added is listed either way. -/
theorem blacklists_batch_iff_sample :
    let events := sampleBlacklist "remove" "add"
    listed "manual" ((applyBlacklistPayloadsBatch events ["manual"] fun _ => .empty).2 0) =
      listed "manual" (applyOneByOne events (fun _ => .empty) 0) :=
  (blacklists_batch_iff (by decide) (by decide)).mpr (by decide) 0 "manual"

/-- An address that is added and then removed stays listed after the batch. -/
theorem blacklists_batch_differs :
    let events := sampleBlacklist "add" "remove"
    "10.0.0.1" ∈ listed "manual" ((applyBlacklistPayloadsBatch events ["manual"] fun _ => .empty).2 0) ∧
      "10.0.0.1" ∉ listed "manual" (applyOneByOne events (fun _ => .empty) 0) := by
  decide +kernel

end Espx.ControlPlane
