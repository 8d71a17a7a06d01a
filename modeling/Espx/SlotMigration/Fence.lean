import Espx.SlotMigration.KeyCopy

/-!
# The fence on the source shard

Without dual writes, `BumpMigrationFences` raises the migration generation of the slot's campaigns on the
source shard before their keys are copied; the scripts refuse a debit whose routing epoch is another
number. A tracker takes its epoch from the registry and its shard from the slot table, which are reloaded
independently. So one that has reloaded the registry, and still routes by the old table, carries the very
number of the fence.
-/

namespace Espx.Ingestion

open Espx.Foundation Espx.Domain List

section

/-- A fenced debit leaves the server as it is, on the fast path. -/
theorem BudgetFastCall.run_fenced (c : BudgetFastCall) (r : Redis) (h : c.precheck.fenced r) :
    (c.run r).2 = r ∧ c.charged r = 0 := by
  have hrun : c.precheck.run r = (some 11, r) := by
    rw [Precheck.run, if_pos h]
  have hcases : (c.run r).2 = r ∧ ((c.run r).1 ∈ refusalCodes ∨ (r.num c.idempotencyKey).isSome) := by
    unfold run
    split
    · exact ⟨rfl, .inl (by simp [refusalCodes])⟩
    split
    · rename_i hidem
      exact ⟨rfl, .inr hidem⟩
    · rw [hrun]
      exact ⟨rfl, .inl (by simp [refusalCodes])⟩
  exact ⟨hcases.1, if_pos hcases.2⟩

/-- A fenced debit leaves the server as it is, on the full path. -/
theorem UnifiedCall.run_fenced (c : UnifiedCall) (r : Redis) (h : c.precheck.fenced r) :
    (c.run r).2 = r ∧ c.charged r = 0 := by
  have hrun : c.precheck.run r = (some 11, r) := by
    rw [Precheck.run, if_pos h]
  have hcases : (c.run r).2 = r ∧ ((c.run r).1 ∈ refusalCodes ∨ (r.num c.idempotencyKey).isSome) := by
    unfold run
    split
    · exact ⟨rfl, .inl (by simp [refusalCodes])⟩
    split
    · rename_i hidem
      exact ⟨rfl, .inr hidem⟩
    · rw [hrun]
      exact ⟨rfl, .inl (by simp [refusalCodes])⟩
  exact ⟨hcases.1, if_pos hcases.2⟩

variable (x : FilterExecution)

theorem FilterExecution.execute_fenced (r : Redis) (h : x.call.precheck.fenced r) :
    (x.execute r).2 = r ∧ x.debited r = 0 := by
  unfold execute debited
  cases x.path with
  | fast => exact x.fastCall.run_fenced r h
  | full => exact x.call.run_fenced r h

/-- Keys that begin with another word than those that the scripts write. -/
theorem FilterExecution.execute_num_of_clash (r : Redis) {word rest : String}
    (hbrace : clash "\x7b".toList word.toList = true)
    (hbrand : ∀ plain ∈ brandWords, clash plain.toList word.toList = true)
    (hidem : clash "idempotency:click:".toList word.toList = true) :
    (x.execute r).2.num (word ++ rest) = r.num (word ++ rest) := by
  have hbook {other key : String} (hkey : Booked other key) : word ++ rest ≠ key := by
    rcases hkey with ⟨_, _, rfl⟩ | ⟨plain, hplain, _, rfl⟩
    · exact (tagged_ne_plain hbrace).symm
    · exact (append_ne_of_clash (hbrand plain hplain)).symm
  have hmoney {key : String} (hkey : MoneyKey key) : word ++ rest ≠ key := by
    obtain ⟨text, htext⟩ := hkey.brace
    rw [htext]
    exact (append_ne_of_clash hbrace).symm
  have hspend : word ++ rest ≠ x.call.spendKey := hmoney x.spendKey_of_campaign.money
  have hcamp : word ++ rest ≠ x.call.campaignSyncKey := by
    exact hmoney (MoneyKey.campaignSync _)
  have hcust : word ++ rest ≠ x.call.customerSyncKey := by
    exact hmoney (MoneyKey.customerSync _ _)
  obtain ⟨hin, hdup, hclick, hdaily, hcap, himp, hlock⟩ := x.bookKeys_booked
  unfold execute
  cases x.path with
  | fast =>
    apply (x.fastCall.run_writes r).num
    simp only [mem_cons, not_mem_nil, or_false, not_or]
    exact ⟨hbook hin, (append_ne_of_clash hidem).symm, hspend, hcamp, hcust⟩
  | full =>
    apply (x.call.run_writes r).num
    simp only [UnifiedCall.bookKeys, mem_append, mem_cons, not_mem_nil, or_false, not_or]
    exact ⟨⟨hbook hin, hbook (.inl hdup), hbook (.inl hclick), hbook (.inl hdaily), hbook hcap,
      hbook (.inl himp), hbook (.inl hlock)⟩, hspend, hcamp, hcust⟩

end

end Espx.Ingestion

namespace Espx.SlotMigration

open Espx.Foundation Espx.Domain Espx.Ingestion

/-- A campaign as a tracker has it in its registry. -/
structure RegistryRow (id : UUID) where
  row : ListActiveCampaignsRow
  registered : row.id = id
  brandKey : row.brandFcapKey = "" ∨ BrandKey row.brandFcapKey

namespace RegistryRow

variable {id : UUID} (r : RegistryRow id)

/-- The epoch that the tracker hands to the scripts. -/
def epoch : ℤ := (campaignFromListActiveCampaignsRow r.row).luaRoutingEpoch

/-- The row with the migration generation that Postgres has. -/
def withGen (gen : ℤ) : RegistryRow id where
  row := { r.row with migrationGen := gen }
  registered := r.registered
  brandKey := r.brandKey

end RegistryRow

/-- How far `CopySlotMigrationData` is: the fences that `BumpMigrationFences` still has to set, or the
campaigns that are still to be copied. -/
inductive FenceJob
  | pending
  | fencing (rows : List (UUID × ℤ))
  | copying (todo : List UUID)
  | copied

/-- The migration generations in Postgres, the two shards, the trackers with their registries and slot
tables, the job, and which campaigns were ever copied. -/
structure FenceState (n : ℕ) where
  gens : UUID → ℤ
  src : Redis
  dst : Redis
  registry : Fin n → (id : UUID) → RegistryRow id
  oldMap : Fin n → Bool
  job : FenceJob
  copiedOnce : List UUID
  active : Bool

/-- The steps of the migration, of the trackers and of time. -/
inductive FenceAction (n : ℕ)
  | updateGens
  | setFence
  | copyCampaign
  | fail
  | activate
  | registryReload (i : Fin n) (rows : (id : UUID) → RegistryRow id)
  | tableReload (i : Fin n)
  | debit (i : Fin n) (filter : UnifiedFilter) (event : Event) (now : Clock)
  | fenceExpires (id : UUID)

/-- The fence of a campaign has been set for the copy that is to come. -/
def FenceJob.covers (campaigns : List UUID) (id : UUID) : FenceJob → Bool
  | .pending => false
  | .fencing rows => id ∈ campaigns ∧ id ∉ rows.map Prod.fst
  | .copying _ | .copied => id ∈ campaigns

namespace FenceState

variable {n : ℕ} (campaigns : List UUID) (s : FenceState n)

/-- What the tracker executes for an event. -/
def execution (i : Fin n) (filter : UnifiedFilter) (event : Event) (now : Clock) : FilterExecution where
  filter := filter
  event := event
  row := (s.registry i event.campaignID).row
  now := now
  registered := (s.registry i event.campaignID).registered
  brandKey := (s.registry i event.campaignID).brandKey

/-- The `UPDATE` of `BumpMigrationFences`. -/
def bumped (id : UUID) : ℤ := if id ∈ campaigns then s.gens id + 1 else s.gens id

/-- One step. The copy of a campaign is that of its fixed keys, without those found by pattern and without
the check after it; a debit is the registry read, the routing and the script together. -/
def step : FenceAction n → FenceState n
  | .updateGens =>
    match s.job with
    | .pending =>
      { s with
        gens := s.bumped campaigns
        job := if campaigns = [] then .copying []
          else .fencing (campaigns.map fun id => (id, s.bumped campaigns id)) }
    | _ => s
  | .setFence =>
    match s.job with
    | .fencing ((id, gen) :: rest) =>
      { s with
        src := s.src.setNum (migrationFenceRedisKey id) gen
        job := if rest = [] then .copying campaigns else .fencing rest }
    | _ => s
  | .copyCampaign =>
    match s.job with
    | .copying (id :: todo) =>
      { s with
        dst := (fixedKeys id).foldl (migrateKey s.src) s.dst
        job := .copying todo
        copiedOnce := id :: s.copiedOnce }
    | .copying [] => { s with job := .copied }
    | _ => s
  | .fail =>
    match s.job with
    | .fencing _ | .copying _ => { s with job := .pending }
    | _ => s
  | .activate =>
    match s.job with
    | .copied => { s with active := true }
    | _ => s
  | .registryReload i rows =>
    { s with registry := Function.update s.registry i fun id => (rows id).withGen (s.gens id) }
  | .tableReload i =>
    if s.active then { s with oldMap := Function.update s.oldMap i false } else s
  | .debit i filter event now =>
    if s.oldMap i then { s with src := ((s.execution i filter event now).execute s.src).2 }
    else { s with dst := ((s.execution i filter event now).execute s.dst).2 }
  | .fenceExpires id => { s with src := s.src.delNum (migrationFenceRedisKey id) }

/-- The fence of a campaign on the source shard. -/
def fence (id : UUID) : ℤ := s.src.count (migrationFenceRedisKey id)

/-- A debit that is routed by the old table, of a campaign that was copied, leaves the source shard as it
is and takes nothing. -/
def Closed : FenceAction n → Prop
  | .debit i filter event now =>
    s.oldMap i = true → event.campaignID ∈ s.copiedOnce →
      ((s.execution i filter event now).execute s.src).2 = s.src ∧
        (s.execution i filter event now).debited s.src = 0
  | _ => True

/-- The fence of a campaign must hold: it was copied, or it is about to be and its fence is set. -/
def fenceNeeded (id : UUID) : Bool := id ∈ s.copiedOnce ∨ s.job.covers campaigns id

/-- The condition on a step, which is one on the trackers that still route by the old table: none of them
carries the number that becomes a campaign's fence, or reloads the registry such that it does, and no
fence that must hold expires before they have all reloaded the table. -/
def safe : FenceAction n → Bool
  | .setFence =>
    match s.job with
    | .fencing ((id, gen) :: _) => ∀ i, s.oldMap i → (s.registry i id).epoch ≠ gen
    | _ => true
  | .registryReload i rows =>
    ¬ s.oldMap i ∨ campaigns.all fun id => s.fenceNeeded campaigns id →
      ((rows id).withGen (s.gens id)).epoch ≠ s.fence id
  | .fenceExpires id => ¬ s.fenceNeeded campaigns id ∨ ∀ i, ¬ s.oldMap i
  | _ => true

end FenceState

theorem migrationFenceRedisKey_inj {i j : UUID}
    (h : migrationFenceRedisKey i = migrationFenceRedisKey j) : i = j :=
  uuidString_injective ((String.append_right_inj _).mp h)

namespace FenceState

variable {n : ℕ} {campaigns : List UUID} {s : FenceState n}

/-- The invariant: where a fence must hold, it is set and is not the number of any tracker that routes by
the old table. -/
structure Inv (campaigns : List UUID) (s : FenceState n) : Prop where
  gens : ∀ id ∈ campaigns, 0 ≤ s.gens id
  once : s.copiedOnce ⊆ campaigns
  rows : ∀ rows, s.job = .fencing rows → ∀ row ∈ rows, 0 < row.2
  todo : ∀ todo, s.job = .copying todo → todo ⊆ campaigns
  guarded : ∀ id, s.fenceNeeded campaigns id → ∀ i, s.oldMap i →
    0 < s.fence id ∧ (s.registry i id).epoch ≠ s.fence id

section

variable (h : Inv campaigns s)
include h

/-- A debit that is routed by the old table is fenced where the fence must hold. -/
theorem Inv.closed (a : FenceAction n) : s.Closed a := by
  cases a with
  | debit i filter event now =>
    intro hold hcopy
    obtain ⟨hpos, hne⟩ := h.guarded event.campaignID (decide_eq_true (.inl hcopy)) i hold
    apply FilterExecution.execute_fenced
    exact decide_eq_true (.inl ⟨hpos, hne.symm⟩)
  | _ => trivial

/-- A step after which no more fences must hold, and nothing that they depend on has changed. -/
theorem Inv.weaken {s' : FenceState n} (hgens : ∀ id ∈ campaigns, s.gens id ≤ s'.gens id)
    (hrows : ∀ rows, s'.job = .fencing rows → ∀ row ∈ rows, 0 < row.2)
    (htodo : ∀ todo, s'.job = .copying todo → todo ⊆ campaigns) (honce : s'.copiedOnce ⊆ campaigns)
    (hfence : ∀ id, s'.fence id = s.fence id) (hreg : s'.registry = s.registry)
    (hmap : ∀ i, s'.oldMap i = true → s.oldMap i = true)
    (hneed : ∀ id, s'.fenceNeeded campaigns id → s.fenceNeeded campaigns id) : Inv campaigns s' := by
  refine ⟨fun id hid => (h.gens id hid).trans (hgens id hid), honce, hrows, htodo, ?_⟩
  intro id hid i hold
  rw [hfence, hreg]
  exact h.guarded id (hneed id hid) i (hmap i hold)

/-- A fence is set. -/
theorem Inv.setFence {id : UUID} {gen : ℤ} {rest : List (UUID × ℤ)}
    (hjob : s.job = .fencing ((id, gen) :: rest)) (hsafe : s.safe campaigns .setFence) :
    Inv campaigns { s with
      src := s.src.setNum (migrationFenceRedisKey id) gen
      job := if rest = [] then .copying campaigns else .fencing rest } := by
  rw [safe, hjob] at hsafe
  have hapart : ∀ i, s.oldMap i = true → (s.registry i id).epoch ≠ gen := of_decide_eq_true hsafe
  have hrows := h.rows _ hjob
  refine ⟨h.gens, h.once, ?_, ?_, ?_⟩
  · intro rows heq row hrow
    split at heq
    · cases heq
    · cases heq
      exact hrows row (List.mem_cons_of_mem _ hrow)
  · intro todo heq
    split at heq
    · cases heq
      exact List.Subset.refl _
    · cases heq
  · intro other hneed i hold
    by_cases heq : other = id
    · subst heq
      have hfence : fence { s with
          src := s.src.setNum (migrationFenceRedisKey other) gen
          job := if rest = [] then .copying campaigns else .fencing rest } other = gen :=
        Redis.setNum_count_self _ _ _
      rw [hfence]
      exact ⟨hrows _ List.mem_cons_self, hapart i hold⟩
    · have hfence : fence { s with
          src := s.src.setNum (migrationFenceRedisKey id) gen
          job := if rest = [] then .copying campaigns else .fencing rest } other = s.fence other :=
        Redis.setNum_count_of_ne _ _ fun hkey => heq (migrationFenceRedisKey_inj hkey)
      rw [hfence]
      refine h.guarded other (decide_eq_true ?_) i hold
      rcases of_decide_eq_true hneed with honce | hcovers
      · exact .inl honce
      right
      rw [hjob]
      have hcover : other ∈ campaigns ∧ other ∉ rest.map Prod.fst := by
        split at hcovers
        · rename_i hnil
          exact ⟨of_decide_eq_true hcovers, by simp [hnil]⟩
        · exact of_decide_eq_true hcovers
      exact decide_eq_true ⟨hcover.1, List.not_mem_cons_of_ne_of_not_mem heq hcover.2⟩

/-- Fences must hold only for campaigns of the slot. -/
theorem Inv.mem_of_needed {id : UUID} (hneed : s.fenceNeeded campaigns id) : id ∈ campaigns := by
  rcases of_decide_eq_true hneed with honce | hcover
  · exact h.once honce
  cases hjob : s.job with
  | pending =>
    rw [hjob] at hcover
    cases hcover
  | fencing rows =>
    rw [hjob] at hcover
    exact (of_decide_eq_true hcover).1
  | copying todo | copied =>
    rw [hjob] at hcover
    exact of_decide_eq_true hcover

/-- A tracker reloads the registry. -/
theorem Inv.registryReload {i : Fin n} {rows : (id : UUID) → RegistryRow id}
    (hsafe : s.safe campaigns (.registryReload i rows)) :
    Inv campaigns (s.step campaigns (.registryReload i rows)) := by
  refine { h with guarded := fun id hneed j hold => ?_ }
  obtain ⟨hpos, hne⟩ := h.guarded id hneed j hold
  refine ⟨hpos, ?_⟩
  change ((Function.update s.registry i fun id => (rows id).withGen (s.gens id)) j id).epoch ≠ s.fence id
  by_cases heq : j = i
  · subst heq
    rw [Function.update_self]
    have hall := (of_decide_eq_true hsafe).resolve_left fun hnot => hnot hold
    exact of_decide_eq_true (List.all_eq_true.mp hall id (h.mem_of_needed hneed)) hneed
  · rw [Function.update_of_ne heq]
    exact hne

/-- A fence expires. -/
theorem Inv.fenceExpires {id : UUID} (hsafe : s.safe campaigns (.fenceExpires id)) :
    Inv campaigns (s.step campaigns (.fenceExpires id)) := by
  refine { h with guarded := fun other hneed i hold => ?_ }
  have hne : other ≠ id := by
    rintro rfl
    rcases of_decide_eq_true hsafe with hnot | hswitched
    · exact hnot hneed
    · exact hswitched i hold
  have hfence : fence (s.step campaigns (.fenceExpires id)) other = s.fence other :=
    Redis.delNum_count_of_ne _ fun hkey => hne (migrationFenceRedisKey_inj hkey)
  rw [hfence]
  exact h.guarded other hneed i hold

end

/-- Debits leave the fences. -/
theorem fence_execute (x : FilterExecution) (id : UUID) (r : Redis) :
    (x.execute r).2.count (migrationFenceRedisKey id) = r.count (migrationFenceRedisKey id) := by
  have hnum : (x.execute r).2.num (migrationFenceRedisKey id) = r.num (migrationFenceRedisKey id) :=
    x.execute_num_of_clash r (by decide) (by decide) (by decide)
  rw [Redis.count, hnum, Redis.count]

/-- The migration generations are raised. -/
theorem Inv.updateGens (h : Inv campaigns s) :
    Inv campaigns { s with
      gens := s.bumped campaigns
      job := if campaigns = [] then .copying []
        else .fencing (campaigns.map fun id => (id, s.bumped campaigns id)) } := by
  have hbumped (id : UUID) (hid : id ∈ campaigns) : s.bumped campaigns id = s.gens id + 1 := if_pos hid
  refine h.weaken ?_ ?_ ?_ h.once (fun _ => rfl) rfl (fun _ => id) ?_
  · intro id hid
    change s.gens id ≤ s.bumped campaigns id
    rw [hbumped id hid]
    omega
  · intro rows heq row hrow
    split at heq
    · cases heq
    cases heq
    obtain ⟨id, hid, rfl⟩ := List.mem_map.mp hrow
    have hgen := h.gens id hid
    rw [hbumped id hid]
    omega
  · intro todo heq
    split at heq
    · cases heq
      exact List.nil_subset _
    · cases heq
  · intro id hneed
    rcases of_decide_eq_true hneed with honce | hcover
    · exact decide_eq_true (.inl honce)
    split at hcover
    · rename_i hnil
      have hmem := of_decide_eq_true hcover
      rw [hnil] at hmem
      cases hmem
    · obtain ⟨hmem, hnot⟩ := of_decide_eq_true hcover
      exact absurd (List.mem_map.mpr ⟨_, List.mem_map.mpr ⟨id, hmem, rfl⟩, rfl⟩) hnot

/-- A step that meets the condition keeps the invariant. -/
theorem Inv.step (h : Inv campaigns s) {a : FenceAction n} (hsafe : s.safe campaigns a) :
    Inv campaigns (s.step campaigns a) := by
  have hgens : ∀ id ∈ campaigns, s.gens id ≤ s.gens id := fun _ _ => le_rfl
  cases a with
  | updateGens =>
    simp only [FenceState.step]
    split
    · exact h.updateGens
    · exact h
  | setFence =>
    simp only [FenceState.step]
    split
    · rename_i hjob
      exact h.setFence hjob hsafe
    · exact h
  | copyCampaign =>
    simp only [FenceState.step]
    split
    · rename_i id todo hjob
      have htodo := h.todo _ hjob
      refine h.weaken hgens (by simp) ?_ ?_ (fun _ => rfl) rfl (fun _ hold => hold) ?_
      · intro todo' heq
        cases heq
        exact (List.cons_subset.mp htodo).2
      · exact List.cons_subset.mpr ⟨htodo List.mem_cons_self, h.once⟩
      · intro other hneed
        refine decide_eq_true (.inr ?_)
        rw [hjob]
        refine decide_eq_true ?_
        rcases of_decide_eq_true hneed with honce | hcover
        · rcases List.mem_cons.mp honce with rfl | honce
          · exact htodo List.mem_cons_self
          · exact h.once honce
        · exact of_decide_eq_true hcover
    · rename_i hjob
      refine h.weaken hgens (by simp) (by simp) h.once (fun _ => rfl) rfl (fun _ => id) ?_
      intro other hneed
      rw [fenceNeeded, hjob]
      exact hneed
    · exact h
  | fail =>
    have hpend : Inv campaigns { s with job := .pending } := by
      refine h.weaken hgens (by simp) (by simp) h.once (fun _ => rfl) rfl (fun _ => id) ?_
      intro other hneed
      refine decide_eq_true (.inl ((of_decide_eq_true hneed).resolve_right ?_))
      simp [FenceJob.covers]
    simp only [FenceState.step]
    split
    · exact hpend
    · exact hpend
    · exact h
  | activate =>
    simp only [FenceState.step]
    split
    · exact h.weaken hgens h.rows h.todo h.once (fun _ => rfl) rfl (fun _ => id) fun _ => id
    · exact h
  | registryReload i rows => exact h.registryReload hsafe
  | tableReload i =>
    simp only [FenceState.step]
    split
    · refine h.weaken hgens h.rows h.todo h.once (fun _ => rfl) rfl ?_ fun _ => id
      intro j hj
      change Function.update s.oldMap i false j = true at hj
      by_cases heq : j = i
      · rw [heq, Function.update_self] at hj
        cases hj
      · rwa [Function.update_of_ne heq] at hj
    · exact h
  | debit i filter event now =>
    simp only [FenceState.step]
    split
    · exact h.weaken hgens h.rows h.todo h.once (fun id => fence_execute _ id _) rfl (fun _ => id)
        fun _ => id
    · exact h.weaken hgens h.rows h.todo h.once (fun _ => rfl) rfl (fun _ => id) fun _ => id
  | fenceExpires id => exact h.fenceExpires hsafe

/-- Before the migration: no campaign of the slot was copied, and generations count from zero. -/
structure Before (campaigns : List UUID) (s : FenceState n) : Prop where
  job : s.job = .pending
  copiedOnce : s.copiedOnce = []
  gens : ∀ id ∈ campaigns, 0 ≤ s.gens id

/-- The invariant holds before the migration. -/
theorem Before.inv (h : Before campaigns s) : Inv campaigns s := by
  refine ⟨h.gens, ?_, ?_, ?_, ?_⟩
  · rw [h.copiedOnce]
    exact List.nil_subset _
  · rw [h.job]
    simp
  · rw [h.job]
    simp
  · intro id hneed
    rw [fenceNeeded, h.copiedOnce, h.job] at hneed
    simp [FenceJob.covers] at hneed

end FenceState

open FenceState in
/-- In every run whose steps all meet the condition, a debit that is routed by the old slot table is not
accepted on the source once the keys of its campaign were copied. -/
theorem fence_closes_source {n : ℕ} (campaigns : List UUID) {s : FenceState n}
    (hstart : Before campaigns s) {actions : List (FenceAction n)}
    (hsafe : Admissible (fun s a => safe campaigns s a) (step campaigns) s actions) :
    Admissible (fun s a => Closed s a) (step campaigns) s actions := by
  rw [admissible_iff_forall]
  intro done a hdone
  obtain ⟨rest, rfl⟩ := hdone
  have hdone : Admissible (fun s a => safe campaigns s a) (step campaigns) s done :=
    hsafe.left.left
  exact (hdone.invariant (fun _ _ hok hinv => Inv.step hinv hok) hstart.inv).closed a

/-- Rows of Postgres for all campaigns. -/
def sampleRows (id : UUID) : RegistryRow id :=
  ⟨{ sampleRow with id := id }, sampleRow_id id, sampleRow_brandKey⟩

/-- One tracker, and a campaign with a budget of one hundred on the source shard. -/
def sampleFence : FenceState 1 where
  gens _ := 0
  src := Redis.empty.setNum (budgetCampaignKey sampleRow.id) 100
  dst := Redis.empty
  registry _ := sampleRows
  oldMap _ := true
  job := .pending
  copiedOnce := []
  active := false

/-- The campaign is fenced and copied. -/
def fenceAndCopy : List (FenceAction 1) := [.updateGens, .setFence, .copyCampaign, .copyCampaign]

/-- The tracker serves a click. -/
def sampleServe : FenceAction 1 := .debit ⟨0, Nat.one_pos⟩ sampleFilter sampleClick sampleClock

/-- A tracker that reloads its table before its registry is fenced off the source, and serves the click
from the target then. -/
theorem fence_closes_source_table_first :
    let actions := fenceAndCopy ++
      [sampleServe, .activate, .tableReload 0, .registryReload 0 sampleRows, sampleServe]
    (run (FenceState.step [sampleRow.id]) sampleFence actions).dst.count
        (budgetCampaignKey sampleRow.id) = 98 ∧
      Admissible (fun s a => FenceState.Closed s a) (FenceState.step [sampleRow.id]) sampleFence
        actions := by
  intro actions
  have hsafe : Admissible (fun s a => FenceState.safe [sampleRow.id] s a)
      (FenceState.step [sampleRow.id]) sampleFence actions := by
    decide +kernel
  exact ⟨by decide +kernel, fence_closes_source [sampleRow.id] ⟨rfl, rfl, fun _ _ => le_rfl⟩ hsafe⟩

/-- A tracker that reloads its registry first is let through the fence. -/
theorem fence_open_to_reloaded_tracker :
    let copied := fenceAndCopy ++ [.registryReload 0 sampleRows]
    (run (FenceState.step [sampleRow.id]) sampleFence (copied ++ [sampleServe])).src.count
        (budgetCampaignKey sampleRow.id) = 98 ∧
      ¬ Admissible (fun s a => FenceState.Closed s a) (FenceState.step [sampleRow.id]) sampleFence
        (copied ++ [sampleServe]) := by
  intro copied
  refine ⟨by decide +kernel, fun hclose => ?_⟩
  have htaken := (admissible_iff_forall.mp hclose copied sampleServe (List.prefix_refl _) rfl
    (by decide +kernel)).2
  revert htaken
  decide +kernel

end Espx.SlotMigration
