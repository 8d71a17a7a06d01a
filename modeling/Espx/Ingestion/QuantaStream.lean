import Espx.Ingestion.FullPath
import Espx.Ingestion.LocalQuanta

/-!
# Reporting local spend

A worker sends the batch of a lane to Redis in three pipelines: claim the click, append the event, add its
amount to the sync counters. A slot that falls out of one pipeline is in none of the later ones. The lanes
are queues here; their ring buffers are a matter of their own.
-/

namespace Espx.Ingestion

open Espx.Foundation Espx.Domain Command List

/-- The parts of `localQuantaStreamSlot` that a flush reads; `data` is the marshalled event. -/
structure StreamSlot where
  campaignID : UUID
  customerID : UUID
  amountMicro : ℤ
  clickID : String
  userID : String
  freqLimit : ℤ
  fcapPrefix : String
  data : String
  deriving DecidableEq

/-- `copyLocalQuantaField` into an array of the given size. -/
def copyLocalQuantaField (size : ℕ) (text : String) : String := String.ofList (text.toList.take size)

/-- The field holds the first bytes of the text, as many as there is room for. -/
theorem textBytes_copyLocalQuantaField (size : ℕ) (text : String) :
    textBytes (copyLocalQuantaField size text) = (textBytes text).take size := by
  rw [textBytes, copyLocalQuantaField, String.toList_ofList, map_take, textBytes]

/-- Two clicks of 64 letters of two bytes each and one more letter have one field. -/
example : copyLocalQuantaField 128 (String.ofList ((replicate 64 ['Ã', '©']).flatten ++ ['a'])) =
    copyLocalQuantaField 128 (String.ofList ((replicate 64 ['Ã', '©']).flatten ++ ['b'])) := by
  simp only [copyLocalQuantaField, String.toList_ofList]
  rfl

/-- `fillLocalQuantaStreamSlot`. -/
def fillLocalQuantaStreamSlot (evt : Event) (camp : Campaign) (amountMicro : ℤ) (data : String) :
    StreamSlot where
  campaignID := evt.campaignID
  customerID := camp.customerID
  amountMicro := amountMicro
  clickID := copyLocalQuantaField 128 evt.clickID
  userID := copyLocalQuantaField 128 evt.userID
  freqLimit := if 0 < camp.freqLimit then camp.freqLimit else 0
  fcapPrefix := if 0 < camp.freqLimit then copyLocalQuantaField 64 camp.fcapKeyPrefix else ""
  data := data

namespace StreamSlot

variable (slot : StreamSlot)

/-- `appendIdemKey`. -/
def idemKey : String := "idempotency:click:" ++ slot.clickID

/-- The frequency counter of the slot's user. -/
def fcapKey : String := slot.fcapPrefix ++ slot.userID

/-- The slot is subject to a frequency cap. -/
def capped : Bool := 0 < slot.freqLimit ∧ slot.userID ≠ "" ∧ slot.fcapPrefix ≠ ""

/-- The local credit of a campaign that the slot carries. -/
def credit (c : UUID) : ℤ := if slot.campaignID = c then max 0 slot.amountMicro else 0

end StreamSlot

/-- The campaign counter that a flush increments. -/
def localCampaignSyncKey (id : UUID) : String := "budget:sync:campaign:" ++ uuidString id

/-- The customer counter that a flush increments. -/
def localCustomerSyncKey (id : UUID) : String := "budget:sync:customer:" ++ uuidString id

/-- What the sync counters of a campaign hold on a server: the one that flushes increment and
the one that the scripts increment. -/
def synced (c : UUID) (r : Redis) : ℤ := r.count (localCampaignSyncKey c) + r.count (campaignSyncKey c)

/-- What the environment decides about a flush; an `XADD` may be refused on its own. -/
structure FlushOutcome where
  idem : PipeOutcome
  xadd : PipeOutcome
  xaddRefused : ℕ → Bool
  sync : PipeOutcome

/-- The replies of the `SETNX` pipeline: slots without click are accepted, and those whose key
is set for the first time. -/
def setNXAll : List StreamSlot → Redis → List StreamSlot × Redis
  | [], r => ([], r)
  | slot :: rest, r =>
    if slot.clickID = "" then
      let (accepted, r') := setNXAll rest r
      (slot :: accepted, r')
    else if (r.num slot.idemKey).isSome then setNXAll rest r
    else
      let (accepted, r') := setNXAll rest (r.setNum slot.idemKey 1)
      (slot :: accepted, r')

/-- The idempotency pipeline; no slot is accepted when it fails, and it is not sent when no slot
has a click. -/
def idemPipeline (o : PipeOutcome) (slots : List StreamSlot) (r : Redis) : List StreamSlot × Redis :=
  if slots.any (·.clickID ≠ "") then
    match o with
    | .done => setNXAll slots r
    | .failed n => ([], (setNXAll ((slots.filter (·.clickID ≠ "")).take n) r).2)
  else (slots, r)

/-- `syncTotals[key] += amt`. -/
def addTotal (key : UUID × UUID) (amt : ℤ) : List ((UUID × UUID) × ℤ) → List ((UUID × UUID) × ℤ)
  | [] => [(key, amt)]
  | (key', total) :: rest =>
    if key' = key then (key', addInt64 total amt) :: rest else (key', total) :: addTotal key amt rest

/-- `syncTotals` of the appended slots. -/
def syncTotals : List StreamSlot → List ((UUID × UUID) × ℤ)
  | [] => []
  | slot :: rest =>
    if slot.amountMicro ≤ 0 ∨ slot.customerID = uuidNil then syncTotals rest
    else addTotal (slot.campaignID, slot.customerID) slot.amountMicro (syncTotals rest)

/-- The commands for one total. -/
def totalCommands (total : (UUID × UUID) × ℤ) : List Command :=
  if total.2 ≤ 0 then []
  else
    [.incrBy (localCampaignSyncKey total.1.1) total.2, .incrBy (localCustomerSyncKey total.1.2) total.2,
      .sadd "budget:dirty_campaigns" (uuidString total.1.1),
      .sadd "budget:dirty_customers" (uuidString total.1.2)]

/-- The commands for the frequency cap of one slot. -/
def fcapCommands (slot : StreamSlot) : List Command :=
  if slot.capped then [.incrBy slot.fcapKey 1] else []

/-- The commands of the last pipeline. -/
def syncCommands (appended accepted : List StreamSlot) : List Command :=
  (syncTotals appended).flatMap totalCommands ++ accepted.flatMap fcapCommands

/-- The slots whose `XADD` is not refused, by their place in the pipeline. -/
def appendedSlots (refused : ℕ → Bool) : ℕ → List StreamSlot → List StreamSlot
  | _, [] => []
  | i, slot :: rest =>
    if refused i then appendedSlots refused (i + 1) rest
    else slot :: appendedSlots refused (i + 1) rest

/-- The command that appends an event. -/
def xaddCommand (stream : String) (slot : StreamSlot) : Command := .xadd stream [("d", slot.data)]

/-- `flushShardPipeline`: the server afterwards. -/
def flushShardPipeline (stream : String) (o : FlushOutcome) (slots : List StreamSlot) (r : Redis) :
    Redis :=
  let (accepted, claimed) := idemPipeline o.idem slots r
  let appended := appendedSlots o.xaddRefused 0 accepted
  match o.xadd with
  | .failed n => claimed.execAll ((appended.take n).map (xaddCommand stream))
  | .done => (claimed.execAll (appended.map (xaddCommand stream))).execAll
      (o.sync.executed (syncCommands appended accepted))

section

variable {c d : UUID} {key : String}

theorem localCampaignSyncKey_inj (h : localCampaignSyncKey c = localCampaignSyncKey d) : c = d := by
  apply uuidString_injective
  unfold localCampaignSyncKey at h
  simpa using h

/-- A key that holds the synced spend of a campaign. -/
def SyncCounter (c : UUID) (key : String) : Prop := key = localCampaignSyncKey c ∨ key = campaignSyncKey c

/-- A key without tag and with another word is no sync counter. -/
theorem not_syncCounter_plain {word rest : String}
    (hplain : clash "budget:sync:campaign:".toList word.toList = true)
    (htag : clash "\x7b".toList word.toList = true) (h : SyncCounter c key) : key ≠ word ++ rest := by
  rcases h with rfl | rfl
  · exact append_ne_of_clash hplain
  · rw [campaignSyncKey, String.append_assoc]
    exact tagged_ne_plain htag

theorem not_syncCounter_tagged {word rest : String}
    (hword : clash "budget:sync:campaign:".toList word.toList = true) (h : SyncCounter c key) :
    key ≠ campaignHashTag d ++ (word ++ rest) := by
  rcases h with rfl | rfl
  · exact (tagged_ne_plain (by decide)).symm
  · rw [campaignSyncKey, String.append_assoc]
    exact tagged_ne_of_clash hword

/-- Copying a text that starts with a short one keeps the short one. -/
theorem copyLocalQuantaField_append {size : ℕ} {front rest : String} (h : front.toList.length ≤ size) :
    copyLocalQuantaField size (front ++ rest) =
      front ++ copyLocalQuantaField (size - front.toList.length) rest := by
  apply String.toList_inj.mp
  simp only [copyLocalQuantaField, String.toList_ofList, String.toList_append]
  rw [take_append, take_of_length_le h]

/-- The frequency counter of a registered campaign's event is no sync counter. -/
theorem fcapKey_not_syncCounter (x : FilterExecution) (amount : ℤ) (data : String)
    (hcapped : (fillLocalQuantaStreamSlot x.event x.camp amount data).capped = true)
    (h : SyncCounter c key) : key ≠ (fillLocalQuantaStreamSlot x.event x.camp amount data).fcapKey := by
  have hlimit : 0 < x.row.freqLimit := by
    by_contra hnot
    simp [StreamSlot.capped, fillLocalQuantaStreamSlot, FilterExecution.camp,
      campaignFromListActiveCampaignsRow, hnot] at hcapped
  change key ≠ (if 0 < x.row.freqLimit then copyLocalQuantaField 64
    (fcapKeyPrefix x.row.id x.row.brandFcapKey) else "") ++ _
  rw [if_pos hlimit, fcapKeyPrefix]
  split
  · rename_i hbrand
    obtain ⟨plain, hplain, rest, hrest⟩ := x.brandKey.resolve_left hbrand
    have hwords : ∀ word ∈ brandWords, word.toList.length ≤ 64 ∧
        clash "budget:sync:campaign:".toList word.toList = true ∧
        clash "\x7b".toList word.toList = true := by decide
    obtain ⟨hshort, hsync, hbrace⟩ := hwords plain hplain
    rw [hrest, String.append_assoc, copyLocalQuantaField_append hshort, String.append_assoc]
    exact not_syncCounter_plain hsync hbrace h
  · have htag : (campaignHashTag x.row.id ++ "fcap:c:").toList.length ≤ 64 := by
      simp [campaignHashTag, uuidString_length]
    rw [String.append_assoc, copyLocalQuantaField_append htag, String.append_assoc, String.append_assoc]
    exact not_syncCounter_tagged (by decide) h

variable {slots : List StreamSlot} {r : Redis} {o : FlushOutcome}

/-- Claiming clicks writes no other key. -/
theorem setNXAll_num (h : ∀ slot : StreamSlot, key ≠ slot.idemKey) (slots : List StreamSlot)
    (r : Redis) : (setNXAll slots r).2.num key = r.num key := by
  induction slots generalizing r with
  | nil => rfl
  | cons slot rest ih =>
    unfold setNXAll
    split
    · exact ih r
    split
    · exact ih r
    · rw [ih, Redis.setNum_num_of_ne _ _ (h slot)]

/-- Clicks that are new and different are all accepted. -/
theorem setNXAll_fst (hfresh : ∀ slot ∈ slots, slot.clickID ≠ "" → r.num slot.idemKey = none)
    (hdist : ((slots.filter (·.clickID ≠ "")).map StreamSlot.idemKey).Nodup) :
    (setNXAll slots r).1 = slots := by
  induction slots generalizing r with
  | nil => rfl
  | cons slot rest ih =>
    have hrest : ∀ other ∈ rest, other.clickID ≠ "" → r.num other.idemKey = none :=
      fun other hother => hfresh other (mem_cons_of_mem _ hother)
    unfold setNXAll
    by_cases hclick : slot.clickID = ""
    · rw [filter_cons_of_neg (by simpa using hclick)] at hdist
      rw [if_pos hclick]
      exact congrArg (slot :: ·) (ih hrest hdist)
    rw [filter_cons_of_pos (by simpa using hclick), map_cons, nodup_cons] at hdist
    have hnone := hfresh slot mem_cons_self hclick
    rw [if_neg hclick, if_neg (by rw [hnone]; decide)]
    refine congrArg (slot :: ·) (ih ?_ hdist.2)
    intro other hother hotherClick
    have hne : other.idemKey ≠ slot.idemKey := by
      intro heq
      apply hdist.1
      rw [← heq]
      exact mem_map.mpr ⟨other, mem_filter.mpr ⟨hother, by simpa using hotherClick⟩, rfl⟩
    rw [Redis.setNum_num_of_ne _ _ hne]
    exact hrest other hother hotherClick

/-- Nothing refused, everything appended. -/
theorem appendedSlots_of_none {refused : ℕ → Bool} (h : ∀ i, refused i = false) (i : ℕ)
    (slots : List StreamSlot) : appendedSlots refused i slots = slots := by
  induction slots generalizing i with
  | nil => rfl
  | cons slot rest ih =>
    rw [appendedSlots, h i, if_neg Bool.false_ne_true, ih]

/-- What a total counts for a campaign. -/
def totalFor (c : UUID) (total : (UUID × UUID) × ℤ) : ℤ := if total.1.1 = c then total.2 else 0

section

variable {entry : UUID × UUID} {amt : ℤ} (hamt : 0 < amt) {totals : List ((UUID × UUID) × ℤ)}
  (hfits : ∀ total ∈ totals, 0 < total.2 ∧ total.2 + amt < 2 ^ 63)
include hamt hfits

/-- An amount that fits is added to the totals of its campaign. -/
theorem addTotal_sum (c : UUID) : ((addTotal entry amt totals).map (totalFor c)).sum =
    totalFor c (entry, amt) + (totals.map (totalFor c)).sum := by
  induction totals with
  | nil => simp [addTotal]
  | cons total rest ih =>
    obtain ⟨hpos, hlt⟩ := hfits total mem_cons_self
    unfold addTotal
    split
    · rename_i heq
      rw [addInt64, bmod_of_lt (by omega) hlt]
      simp only [map_cons, sum_cons, totalFor, heq]
      split <;> ring
    · simp only [map_cons, sum_cons, ih fun other hother => hfits other (mem_cons_of_mem _ hother)]
      ring

/-- Adding a positive amount keeps all totals positive. -/
theorem addTotal_pos : ∀ total ∈ addTotal entry amt totals, 0 < total.2 := by
  induction totals with
  | nil =>
    intro total htotal
    cases mem_singleton.mp htotal
    exact hamt
  | cons head rest ih =>
    obtain ⟨hold, hlt⟩ := hfits head mem_cons_self
    have hrest : ∀ total ∈ rest, 0 < total.2 ∧ total.2 + amt < 2 ^ 63 :=
      fun t ht => hfits t (mem_cons_of_mem _ ht)
    unfold addTotal
    intro total htotal
    split at htotal
    · rcases mem_cons.mp htotal with rfl | hmem
      · rw [addInt64, bmod_of_lt (by omega) hlt]
        exact add_pos hold hamt
      · exact (hrest total hmem).1
    · rcases mem_cons.mp htotal with rfl | hmem
      · exact hold
      · exact ih hrest total hmem

end

/-- What a batch carries for a campaign is no more than what it carries. -/
theorem sum_credit_le (c : UUID) (slots : List StreamSlot) :
    (slots.map (·.credit c)).sum ≤ (slots.map fun slot => max 0 slot.amountMicro).sum := by
  apply sum_le_sum
  intro slot _
  unfold StreamSlot.credit
  split
  · exact le_rfl
  · exact le_max_left _ _

/-- The totals of a batch are positive, and those of a campaign are what its slots carry, where slots have
a customer and the amounts fit into `int64`. -/
theorem syncTotals_spec (hcust : ∀ slot ∈ slots, 0 < slot.amountMicro → slot.customerID ≠ uuidNil)
    (hfits : (slots.map fun slot => max 0 slot.amountMicro).sum < 2 ^ 63) :
    (∀ total ∈ syncTotals slots, 0 < total.2) ∧
      ∀ c, ((syncTotals slots).map (totalFor c)).sum = (slots.map (·.credit c)).sum := by
  induction slots with
  | nil => exact ⟨fun total htotal => (not_mem_nil htotal).elim, fun _ => rfl⟩
  | cons slot rest ih =>
    rw [map_cons, sum_cons] at hfits
    obtain ⟨hpos, hsum⟩ := ih (fun other hother => hcust other (mem_cons_of_mem _ hother)) (by omega)
    unfold syncTotals
    by_cases hamt : 0 < slot.amountMicro
    · rw [max_eq_right hamt.le] at hfits
      have hroom : ∀ total ∈ syncTotals rest, 0 < total.2 ∧ total.2 + slot.amountMicro < 2 ^ 63 := by
        intro total htotal
        refine ⟨hpos total htotal, ?_⟩
        have hle : totalFor total.1.1 total ≤ ((syncTotals rest).map (totalFor total.1.1)).sum := by
          refine single_le_sum (fun n hn => ?_) _ (mem_map_of_mem htotal)
          obtain ⟨other, hother, rfl⟩ := mem_map.mp hn
          unfold totalFor
          split
          · exact (hpos other hother).le
          · exact le_rfl
        rw [hsum, totalFor, if_pos rfl] at hle
        have hall := sum_credit_le total.1.1 rest
        omega
      rw [if_neg (not_or.mpr ⟨not_le.mpr hamt, hcust slot mem_cons_self hamt⟩)]
      refine ⟨addTotal_pos hamt hroom, fun c => ?_⟩
      rw [addTotal_sum hamt hroom, hsum, map_cons, sum_cons, totalFor, StreamSlot.credit,
        max_eq_right hamt.le]
    · rw [if_pos (.inl (not_lt.mp hamt))]
      refine ⟨hpos, fun c => ?_⟩
      rw [hsum, map_cons, sum_cons, StreamSlot.credit, max_eq_left (not_lt.mp hamt), ite_self, zero_add]

/-- The commands of a total add it to the counter of its campaign. -/
theorem totalCommands_local (c : UUID) {total : (UUID × UUID) × ℤ} (hpos : 0 < total.2) :
    ((totalCommands total).map (adds (localCampaignSyncKey c))).sum = totalFor c total := by
  have hcust : localCampaignSyncKey c ≠ localCustomerSyncKey total.1.2 :=
    append_ne_of_clash (by decide)
  have hcamp : localCampaignSyncKey c = localCampaignSyncKey total.1.1 ↔ total.1.1 = c :=
    ⟨fun h => (localCampaignSyncKey_inj h).symm, fun h => by rw [h]⟩
  rw [totalCommands, if_neg (not_le.mpr hpos)]
  simp only [map_cons, map_nil, sum_cons, sum_nil, adds, if_neg hcust, hcamp, totalFor, add_zero]

/-- The commands of a total add nothing to the counters of the scripts. -/
theorem totalCommands_tagged (c : UUID) (total : (UUID × UUID) × ℤ) :
    ((totalCommands total).map (adds (campaignSyncKey c))).sum = 0 := by
  have hcamp : campaignSyncKey c ≠ localCampaignSyncKey total.1.1 := by
    rw [campaignSyncKey, String.append_assoc]
    exact tagged_ne_plain (by decide)
  have hcust : campaignSyncKey c ≠ localCustomerSyncKey total.1.2 := by
    rw [campaignSyncKey, String.append_assoc]
    exact tagged_ne_plain (by decide)
  rw [totalCommands]
  split
  · rfl
  · simp only [map_cons, map_nil, sum_cons, sum_nil, adds, if_neg hcamp, if_neg hcust, add_zero]

theorem fcapCommands_adds {slot : StreamSlot} (hfcap : slot.capped = true → key ≠ slot.fcapKey) :
    ((fcapCommands slot).map (adds key)).sum = 0 := by
  rw [fcapCommands]
  split
  · rename_i hcapped
    simp [adds, hfcap hcapped]
  · rfl

theorem xaddCommands_adds (key stream : String) (slots : List StreamSlot) :
    ((slots.map (xaddCommand stream)).map (adds key)).sum = 0 := by
  apply sum_eq_zero
  intro n hn
  rw [map_map] at hn
  obtain ⟨slot, -, rfl⟩ := mem_map.mp hn
  rfl

/-- The frequency counter of the slot, if it has one, is no sync counter. -/
def StreamSlot.FcapApart (slot : StreamSlot) : Prop :=
  ∀ c key, slot.capped = true → SyncCounter c key → key ≠ slot.fcapKey

/-- The flush loses nothing: no click was claimed before or twice in the batch, every slot that carries
credit has a customer, the amounts fit into `int64`, and no pipeline fails. -/
structure Lossless (o : FlushOutcome) (slots : List StreamSlot) (r : Redis) : Prop where
  fresh : ∀ slot ∈ slots, slot.clickID ≠ "" → r.num slot.idemKey = none
  distinct : ((slots.filter (·.clickID ≠ "")).map StreamSlot.idemKey).Nodup
  customer : ∀ slot ∈ slots, 0 < slot.amountMicro → slot.customerID ≠ uuidNil
  fits : (slots.map fun slot => max 0 slot.amountMicro).sum < 2 ^ 63
  idem : (∃ slot ∈ slots, slot.clickID ≠ "") → o.idem = .done
  xadd : o.xadd = .done
  xaddRefused : ∀ i, o.xaddRefused i = false
  sync : o.sync = .done

/-- The idempotency pipeline of such a flush accepts all slots and counts nothing. -/
theorem Lossless.idemPipeline (h : Lossless o slots r) :
    (Ingestion.idemPipeline o.idem slots r).1 = slots ∧
      ∀ key, (∀ slot : StreamSlot, key ≠ slot.idemKey) →
        (Ingestion.idemPipeline o.idem slots r).2.count key = r.count key := by
  unfold Ingestion.idemPipeline
  split
  · rename_i hany
    have hdone : o.idem = .done := by
      apply h.idem
      simpa using hany
    rw [hdone]
    refine ⟨setNXAll_fst h.fresh h.distinct, ?_⟩
    intro key hkey
    rw [Redis.count, setNXAll_num hkey, Redis.count]
  · exact ⟨rfl, fun _ _ => rfl⟩

/-- What such a flush adds to a sync counter. -/
theorem Lossless.flush_count (h : Lossless o slots r) (stream : String)
    (hcnt : SyncCounter c key) {weight : (UUID × UUID) × ℤ → ℤ} (hfcap : ∀ slot ∈ slots, slot.FcapApart)
    (htotal : ∀ total, 0 < total.2 → ((totalCommands total).map (adds key)).sum = weight total) :
    (flushShardPipeline stream o slots r).count key =
      r.count key + ((syncTotals slots).map weight).sum := by
  obtain ⟨hfst, hcount⟩ := h.idemPipeline
  have hidem : ∀ slot : StreamSlot, key ≠ slot.idemKey :=
    fun slot => not_syncCounter_plain (by decide) (by decide) hcnt
  have hcaps : ((slots.flatMap fcapCommands).map (adds key)).sum = (slots.map fun _ => (0 : ℤ)).sum :=
    sum_adds_flatMap fun slot hslot =>
      fcapCommands_adds fun hcapped => hfcap slot hslot c key hcapped hcnt
  unfold flushShardPipeline
  simp only [h.xadd, h.sync, PipeOutcome.executed, hfst, appendedSlots_of_none h.xaddRefused]
  rw [Redis.execAll_count, Redis.execAll_count, hcount key hidem, xaddCommands_adds, syncCommands,
    map_append, sum_append, hcaps,
    sum_adds_flatMap fun total htotals => htotal total ((syncTotals_spec h.customer h.fits).1 total htotals)]
  simp

/-- Such a flush reports all credit that the batch carries. -/
theorem Lossless.flush_synced (h : Lossless o slots r) (stream : String)
    (hfcap : ∀ slot ∈ slots, slot.FcapApart) (c : UUID) :
    synced c (flushShardPipeline stream o slots r) = synced c r + (slots.map (·.credit c)).sum := by
  have hlocal := h.flush_count stream (.inl rfl) hfcap fun _ hpos => totalCommands_local c hpos
  have htag := h.flush_count stream (.inr rfl) hfcap fun total _ => totalCommands_tagged c total
  rw [(syncTotals_spec h.customer h.fits).2] at hlocal
  have hzero : ((syncTotals slots).map fun _ => (0 : ℤ)).sum = 0 := by simp
  rw [hzero, add_zero] at htag
  rw [synced, hlocal, htag, synced]
  ring

end

end Espx.Ingestion
