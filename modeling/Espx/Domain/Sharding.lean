import Espx.Domain.Campaign
import Espx.Foundation.Crc32

/-!
# Shards and sub-slots

The slot of a campaign is taken from its Castagnoli checksum; a slot table maps it to a
shard. Campaigns with a high debit volume are spread over sub-slots by user or click.
-/

namespace Espx.Domain

open Espx.Foundation

/-- `crc32Castagnoli`. -/
def crc32Castagnoli (id : UUID) : UInt32 := crc32Update castagnoli 0 id.toList

/-- `slotTable`: the shard of each of the 1024 slots. -/
abbrev SlotTable := Fin 1024 → UInt8

/-- `buildSlotTable`: slots dealt out in turn. -/
def buildSlotTable (numBuckets : ℕ) : SlotTable := fun slot =>
  UInt8.ofNat (slot % if numBuckets = 0 then 1 else numBuckets)

/-- `StaticSlotSharder.GetShard`. -/
def getShard (table : SlotTable) (id : UUID) : ℕ :=
  (table ⟨(crc32Castagnoli id).toNat % 1024, Nat.mod_lt _ (by decide)⟩).toNat

/-- `ExpectedRedisShardCount`. -/
def expectedRedisShardCount : ℕ := 4

/-- The bytes of a text. The texts of campaigns and events are strings of Go: each of their characters is
one byte. -/
def textBytes (text : String) : List UInt8 := text.toList.map Char.toUInt8

/-- `ComputeCompositeHashUUID`. -/
def computeCompositeHashUUID (campaignID : UUID) (userID : List UInt8) : UInt32 :=
  if campaignID ≠ uuidNil then
    let crc := crc32Update ieee 0 (textBytes (uuidString campaignID))
    if userID ≠ [] then crc32Update ieee crc userID else crc
  else if userID ≠ [] then crc32Update ieee 0 userID
  else 0

/-- `debitSubSlot`. -/
def debitSubSlot (camp : Campaign) (userID clickID : String) : ℕ :=
  if camp.debitSubShardCount ≤ 1 then 0
  else
    let key := if userID ≠ "" then userID else clickID
    if key = "" then 0
    else (computeCompositeHashUUID camp.id (textBytes key)).toNat % camp.debitSubShardCount

/-- `spreadHighVolumeShard`. -/
def spreadHighVolumeShard (shardCount : ℕ) (campaignID : UUID) (subSlot : ℕ) : ℕ :=
  if shardCount ≤ 1 then 0
  else (crc32Castagnoli campaignID + UInt32.ofNat subSlot).toNat % shardCount

end Espx.Domain
