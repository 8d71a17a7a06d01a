import Espx.Domain.Sharding

/-!
# The slot map at the edge

`edge-slot-map.lua` computes the slot of a campaign on its own, with a table of 256 entries for
the Castagnoli checksum. The entries 30, 31 and 49 of that table are wrong. Lua's bit operations
work on 32 bits, whose patterns are kept here without the sign.
-/

namespace Espx.Edge

open Espx.Foundation Espx.Domain List

/-- `crc32c_table`. -/
def crc32cTable : Array UInt32 :=
  #[0x00000000, 0xF26B8303, 0xE13B70F7, 0x1350F3F4, 0xC79A971F, 0x35F1141C, 0x26A1E7E8, 0xD4CA64EB,
    0x8AD958CF, 0x78B2DBCC, 0x6BE22838, 0x9989AB3B, 0x4D43CFD0, 0xBF284CD3, 0xAC78BF27, 0x5E133C24,
    0x105EC76F, 0xE235446C, 0xF165B798, 0x030E349B, 0xD7C45070, 0x25AFD373, 0x36FF2087, 0xC494A384,
    0x9A879FA0, 0x68EC1CA3, 0x7BBCEF57, 0x89D76C54, 0x5D1D08BF, 0xAF768BBC, 0xBC263848, 0x4E4DBB4B,
    0x20BD8EDE, 0xD2D60DDD, 0xC186FE29, 0x33ED7D2A, 0xE72719C1, 0x154C9AC2, 0x061C6936, 0xF477EA35,
    0xAA64D611, 0x580F5512, 0x4B5FA6E6, 0xB93425E5, 0x6DFE410E, 0x9F95C20D, 0x8CC531F9, 0x7EAEB2FA,
    0x30E349B1, 0xC288CAD2, 0xD1D83946, 0x23B3BA45, 0xF779DEAE, 0x05125DAD, 0x1642AE59, 0xE4292D5A,
    0xBA3A117E, 0x4851927D, 0x5B016189, 0xA96AE28A, 0x7DA08661, 0x8FCB0562, 0x9C9BF696, 0x6EF07595,
    0x417B1DBC, 0xB3109EBF, 0xA0406D4B, 0x522BEE48, 0x86E18AA3, 0x748A09A0, 0x67DAFA54, 0x95B17957,
    0xCBA24573, 0x39C9C670, 0x2A993584, 0xD8F2B687, 0x0C38D26C, 0xFE53516F, 0xED03A29B, 0x1F682198,
    0x5125DAD3, 0xA34E59D0, 0xB01EAA24, 0x42752927, 0x96BF4DCC, 0x64D4CECF, 0x77843D3B, 0x85EFBE38,
    0xDBFC821C, 0x2997011F, 0x3AC7F2EB, 0xC8AC71E8, 0x1C661503, 0xEE0D9600, 0xFD5D65F4, 0x0F36E6F7,
    0x61C69362, 0x93AD1061, 0x80FDE395, 0x72966096, 0xA65C047D, 0x5437877E, 0x4767748A, 0xB50CF789,
    0xEB1FCBAD, 0x197448AE, 0x0A24BB5A, 0xF84F3859, 0x2C855CB2, 0xDEEEDFB1, 0xCDBE2C45, 0x3FD5AF46,
    0x7198540D, 0x83F3D70E, 0x90A324FA, 0x62C8A7F9, 0xB602C312, 0x44694011, 0x5739B3E5, 0xA55230E6,
    0xFB410CC2, 0x092A8FC1, 0x1A7A7C35, 0xE811FF36, 0x3CDB9BDD, 0xCEB018DE, 0xDDE0EB2A, 0x2F8B6829,
    0x82F63B78, 0x709DB87B, 0x63CD4B8F, 0x91A6C88C, 0x456CAC67, 0xB7072F64, 0xA457DC90, 0x563C5F93,
    0x082F63B7, 0xFA44E0B4, 0xE9141340, 0x1B7F9043, 0xCFB5F4A8, 0x3DDE77AB, 0x2E8E845F, 0xDCE5075C,
    0x92A8FC17, 0x60C37F14, 0x73938CE0, 0x81F80FE3, 0x55326B08, 0xA759E80B, 0xB4091BFF, 0x466298FC,
    0x1871A4D8, 0xEA1A27DB, 0xF94AD42F, 0x0B21572C, 0xDFEB33C7, 0x2D80B0C4, 0x3ED04330, 0xCCBBC033,
    0xA24BB5A6, 0x502036A5, 0x4370C551, 0xB11B4652, 0x65D122B9, 0x97BAA1BA, 0x84EA524E, 0x7681D14D,
    0x2892ED69, 0xDAF96E6A, 0xC9A99D9E, 0x3BC21E9D, 0xEF087A76, 0x1D63F975, 0x0E330A81, 0xFC588982,
    0xB21572C9, 0x407EF1CA, 0x532E023E, 0xA145813D, 0x758FE5D6, 0x87E466D5, 0x94B49521, 0x66DF1622,
    0x38CC2A06, 0xCAA7A905, 0xD9F75AF1, 0x2B9CD9F2, 0xFF56BD19, 0x0D3D3E1A, 0x1E6DCDEE, 0xEC064EED,
    0xC38D26C4, 0x31E6A5C7, 0x22B65633, 0xD0DDD530, 0x0417B1DB, 0xF67C32D8, 0xE52CC12C, 0x1747422F,
    0x49547E0B, 0xBB3FFD08, 0xA86F0EFC, 0x5A048DFF, 0x8ECEE914, 0x7CA56A17, 0x6FF599E3, 0x9D9E1AE0,
    0xD3D3E1AB, 0x21B862A8, 0x32E8915C, 0xC083125F, 0x144976B4, 0xE622F5B7, 0xF5720643, 0x07198540,
    0x590AB964, 0xAB613A67, 0xB831C993, 0x4A5A4A90, 0x9E902E7B, 0x6CFBAD78, 0x7FAB5E8C, 0x8DC0DD8F,
    0xE330A81A, 0x115B2B19, 0x020BD8ED, 0xF0605BEE, 0x24AA3F05, 0xD6C1BC06, 0xC5914FF2, 0x37FACCF1,
    0x69E9F0D5, 0x9B8273D6, 0x88D28022, 0x7AB90321, 0xAE7367CA, 0x5C18E4C9, 0x4F48173D, 0xBD23943E,
    0xF36E6F75, 0x0105EC76, 0x12551F82, 0xE03E9C81, 0x34F4F86A, 0xC69F7B69, 0xD5CF889D, 0x27A40B9E,
    0x79B737BA, 0x8BDCB4B9, 0x988C474D, 0x6AE7C44E, 0xBE2DA0A5, 0x4C4623A6, 0x5F16D052, 0xAD7D5351]

/-- `crc32c_bytes`. -/
def crc32cBytes (data : List UInt8) : UInt32 :=
  data.foldl (fun (crc : UInt32) (b : UInt8) =>
    (crc >>> 8) ^^^ crc32cTable.getD ((crc ^^^ b.toUInt32) &&& 0xff).toNat 0) 0xFFFFFFFF ^^^ 0xFFFFFFFF

/-- The value of a digit in lower case, as `tonumber` reads it to base 16. -/
def hexValue (c : Char) : Option UInt8 :=
  if '0' ≤ c ∧ c ≤ '9' then some (UInt8.ofNat (c.toNat - 48))
  else if 'a' ≤ c ∧ c ≤ 'f' then some (UInt8.ofNat (c.toNat - 87))
  else none

/-- The loop of `parse_uuid_bytes` over pairs of digits; a pair that is no number is an error. -/
def hexPairs : List Char → Option (List UInt8)
  | high :: low :: rest => do
    let h ← hexValue high
    let l ← hexValue low
    let bytes ← hexPairs rest
    return (h * 16 + l) :: bytes
  | _ => some []

/-- `parse_uuid_bytes`. -/
def parseUuidBytes (uuidStr : String) : Option (List UInt8) :=
  if uuidStr.toList.length < 36 then none
  else
    let hex := (uuidStr.toList.filter (· ≠ '-')).map Char.toLower
    if hex.length ≠ 32 then none else hexPairs hex

/-- The shared dictionary: `version` and the entries `s:0` to `s:1023`. -/
structure SlotDict where
  version : Option ℤ
  shard : ℕ → Option UInt8

/-- The slot that `get_shard` computes. -/
def slotOf (campaignID : String) : Option ℕ :=
  (parseUuidBytes campaignID).map fun raw => (crc32cBytes raw &&& 1023).toNat

/-- `get_shard`. -/
def SlotDict.getShard (dict : SlotDict) (campaignID : String) : Option UInt8 :=
  match dict.version with
  | none => none
  | some version => if version ≤ 0 then none else (slotOf campaignID).bind dict.shard

/-- The dictionary after `sync` has taken over a slot map. -/
def sync (version : ℤ) (slots : SlotTable) : SlotDict where
  version := some version
  shard slot := if h : slot < 1024 then some (slots ⟨slot, h⟩) else none

/-- By how much the entries of the table are wrong. -/
def tableDamage (i : UInt32) : UInt32 :=
  if i = 30 ∨ i = 31 then 0x4000 else if i = 49 then 0x60 else 0

/-- The entries of the table, with their damage. -/
theorem crc32cTable_eq (i : UInt8) :
    crc32cTable.getD i.toUInt32.toNat 0 = crcBits castagnoli 8 i.toUInt32 ^^^ tableDamage i.toUInt32 := by
  have hall : crc32cTable.toList = (List.range 256).map fun n =>
      crcBits castagnoli 8 (UInt32.ofNat n) ^^^ tableDamage (UInt32.ofNat n) := by
    decide +kernel
  have hlt : i.toUInt32.toNat < 256 := by
    exact i.toNat_lt
  rw [Array.getD_eq_getD_getElem?, ← Array.getElem?_toList, hall, getElem?_map,
    getElem?_range hlt, Option.map_some, Option.getD_some, UInt32.ofNat_toNat]

/-- The difference between the two checksums of a campaign, from its sixteen bytes. -/
def slotError (id : UUID) : UInt32 := errorAfter castagnoli tableDamage 0xFFFFFFFF 0 id.toList

/-- The checksum at the edge differs from the tracker's by that much. -/
theorem crc32cBytes_eq (id : UUID) : crc32cBytes id.toList = crc32Castagnoli id ^^^ slotError id := by
  have hfold := @foldl_tableByte castagnoli tableDamage (fun i => crc32cTable.getD i.toNat 0)
    crc32cTable_eq 0xFFFFFFFF 0 id.toList
  have hnot : ∀ x : UInt32, x ^^^ 0xFFFFFFFF = ~~~x := by
    intro x
    exact UInt32.xor_neg_one
  rw [UInt32.xor_zero] at hfold
  change id.toList.foldl (tableByte fun i => crc32cTable.getD i.toNat 0) 0xFFFFFFFF ^^^ 0xFFFFFFFF = _
  rw [hnot, hfold, ← UInt32.not_xor]
  rfl

/-- The digits of a byte are read back. -/
theorem hexPairs_hexByte (b : UInt8) (rest : List Char) :
    hexPairs (hexByte b ++ rest) = (hexPairs rest).map (b :: ·) := by
  have hall : ∀ n : Fin 256, (do
      let h ← hexValue (hexChar (UInt8.ofNat n >>> 4))
      let l ← hexValue (hexChar (UInt8.ofNat n &&& 0xf))
      return h * 16 + l) = some (UInt8.ofNat n) := by
    decide +kernel
  have hb := hall ⟨b.toNat, b.toNat_lt⟩
  rw [show UInt8.ofNat b.toNat = b from UInt8.ofNat_toNat] at hb
  simp only [Option.bind_eq_bind, Option.bind_eq_some_iff] at hb
  obtain ⟨h, hhigh, l, hlow, hbyte⟩ := hb
  change (do
    let h ← hexValue (hexChar (b >>> 4))
    let l ← hexValue (hexChar (b &&& 0xf))
    let bytes ← hexPairs rest
    return (h * 16 + l) :: bytes) = _
  rw [hhigh, hlow, ← Option.some.inj hbyte]
  cases hexPairs rest <;> rfl

/-- The digits of a byte are no dashes, and in lower case. -/
theorem hexByte_clean (b : UInt8) : ((hexByte b).filter (· ≠ '-')).map Char.toLower = hexByte b := by
  have hall : ∀ n : Fin 256, ((hexByte (UInt8.ofNat n)).filter (· ≠ '-')).map Char.toLower =
      hexByte (UInt8.ofNat n) := by
    decide +kernel
  have hb := hall ⟨b.toNat, b.toNat_lt⟩
  rw [show UInt8.ofNat b.toNat = b from UInt8.ofNat_toNat] at hb
  exact hb

/-- The canonical text without its dashes. -/
theorem uuidString_clean (id : UUID) :
    ((uuidString id).toList.filter (· ≠ '-')).map Char.toLower = id.toList.flatMap hexByte := by
  have hdash : ((['-'] : List Char).filter (· ≠ '-')).map Char.toLower = [] := by decide
  have hvector : id = #v[id[0], id[1], id[2], id[3], id[4], id[5], id[6], id[7], id[8], id[9], id[10],
      id[11], id[12], id[13], id[14], id[15]] := by
    apply Vector.ext
    intro i hi
    interval_cases i <;> rfl
  unfold uuidString
  rw [String.toList_ofList, congrArg Vector.toList hvector, Vector.toList_mk, List.toList_toArray]
  simp only [filter_append, map_append, hexByte_clean, hdash, append_nil,
    nil_append, flatMap_cons, flatMap_nil, append_assoc]

/-- The canonical text of an identifier is parsed to its bytes. -/
theorem parseUuidBytes_uuidString (id : UUID) : parseUuidBytes (uuidString id) = some id.toList := by
  have hpairs : ∀ bytes : List UInt8, hexPairs (bytes.flatMap hexByte) = some bytes := by
    intro bytes
    induction bytes with
    | nil => rfl
    | cons b rest ih => rw [flatMap_cons, hexPairs_hexByte, ih, Option.map_some]
  have hlen : ∀ bytes : List UInt8, (bytes.flatMap hexByte).length = 2 * bytes.length := by
    intro bytes
    induction bytes with
    | nil => rfl
    | cons b rest ih =>
      rw [flatMap_cons, length_append, ih, length_cons]
      change 2 + _ = _
      omega
  unfold parseUuidBytes
  rw [uuidString_length, if_neg (by decide), uuidString_clean]
  dsimp only
  rw [hlen, if_neg (by simp), hpairs]

/-- The slot that `GetShard` looks up. -/
def trackerSlot (id : UUID) : ℕ := (crc32Castagnoli id).toNat % 1024

theorem slotOf_uuidString (id : UUID) :
    slotOf (uuidString id) = some ((crc32Castagnoli id ^^^ slotError id).toNat % 1024) := by
  rw [slotOf, parseUuidBytes_uuidString, Option.map_some, crc32cBytes_eq, UInt32.toNat_and]
  exact congrArg some (Nat.and_two_pow_sub_one_eq_mod _ 10)

/-- Adding a word leaves the low ten bits exactly when its own are zero. -/
theorem xor_mod_1024_eq_iff (x e : UInt32) :
    (x ^^^ e).toNat % 1024 = x.toNat % 1024 ↔ e &&& 1023 = 0 := by
  have hlow : e &&& 1023 = 0 ↔ e.toNat % 1024 = 0 := by
    rw [← UInt32.toNat_inj, UInt32.toNat_and]
    exact iff_of_eq (congrArg (· = 0) (Nat.and_two_pow_sub_one_eq_mod e.toNat 10))
  have hxor : (x ^^^ e).toNat % 1024 = (x.toNat % 1024) ^^^ (e.toNat % 1024) := by
    exact Nat.xor_mod_two_pow (n := 10)
  rw [hlow, hxor]
  constructor
  · intro h
    have hcanc := congrArg (x.toNat % 1024 ^^^ ·) h
    rwa [← Nat.xor_assoc, Nat.xor_self, Nat.zero_xor] at hcanc
  · intro h
    rw [h, Nat.xor_zero]

theorem slotOf_eq_iff (id : UUID) :
    slotOf (uuidString id) = some (trackerSlot id) ↔ slotError id &&& 1023 = 0 := by
  rw [slotOf_uuidString, Option.some_inj]
  exact xor_mod_1024_eq_iff _ _

/-- Edge and tracker compute the same slot of a campaign, and find the same entry in every slot map of the
edge, exactly when the errors of the table that the bytes of the campaign run into cancel in the low ten
bits. -/
theorem edge_slot_eq_iff (id : UUID) :
    (slotOf (uuidString id) = some (trackerSlot id) ↔ slotError id &&& 1023 = 0) ∧
      ((∀ (version : ℤ) (table : SlotTable), 0 < version →
        ((sync version table).getShard (uuidString id)).map UInt8.toNat = some (getShard table id)) ↔
          slotError id &&& 1023 = 0) := by
  refine ⟨slotOf_eq_iff id, ?_⟩
  rw [← slotOf_eq_iff]
  have hlookup : ∀ (version : ℤ) (table : SlotTable), 0 < version →
      (sync version table).getShard (uuidString id) =
        (slotOf (uuidString id)).bind (sync version table).shard := by
    intro version table hver
    exact if_neg (not_le.mpr hver)
  constructor
  · intro hall
    have hentry := hall 1 (fun slot => if slot.val = trackerSlot id then 1 else 0) Int.one_pos
    rw [hlookup _ _ Int.one_pos, slotOf_uuidString, Option.bind_some, sync] at hentry
    dsimp only at hentry
    rw [dif_pos (Nat.mod_lt _ (by decide)), Option.map_some, Option.some_inj, getShard] at hentry
    rw [slotOf_uuidString, Option.some_inj]
    by_contra hne
    have hslot : (crc32Castagnoli id).toNat % 1024 = trackerSlot id := rfl
    rw [if_neg hne, if_pos hslot] at hentry
    cases hentry
  · intro heq version table hver
    have hlt : trackerSlot id < 1024 := Nat.mod_lt _ (by decide)
    rw [hlookup _ _ hver, heq, Option.bind_some, sync]
    dsimp only
    rw [dif_pos hlt, Option.map_some]
    rfl

/-- The sixteen bytes nine: the edge computes another slot than the tracker. -/
theorem edge_slot_differs :
    slotOf (uuidString (Vector.replicate 16 9)) = some 996 ∧ trackerSlot (Vector.replicate 16 9) = 642 ∧
      slotError (Vector.replicate 16 9) &&& 1023 ≠ 0 := by
  decide +kernel

end Espx.Edge
