import Mathlib.Tactic.IntervalCases

/-!
# Campaign identifiers and the Redis keys built from them

The key builders of `redis_keys.go` and `migration_keys.go`, byte for byte. A key that starts with the
campaign's hash tag, the identifier in braces, lives in the cluster slot of that campaign; the worker's
own keys carry no tag.
-/

namespace Espx.Domain

/-- The sixteen bytes of a `uuid.UUID`. -/
abbrev UUID := Vector UInt8 16

instance uuid_lawfulBEq : LawfulBEq UUID := inferInstance

instance neZero_sixteen : NeZero 16 := ⟨by decide⟩

theorem vector_get {α : Type*} {n : ℕ} (v : Vector α n) (i : Fin n) : v.get i = v[i.val] := rfl

open List

/-- `hexChars[n]`. -/
def hexChar (n : UInt8) : Char :=
  if n < 10 then Char.ofNat (48 + n.toNat) else Char.ofNat (87 + n.toNat)

/-- The two digits `hexChars[b>>4], hexChars[b&0xf]`. -/
def hexByte (b : UInt8) : List Char := [hexChar (b >>> 4), hexChar (b &&& 0xf)]

/-- The canonical text that `AppendUUID` appends and `uuid.UUID.String` returns. -/
def uuidString (u : UUID) : String :=
  String.ofList (hexByte u[0] ++ hexByte u[1] ++ hexByte u[2] ++ hexByte u[3] ++ ['-'] ++
    hexByte u[4] ++ hexByte u[5] ++ ['-'] ++ hexByte u[6] ++ hexByte u[7] ++ ['-'] ++
    hexByte u[8] ++ hexByte u[9] ++ ['-'] ++ hexByte u[10] ++ hexByte u[11] ++ hexByte u[12] ++
    hexByte u[13] ++ hexByte u[14] ++ hexByte u[15])

/-- The first byte of an identifier. -/
def firstByte (u : UUID) : UInt8 := u[0]

/-- `uuid.Nil`. -/
def uuidNil : UUID := Vector.replicate 16 0

/-- `campaignHashTag`: the identifier in braces. -/
def campaignHashTag (id : UUID) : String := "\x7b" ++ uuidString id ++ "\x7d"

/-- `AppendCampaignSubHashTag`: sub-slot zero uses the plain tag. -/
def campaignSubHashTag (id : UUID) (sub : ℕ) : String :=
  if 0 < sub then "\x7b" ++ uuidString id ++ ":slot_" ++ Nat.repr sub ++ "\x7d" else campaignHashTag id

/-- The spend key of a campaign without quota. -/
def budgetCampaignKey (id : UUID) : String :=
  campaignHashTag id ++ "budget:campaign:" ++ uuidString id

/-- The spend key of a campaign under quota, for sub-slot zero. -/
def budgetQuotaKey (id : UUID) : String :=
  campaignHashTag id ++ "budget:quota:" ++ uuidString id

/-- `appendBudgetQuotaKey`: the quota key of one debit sub-slot. -/
def budgetQuotaKeySub (id : UUID) (sub : ℕ) : String :=
  campaignSubHashTag id sub ++ "budget:quota:" ++ uuidString id

/-- The campaign counter that the debit scripts increment. -/
def campaignSyncKey (id : UUID) : String :=
  campaignHashTag id ++ "budget:sync:campaign:" ++ uuidString id

/-- The customer counter that the debit scripts increment, one for each campaign. -/
def customerSyncKey (campaignID customerID : UUID) : String :=
  campaignHashTag campaignID ++ "budget:sync:customer:" ++ uuidString customerID

/-- The frequency-cap prefix: the brand's own key where there is one. -/
def fcapKeyPrefix (campaignID : UUID) (brandFcapKey : String) : String :=
  if brandFcapKey ≠ "" then brandFcapKey ++ ":u:"
  else campaignHashTag campaignID ++ "fcap:c:" ++ uuidString campaignID ++ ":u:"

/-- The prefix of the per-day spend counters. -/
def dailySpendKeyPrefix (campaignID : UUID) : String :=
  campaignHashTag campaignID ++ "budget:daily_spent:campaign:" ++ uuidString campaignID ++ ":"

/-- `MigrationFenceRedisKey`. -/
def migrationFenceRedisKey (campaignID : UUID) : String :=
  "budget:migration_fence:" ++ uuidString campaignID

/-- `BudgetFrozenRedisKey`. -/
def budgetFrozenRedisKey (campaignID : UUID) : String := "budget:frozen:" ++ uuidString campaignID

variable {a b : UInt8} {i j : UUID}

/-- The nibbles of a byte determine it. -/
theorem byte_eq_of_nibbles (hhigh : a >>> 4 = b >>> 4) (hlow : a &&& 0xf = b &&& 0xf) : a = b := by
  have hh := congrArg UInt8.toNat hhigh
  have hl := congrArg UInt8.toNat hlow
  rw [UInt8.toNat_shiftRight, UInt8.toNat_shiftRight] at hh
  rw [UInt8.toNat_and, UInt8.toNat_and] at hl
  apply UInt8.toNat_inj.mp
  have hmask : ∀ x : ℕ, x &&& 15 = x % 16 := fun x => Nat.and_two_pow_sub_one_eq_mod x 4
  have hfour : (4 : UInt8).toNat % 8 = 4 := rfl
  have hfifteen : (0xf : UInt8).toNat = 15 := rfl
  rw [hfour, Nat.shiftRight_eq_div_pow, Nat.shiftRight_eq_div_pow] at hh
  rw [hfifteen, hmask, hmask] at hl
  omega

/-- Digits of different nibbles differ. -/
theorem hexChar_inj {m n : UInt8} (hm : m < 16) (hn : n < 16) (h : hexChar m = hexChar n) : m = n := by
  have hdig : ∀ i j : Fin 16, hexChar (UInt8.ofNat i) = hexChar (UInt8.ofNat j) → i = j := by decide
  have hm' := UInt8.lt_iff_toNat_lt.mp hm
  have hn' := UInt8.lt_iff_toNat_lt.mp hn
  have hnat := hdig ⟨m.toNat, hm'⟩ ⟨n.toNat, hn'⟩ (by simpa using h)
  exact UInt8.toNat_inj.mp (Fin.mk.inj hnat)

/-- The digits of a byte determine it. -/
theorem hexByte_inj (h : hexByte a = hexByte b) : a = b := by
  have hhigh : ∀ x : UInt8, x >>> 4 < 16 := by
    intro x
    have hx := x.toNat_lt
    change x.toNat >>> 4 < 16
    omega
  have hlow : ∀ x : UInt8, x &&& 0xf < 16 := by
    intro x
    exact Nat.lt_succ_of_le Nat.and_le_right
  simp only [hexByte, cons.injEq, and_true] at h
  exact byte_eq_of_nibbles (hexChar_inj (hhigh a) (hhigh b) h.1) (hexChar_inj (hlow a) (hlow b) h.2)

theorem hexByte_append_inj {s t : List Char} : hexByte a ++ s = hexByte b ++ t ↔ a = b ∧ s = t := by
  constructor
  · intro h
    obtain ⟨hbyte, hrest⟩ := append_inj h rfl
    exact ⟨hexByte_inj hbyte, hrest⟩
  · rintro ⟨rfl, rfl⟩
    rfl

/-- The canonical text has 36 characters. -/
theorem uuidString_length (u : UUID) : (uuidString u).toList.length = 36 := by
  unfold uuidString
  rw [String.toList_ofList]
  simp only [length_append]
  rfl

/-- The canonical text determines the identifier. -/
theorem uuidString_injective : Function.Injective uuidString := by
  intro u v h
  have hlist := congrArg String.toList h
  unfold uuidString at hlist
  rw [String.toList_ofList, String.toList_ofList] at hlist
  simp only [append_assoc] at hlist
  simp only [hexByte_append_inj, append_cancel_left_eq] at hlist
  obtain ⟨h0, h1, h2, h3, h4, h5, h6, h7, h8, h9, h10, h11, h12, h13, h14, hlast⟩ := hlist
  have h15 := hexByte_inj hlast
  apply Vector.ext
  intro i hi
  interval_cases i <;> assumption

/-- Keys under campaign tags are equal only for one campaign and with equal remainders. -/
theorem tagged_inj {a b : String} (h : campaignHashTag i ++ a = campaignHashTag j ++ b) :
    i = j ∧ a = b := by
  have hlist := congrArg String.toList h
  simp only [campaignHashTag, String.toList_append, append_assoc] at hlist
  have htail := append_cancel_left hlist
  obtain ⟨hid, hrest⟩ := append_inj htail ((uuidString_length i).trans (uuidString_length j).symm)
  refine ⟨uuidString_injective (String.toList_inj.mp hid), ?_⟩
  exact String.toList_inj.mp (append_cancel_left hrest)

/-- A key under the tag of a proper sub-slot is under no plain tag. -/
theorem subTagged_ne_tagged {sub : ℕ} (hsub : 0 < sub) {a b : String} :
    campaignSubHashTag i sub ++ a ≠ campaignHashTag j ++ b := by
  intro h
  have hlist := congrArg String.toList h
  simp only [campaignSubHashTag, if_pos hsub, campaignHashTag, String.toList_append,
    append_assoc] at hlist
  have htail := append_cancel_left hlist
  obtain ⟨-, hrest⟩ := append_inj htail ((uuidString_length i).trans (uuidString_length j).symm)
  simp at hrest

/-- Two words differ at a place that both have. -/
def clash : List Char → List Char → Bool
  | a :: v, b :: w => a != b || clash v w
  | _, _ => false

/-- Lists of characters that begin with clashing words differ. -/
theorem append_ne_of_clash_list {v w s t : List Char} (h : clash v w = true) : v ++ s ≠ w ++ t := by
  induction v generalizing w with
  | nil => simp [clash] at h
  | cons a v ih =>
    cases w with
    | nil => simp [clash] at h
    | cons b w =>
      intro heq
      simp only [cons_append, cons.injEq] at heq
      simp only [clash, heq.1, bne_self_eq_false, Bool.false_or] at h
      exact ih h heq.2

/-- Texts that begin with clashing words differ. -/
theorem append_ne_of_clash {v w s t : String} (h : clash v.toList w.toList = true) : v ++ s ≠ w ++ t := by
  intro heq
  have hlist := congrArg String.toList heq
  rw [String.toList_append, String.toList_append] at hlist
  exact append_ne_of_clash_list h hlist

theorem tagged_ne_of_clash {v w s t : String} (h : clash v.toList w.toList = true) :
    campaignHashTag i ++ (v ++ s) ≠ campaignHashTag j ++ (w ++ t) :=
  fun heq => append_ne_of_clash h (tagged_inj heq).2

/-- A tagged key differs from a key that does not begin with a brace. -/
theorem tagged_ne_plain {i : UUID} {a w t : String} (h : clash "\x7b".toList w.toList = true) :
    campaignHashTag i ++ a ≠ w ++ t := by
  rw [campaignHashTag, String.append_assoc, String.append_assoc]
  exact append_ne_of_clash h

theorem campaignSyncKey_inj (h : campaignSyncKey i = campaignSyncKey j) : i = j := by
  rw [campaignSyncKey, campaignSyncKey, String.append_assoc, String.append_assoc] at h
  exact (tagged_inj h).1

theorem budgetQuotaKeySub_zero (id : UUID) : budgetQuotaKeySub id 0 = budgetQuotaKey id := rfl

end Espx.Domain
