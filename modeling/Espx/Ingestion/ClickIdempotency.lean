import Espx.Ingestion.FullPath

/-!
# Charging a click once

Each script refuses a click whose idempotency key is set, but the fast and the full script build that key
differently and it lives on the shard of the debit. A click is charged at most once as long as no call
takes another script or another shard than the one that holds the key.
-/

namespace Espx.Ingestion

open Espx.Foundation Espx.Domain Function

/-- The idempotency key of a click under each of the two scripts. -/
def clickKey (id : UUID) (click : String) : LuaPath → String
  | .fast => "idempotency:click:" ++ click
  | .full => campaignHashTag id ++ "idempotency:click:" ++ click

namespace FilterExecution

variable (x : FilterExecution)

/-- The call that the filter makes on the fast path. -/
def fastCall : BudgetFastCall := budgetFastCall x.filter x.event x.camp x.now

/-- The script that serves the event. -/
def path : LuaPath := luaPath x.filter x.event x.camp

/-- The Redis server that serves the event. -/
def server : Option ℕ :=
  (resolveDebitShard x.filter x.event x.camp).map (· % x.filter.shardCount)

/-- The execution that serves the event. -/
def execute (r : Redis) : ℤ × Redis :=
  match x.path with
  | .fast => x.fastCall.run r
  | .full => x.call.run r

/-- An execution leaves at most the ingress counted, or it finds the key of its click unset
and sets it. -/
theorem execute_cases (r : Redis) :
    Refused x.call.precheck r (x.execute r).2 ∨
      (r.num (clickKey x.event.campaignID x.event.clickID x.path) = none ∧
        ((x.execute r).2.num (clickKey x.event.campaignID x.event.clickID x.path)).isSome) := by
  unfold execute
  cases x.path with
  | fast =>
    rcases x.fastCall.run_cases r with ⟨-, href⟩ | ⟨-, hidem, -, hrun⟩
    · exact .inl href
    have hset := x.fastCall.accept_idempotency (x.fastCall.precheck.countIngress r)
    refine .inr ⟨hidem, ?_⟩
    change ((x.fastCall.run r).2.num x.fastCall.idempotencyKey).isSome
    rw [hrun, hset, Option.isSome_some]
  | full =>
    rcases x.call.run_cases r with ⟨-, href⟩ | ⟨hcode, hidem, -⟩
    · exact .inl href
    have hset := (x.step_accepted r hcode hidem).2.1
    refine .inr ⟨hidem, ?_⟩
    change ((step r x).num x.call.idempotencyKey).isSome
    rw [hset, Option.isSome_some]

theorem refused_spend {r after : Redis} (h : Refused x.call.precheck r after) :
    after.count x.call.spendKey = r.count x.call.spendKey := by
  have hne : x.call.spendKey ≠ x.call.precheck.ingressKey := fun heq =>
    x.ingressKey_not_money (heq ▸ x.spendKey_of_campaign.money)
  rw [Redis.count, h.num hne, Redis.count]

end FilterExecution

/-- A call of `Check` with a given campaign and click. -/
structure ClickCheck (id : UUID) (click : String) extends FilterExecution where
  campaign_eq : event.campaignID = id
  click_eq : event.clickID = click

/-- What happens on the Redis servers: script executions for the click, and anything else. -/
inductive ClickAction (id : UUID) (click : String)
  | check (x : ClickCheck id click)
  | environment (server : ℕ) (change : Redis → Redis)

namespace ClickAction

variable {id : UUID} {click : String} {s : ℕ → Redis}

/-- One step of the servers. -/
def step (s : ℕ → Redis) : ClickAction id click → ℕ → Redis
  | check x =>
    match x.server with
    | none => s
    | some n => Function.update s n (x.execute (s n)).2
  | environment n change => Function.update s n (change (s n))

/-- Counts an execution that changes the spend key of the campaign. -/
def debits (s : ℕ → Redis) : ClickAction id click → ℕ
  | check x =>
    match x.server with
    | none => 0
    | some n =>
      if (x.execute (s n)).2.count x.call.spendKey ≠ (s n).count x.call.spendKey then 1 else 0
  | environment _ _ => 0

/-- Counts an execution that appends to the event stream. -/
def appends (s : ℕ → Redis) : ClickAction id click → ℕ
  | check x =>
    match x.server with
    | none => 0
    | some n =>
      if (x.execute (s n)).2.streams x.filter.streamName ≠ (s n).streams x.filter.streamName then 1
      else 0
  | environment _ _ => 0

/-- No idempotency key of the click expires. -/
def KeysKept (s : ℕ → Redis) : ClickAction id click → Prop
  | check _ => True
  | environment n change =>
    ∀ p, ((s n).num (clickKey id click p)).isSome → ((change (s n)).num (clickKey id click p)).isSome

/-- The click is known under no other script and on no other server than those of the call. -/
def RouteKept (s : ℕ → Redis) : ClickAction id click → Prop
  | check x => ∀ n, x.server = some n →
    ∀ p m, (p, m) ≠ (x.path, n) → (s m).num (clickKey id click p) = none
  | environment _ _ => True

/-- The click is known on some server. -/
def Known (id : UUID) (click : String) (s : ℕ → Redis) : Prop :=
  ∃ p n, ((s n).num (clickKey id click p)).isSome

/-- A click stays known when one server changes and keeps its keys. -/
theorem Known.update {n : ℕ} {after : Redis}
    (h : ∀ p, ((s n).num (clickKey id click p)).isSome → (after.num (clickKey id click p)).isSome)
    (hknown : Known id click s) : Known id click (Function.update s n after) := by
  obtain ⟨p, m, hset⟩ := hknown
  refine ⟨p, m, ?_⟩
  by_cases hm : m = n
  · subst hm
    rw [update_self]
    exact h p hset
  · rw [update_of_ne hm]
    exact hset

/-- A step without a charge counts nothing; a step with one makes the click known, and the
click was unknown before. -/
theorem step_cases {a : ClickAction id click} (hkept : KeysKept s a) (hroute : RouteKept s a) :
    (debits s a = 0 ∧ appends s a = 0 ∧ (Known id click s → Known id click (step s a))) ∨
      (debits s a ≤ 1 ∧ appends s a ≤ 1 ∧ ¬ Known id click s ∧ Known id click (step s a)) := by
  cases a with
  | environment n change => exact .inl ⟨rfl, rfl, Known.update hkept⟩
  | check x =>
    simp only [debits, appends, step]
    cases hserver : x.server with
    | none => exact .inl ⟨rfl, rfl, fun h => h⟩
    | some n =>
      have hcases := x.execute_cases (s n)
      rw [x.campaign_eq, x.click_eq] at hcases
      rcases hcases with href | ⟨hunset, hset⟩
      · refine .inl ⟨?_, ?_, ?_⟩
        · exact if_neg (not_not.mpr (x.refused_spend href))
        · exact if_neg (not_not.mpr (congrFun href.frame.2.2.2 _))
        · exact Known.update fun p hknown => (href.writes (List.mem_singleton_self _)).isSome hknown
      refine .inr ⟨?_, ?_, ?_, x.path, n, ?_⟩
      · dsimp only
        split <;> omega
      · dsimp only
        split <;> omega
      · rintro ⟨p, m, hknown⟩
        by_cases hpm : (p, m) = (x.path, n)
        · obtain ⟨rfl, rfl⟩ := Prod.mk.inj hpm
          rw [hunset] at hknown
          cases hknown
        · rw [hroute n hserver p m hpm] at hknown
          cases hknown
      · change ((Function.update s n (x.execute (s n)).2 n).num _).isSome
        rw [update_self]
        exact hset

/-- A known click is charged no more, an unknown one once at most. -/
theorem run_charges {actions : List (ClickAction id click)}
    (h : Admissible (fun s a => KeysKept s a ∧ RouteKept s a) step s actions) :
    (Known id click s → runTotal debits step s actions = 0 ∧ runTotal appends step s actions = 0) ∧
      runTotal debits step s actions ≤ 1 ∧ runTotal appends step s actions ≤ 1 := by
  induction actions generalizing s with
  | nil => exact ⟨fun _ => ⟨rfl, rfl⟩, Nat.zero_le 1, Nat.zero_le 1⟩
  | cons a rest ih =>
    obtain ⟨⟨hkept, hroute⟩, hrest⟩ := h
    obtain ⟨hknown, hdebits, happends⟩ := ih hrest
    simp only [runTotal]
    rcases step_cases hkept hroute with ⟨hd, ha, hkeep⟩ | ⟨hd, ha, hnew, hset⟩
    · rw [hd, ha, Nat.zero_add, Nat.zero_add]
      exact ⟨fun hs => hknown (hkeep hs), hdebits, happends⟩
    · obtain ⟨hd', ha'⟩ := hknown hset
      rw [hd', ha']
      exact ⟨fun hs => absurd hs hnew, hd, ha⟩

/-- In every run in which no idempotency key of the click expires and every call finds the click unknown
under the other script and on the other servers, at most one execution debits the campaign and at most one
appends to the event stream. -/
theorem click_charged_at_most_once (s : ℕ → Redis) (actions : List (ClickAction id click))
    (h : Admissible (fun s a => KeysKept s a ∧ RouteKept s a) step s actions) :
    runTotal debits step s actions ≤ 1 ∧ runTotal appends step s actions ≤ 1 :=
  (run_charges h).2

end ClickAction

/-- The click of the samples, served with the fast path switched on or off. -/
def sampleCheck (fastPathEnabled : Bool) : ClickCheck sampleRow.id "click-1" where
  filter := { sampleFilter with fastPathEnabled := fastPathEnabled }
  event := sampleClick
  row := sampleRow
  now := sampleClock
  registered := sampleClick_registered
  brandKey := sampleRow_brandKey
  campaign_eq := rfl
  click_eq := rfl

/-- Servers of which each holds the budget of the sample campaign. -/
def sampleServers : ℕ → Redis := fun _ => Redis.empty.setNum (budgetCampaignKey sampleRow.id) 100

open ClickAction in
/-- The click repeated on the fast path. -/
theorem click_charged_at_most_once_sample :
    runTotal debits step sampleServers [check (sampleCheck true), check (sampleCheck true)] ≤ 1 ∧
      runTotal appends step sampleServers [check (sampleCheck true), check (sampleCheck true)] ≤ 1 := by
  have hserver : (sampleCheck true).server = some 2 := by decide +kernel
  have hunk : ∀ p, (sampleServers 2).num (clickKey sampleRow.id "click-1" p) = none := by
    intro p
    cases p <;> decide +kernel
  apply click_charged_at_most_once
  refine ⟨⟨trivial, fun _ _ p m _ => hunk p⟩, ⟨trivial, ?_⟩, trivial⟩
  intro n hn p m hpm
  obtain rfl : 2 = n := by simpa [hserver] using hn
  simp only [step, hserver]
  by_cases hm : m = 2
  · subst hm
    rw [Function.update_self]
    cases p with
    | fast => exact absurd (by decide +kernel) hpm
    | full => decide +kernel
  · rw [Function.update_of_ne hm]
    exact hunk p

open ClickAction in
/-- The click on the fast path and then on the full path is charged and appended twice. -/
theorem click_charged_twice :
    Admissible KeysKept step sampleServers [check (sampleCheck true), check (sampleCheck false)] ∧
      runTotal debits step sampleServers [check (sampleCheck true), check (sampleCheck false)] = 2 ∧
      runTotal appends step sampleServers [check (sampleCheck true), check (sampleCheck false)] = 2 :=
  ⟨⟨trivial, trivial, trivial⟩, by decide +kernel, by decide +kernel⟩

end Espx.Ingestion
