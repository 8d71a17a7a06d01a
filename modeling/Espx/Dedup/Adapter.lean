import Espx.Domain.SpendStore

/-!
# Claims on a dedup key

`dedup/adapter.go` and the database function `dedup_claim_confirm`. The first claim of a range of sequence
numbers draws a random factor and is confirmed under a key of its own; a later claim of the same payload
is told the same key. The adapter answers both with "apply", and leaves it to its caller to find out what
was applied already.
-/

namespace Espx.Dedup

open Espx.Foundation Espx.Domain

/-- `Outcome`. -/
inductive Outcome
  | confirmed
  | alreadyConfirmed
  | hashMismatch
  | rejected
  | pending
  deriving DecidableEq, Repr

/-- `dedupkey.Scope`. -/
structure Scope where
  regionID : UUID
  sourceID : UUID
  sourceEpoch : UInt32
  seqStart : ℤ
  seqEnd : ℤ
  deriving DecidableEq

/-- The column `status` of `dedup_key_proposals`. -/
inductive ProposalStatus
  | pending
  | confirmed
  | rejected
  deriving DecidableEq, Repr

/-- A row of `dedup_key_proposals`. -/
structure Proposal where
  factorU : UUID
  factorD : Option UUID
  dedupKey : String
  status : ProposalStatus

/-- `ClaimResult`, without the arguments it repeats. -/
structure ClaimResult where
  outcome : Outcome
  factorD : Option UUID
  dedupKey : String

/-- `dedup_format_key`. -/
def dedupFormatKey (scope : Scope) (factorU factorD : UUID) : String :=
  "v2|" ++ uuidString scope.regionID ++ "|" ++ uuidString scope.sourceID ++ "|" ++
    toString scope.sourceEpoch.toNat ++ "|" ++ toString scope.seqStart ++ "|" ++
    toString scope.seqEnd ++ "|" ++ uuidString factorU ++ "|" ++ uuidString factorD

/-- The row that a confirmed claim leaves. -/
def confirmedProposal (scope : Scope) (factorU newD : UUID) : Proposal where
  factorU := factorU
  factorD := some newD
  dedupKey := dedupFormatKey scope factorU newD
  status := .confirmed

/-- `dedup_claim_confirm`, given whether a pending row is older than a day and the value of
`gen_random_uuid`. -/
def dedupClaimConfirm (stale : Bool) (newD : UUID) (scope : Scope) (factorU : UUID)
    (proposals : Table Scope Proposal) : ClaimResult × Table Scope Proposal :=
  let confirmed : ClaimResult := ⟨.confirmed, some newD, dedupFormatKey scope factorU newD⟩
  match proposals.get? scope with
  | none => (confirmed, proposals.insert scope (confirmedProposal scope factorU newD))
  | some row =>
    match row.status with
    | .rejected => (⟨.rejected, none, row.dedupKey⟩, proposals)
    | .confirmed =>
      if row.factorU = factorU then (⟨.alreadyConfirmed, row.factorD, row.dedupKey⟩, proposals)
      else (⟨.hashMismatch, none, row.dedupKey⟩, proposals)
    | .pending =>
      let rejected := proposals.modify scope fun row => { row with status := .rejected }
      if stale then (⟨.rejected, none, row.dedupKey⟩, rejected)
      else if row.factorU = factorU then
        (confirmed, proposals.modify scope fun _ => confirmedProposal scope factorU newD)
      else (⟨.hashMismatch, none, row.dedupKey⟩, rejected)

/-- `ShouldApply`. -/
def ClaimResult.shouldApply (claim : ClaimResult) : Bool :=
  match claim.outcome with
  | .confirmed => true
  | .alreadyConfirmed => true
  | _ => false

/-- The errors of `GuardOutcome`. -/
inductive GuardError
  | hashMismatch
  | rejected
  | proposalPending
  deriving DecidableEq, Repr

/-- `GuardOutcome`. -/
def guardOutcome (claim : ClaimResult) : Option GuardError :=
  match claim.outcome with
  | .hashMismatch => some .hashMismatch
  | .rejected => some .rejected
  | .pending => some .proposalPending
  | _ => none

/-- `RecordApply`. -/
def recordApply (dedupKey : String) (pg : Pg) : Pg :=
  if dedupKey = "" then pg
  else { pg with syncIdempotency := insert dedupKey pg.syncIdempotency }

/-- The scope is confirmed for a payload, under a key. -/
def ConfirmedAs (scope : Scope) (factorU : UUID) (key : String) (proposals : Table Scope Proposal) :
    Prop :=
  ∃ row, proposals.get? scope = some row ∧ row.status = .confirmed ∧ row.factorU = factorU ∧
    row.dedupKey = key

end Espx.Dedup
