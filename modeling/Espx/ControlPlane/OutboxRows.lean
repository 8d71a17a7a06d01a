import Espx.ControlPlane.Outbox

/-!
# The rows of the outbox

Rows are created at the end and only change their status afterwards, so the number of a row is its place.
Each statement of a worker updates the rows of a list of ids, or none of them; the batch it fetches holds
pending rows, each of them once.
-/

namespace Espx.ControlPlane

open Espx.Foundation Espx.Domain Espx.Settlement List

variable {W : Type*}

/-- The number of a row is its place in the order of creation. -/
def Numbered (rows : List ManagementRow) : Prop :=
  ∀ (i : ℕ) (row : ManagementRow), rows[i]? = some row → row.id = i

/-- The status of a row. -/
def statusAt (id : ℕ) (rows : List ManagementRow) : Option ManagementStatus :=
  rows[id]?.map ManagementRow.status

/-- The event of a row. -/
def eventAt (id : ℕ) (rows : List ManagementRow) : Option ManagementEvent :=
  rows[id]?.map ManagementRow.event

/-- The number and the event of each row, which no step changes. -/
def contents (rows : List ManagementRow) : List (ℕ × ManagementEvent) :=
  rows.map fun row => (row.id, row.event)

/-- The rows that a worker has in memory. -/
def OutboxBatch.held (batch : OutboxBatch) : List ℕ :=
  batch.events.map ManagementRow.id ++ batch.processedIDs ++ batch.revertIDs

/-- The batch of a worker that has handled its first row. -/
def OutboxBatch.handled (row : ManagementRow) (rest : List ManagementRow) (processedIDs revertIDs : List ℕ)
    (ok : Bool) : OutboxBatch :=
  if ok then ⟨rest, processedIDs ++ [row.id], revertIDs⟩
  else ⟨rest, processedIDs, revertIDs ++ [row.id]⟩

section

variable {rows rows' : List ManagementRow} {row : ManagementRow} {f : ManagementRow → ManagementRow}

/-- A row stands at its number. -/
theorem Numbered.getElem?_id (h : Numbered rows) (hrow : row ∈ rows) : rows[row.id]? = some row := by
  obtain ⟨i, hi⟩ := mem_iff_getElem?.mp hrow
  rw [h i row hi]
  exact hi

theorem Numbered.eventAt_of_mem (h : Numbered rows) (hrow : row ∈ rows) :
    eventAt row.id rows = some row.event := by
  rw [eventAt, h.getElem?_id hrow, Option.map_some]

theorem contents_getElem? (h : Numbered rows) (i : ℕ) :
    (contents rows)[i]? = (eventAt i rows).map (Prod.mk i) := by
  rw [contents, getElem?_map, eventAt, Option.map_map]
  cases hrow : rows[i]? with
  | none => rfl
  | some row => rw [Option.map_some, Option.map_some, Function.comp, h i row hrow]

theorem eventAt_congr (hsame : contents rows' = contents rows) {i : ℕ} :
    eventAt i rows' = eventAt i rows := by
  have hsnd := congrArg (fun items => (items[i]?).map Prod.snd) hsame
  simp only [contents, getElem?_map, Option.map_map] at hsnd
  exact hsnd

theorem Numbered.of_contents (h : Numbered rows) (hsame : contents rows' = contents rows) :
    Numbered rows' := by
  intro i row hrow
  have hitem : (contents rows')[i]? = some (row.id, row.event) := by
    rw [contents, getElem?_map, hrow, Option.map_some]
  rw [hsame, contents_getElem? h] at hitem
  obtain ⟨_, -, heq⟩ := Option.map_eq_some_iff.mp hitem
  exact (Prod.mk.inj heq).1.symm

theorem contents_map (hf : ∀ row, ((f row).id, (f row).event) = (row.id, row.event)) :
    contents (rows.map f) = contents rows := by
  rw [contents, map_map, contents]
  exact map_congr_left fun row _ => hf row

theorem numbered_nil : Numbered [] := by
  intro i row hrow
  cases hrow

/-- A new row takes the next number. -/
theorem Numbered.append (h : Numbered rows) (hrow : row.id = rows.length) : Numbered (rows ++ [row]) := by
  intro i found hfound
  rw [getElem?_append] at hfound
  split at hfound
  · exact h i found hfound
  rw [getElem?_singleton] at hfound
  split at hfound
  · cases hfound
    omega
  · cases hfound

/-- The numbers of numbered rows are different. -/
theorem Numbered.nodup_ids (h : Numbered rows) : (rows.map ManagementRow.id).Nodup := by
  have hids : rows.map ManagementRow.id = List.range rows.length := by
    apply List.ext_getElem?
    intro i
    rw [List.getElem?_map]
    cases hrow : rows[i]? with
    | none =>
      rw [List.getElem?_eq_none_iff] at hrow
      exact (List.getElem?_eq_none (by rw [List.length_range]; exact hrow)).symm
    | some row =>
      obtain ⟨hi, -⟩ := List.getElem?_eq_some_iff.mp hrow
      rw [List.getElem?_range hi, Option.map_some, h i row hrow]
  rw [hids]
  exact List.nodup_range

end

namespace OutboxSystem

variable {s : OutboxSystem W} {row : ManagementRow} {ids : List ℕ} {limit : ℕ}
  {f : ManagementRow → ManagementRow}

theorem contents_after_updateRows (reply : Reply)
    (hf : ∀ row, ((f row).id, (f row).event) = (row.id, row.event)) :
    contents (reply.after s.rows (s.updateRows ids f)) = contents s.rows := by
  refine Reply.after_of (P := fun rows => contents rows = contents s.rows) reply rfl ?_
  refine contents_map fun row => ?_
  split
  · exact hf row
  · rfl

section

variable (h : Numbered s.rows)
include h

/-- A statement changes the rows it names, unless the call has failed. -/
theorem getElem?_after_updateRows (reply : Reply) (i : ℕ) :
    (reply.after s.rows (s.updateRows ids f))[i]? =
      s.rows[i]?.map fun row => if reply ≠ .failed ∧ i ∈ ids then f row else row := by
  have hupd : (s.updateRows ids f)[i]? = s.rows[i]?.map fun row => if i ∈ ids then f row else row := by
    rw [updateRows, getElem?_map]
    cases hrow : s.rows[i]? with
    | none => rfl
    | some row => rw [Option.map_some, Option.map_some, h i row hrow]
  cases reply with
  | failed => simp only [Reply.after, ne_eq, not_true_eq_false, false_and, if_false, Option.map_id']
  | lost => simpa only [Reply.after, ne_eq, reduceCtorEq, not_false_eq_true, true_and] using hupd
  | received =>
    simpa only [Reply.after, ne_eq, reduceCtorEq, not_false_eq_true, true_and] using hupd

theorem statusAt_after_updateRows_of_not {reply : Reply} {i : ℕ} (hnot : ¬(reply ≠ .failed ∧ i ∈ ids)) :
    statusAt i (reply.after s.rows (s.updateRows ids f)) = statusAt i s.rows := by
  rw [statusAt, getElem?_after_updateRows h]
  simp only [if_neg hnot, Option.map_id', statusAt]

/-- The status of a row that a statement reaches. -/
theorem statusAt_after_updateRows {reply : Reply} {i : ℕ} (hreply : reply ≠ .failed) (hi : i ∈ ids) :
    statusAt i (reply.after s.rows (s.updateRows ids f)) = s.rows[i]?.map fun row => (f row).status := by
  rw [statusAt, getElem?_after_updateRows h, Option.map_map]
  congr 1
  funext row
  simp only [Function.comp, if_pos (And.intro hreply hi)]

end

/-- The rows that a worker fetches are pending rows of the table. -/
theorem mem_getPendingOutboxEventsForUpdate (hrow : row ∈ s.getPendingOutboxEventsForUpdate limit) :
    row ∈ s.rows ∧ row.status = .pending := by
  obtain hfound | hfound := mem_append.mp (mem_of_mem_take hrow)
  · rw [mem_filter, decide_eq_true_iff] at hfound
    exact ⟨hfound.1, hfound.2.1⟩
  · rw [mem_filter, decide_eq_true_iff] at hfound
    exact ⟨hfound.1, hfound.2.1⟩

/-- The rows of a batch, put in another order, are rows that the query has found. -/
theorem mem_fetched {p : ManagementRow → Bool}
    (hrow : row ∈ (s.getPendingOutboxEventsForUpdate limit).filter p ++
      (s.getPendingOutboxEventsForUpdate limit).filter fun row => !p row) :
    row ∈ s.getPendingOutboxEventsForUpdate limit := by
  obtain hrow | hrow := mem_append.mp hrow
  · exact mem_of_mem_filter hrow
  · exact mem_of_mem_filter hrow

/-- No row is fetched twice. -/
theorem getPendingOutboxEventsForUpdate_nodup (h : Numbered s.rows) :
    ((s.getPendingOutboxEventsForUpdate limit).map ManagementRow.id).Nodup := by
  have hnodup := h.nodup_ids
  rw [getPendingOutboxEventsForUpdate, map_take]
  refine List.Nodup.sublist (take_sublist _ _) ?_
  rw [map_append, nodup_append]
  refine ⟨hnodup.sublist (filter_sublist.map _), hnodup.sublist (filter_sublist.map _), ?_⟩
  intro id hurgent id' hplain heq
  obtain ⟨urgent, hu, rfl⟩ := mem_map.mp hurgent
  obtain ⟨plain, hp, rfl⟩ := mem_map.mp hplain
  rw [mem_filter, decide_eq_true_iff] at hu hp
  have hsame : some urgent = some plain := by
    rw [← h.getElem?_id hu.1, ← h.getElem?_id hp.1, heq]
  cases hsame
  omega

end OutboxSystem

end Espx.ControlPlane
