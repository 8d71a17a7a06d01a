import Mathlib.Algebra.Ring.Int.Defs
import Mathlib.Data.Finset.Basic

/-!
# A Redis keyspace

One map for each kind of value: string keys that hold a decimal integer, string keys that hold other text,
sets, the field names of hashes, and streams as the list of entries ever appended. Type errors are not
modelled, and integers are exact. Expiry is the deletion of a key by its environment.
-/

namespace Espx.Foundation

open Function

/-- The state of one Redis server. -/
structure Redis where
  num : String → Option ℤ
  text : String → Option String
  sets : String → Finset String
  hashes : String → Finset String
  streams : String → List (List (String × String))

namespace Redis

/-- The server that holds no key. -/
def empty : Redis where
  num _ := none
  text _ := none
  sets _ := ∅
  hashes _ := ∅
  streams _ := []

variable (r : Redis) (k k' : String)

/-- The integer a script reads with `tonumber(value) or 0`. -/
def count : ℤ := (r.num k).getD 0

/-- `SET key n`. -/
def setNum (n : ℤ) : Redis := { r with num := Function.update r.num k (some n) }

/-- `DEL key` on an integer key. -/
def delNum : Redis := { r with num := Function.update r.num k none }

/-- `INCRBY key n`; a missing key counts as zero. -/
def incrBy (n : ℤ) : Redis := r.setNum k (r.count k + n)

/-- `SET key n NX`: only a missing key is written. -/
def setNX (n : ℤ) : Redis := if (r.num k).isSome then r else r.setNum k n

/-- `SET key text`. -/
def setText (value : String) : Redis := { r with text := Function.update r.text k (some value) }

/-- `DEL key` on a text key. -/
def delText : Redis := { r with text := Function.update r.text k none }

/-- `SADD key member`. -/
def sadd (member : String) : Redis :=
  { r with sets := Function.update r.sets k (insert member (r.sets k)) }

/-- `SREM key member`. -/
def srem (member : String) : Redis :=
  { r with sets := Function.update r.sets k ((r.sets k).erase member) }

/-- `XADD key * entry`. Trimming only shortens how long old entries are kept. -/
def xadd (entry : List (String × String)) : Redis :=
  { r with streams := Function.update r.streams k (r.streams k ++ [entry]) }

section

variable (n : ℤ) (value member : String) (entry : List (String × String))

/-- A written integer key reads back. -/
@[simp] theorem setNum_num_self : (r.setNum k n).num k = some n := update_self _ _ _

/-- Writing one integer key keeps the others. -/
theorem setNum_num_of_ne {k k' : String} (h : k' ≠ k) : (r.setNum k n).num k' = r.num k' :=
  update_of_ne h _ _

/-- A deleted integer key is missing. -/
@[simp] theorem delNum_num_self : (r.delNum k).num k = none := update_self _ _ _

/-- Deleting one integer key keeps the others. -/
theorem delNum_num_of_ne {k k' : String} (h : k' ≠ k) : (r.delNum k).num k' = r.num k' :=
  update_of_ne h _ _

/-- An incremented counter exists and holds the sum. -/
@[simp] theorem incrBy_num_self : (r.incrBy k n).num k = some (r.count k + n) :=
  r.setNum_num_self k _

/-- Incrementing one counter keeps the others. -/
theorem incrBy_num_of_ne {k k' : String} (h : k' ≠ k) : (r.incrBy k n).num k' = r.num k' :=
  r.setNum_num_of_ne _ h

/-- The value of an incremented counter. -/
@[simp] theorem incrBy_count_self : (r.incrBy k n).count k = r.count k + n := by
  simp [count]

/-- Incrementing one counter keeps the values of the others. -/
theorem incrBy_count_of_ne {k k' : String} (h : k' ≠ k) : (r.incrBy k n).count k' = r.count k' := by
  rw [count, incrBy_num_of_ne r n h, count]

/-- What an increment adds to any counter. -/
theorem incrBy_count : (r.incrBy k n).count k' = r.count k' + if k' = k then n else 0 := by
  by_cases h : k' = k
  · rw [if_pos h, h, incrBy_count_self]
  · rw [if_neg h, Int.add_zero, incrBy_count_of_ne r n h]

/-- A deleted counter counts as zero. -/
@[simp] theorem delNum_count_self : (r.delNum k).count k = 0 := by simp [count]

/-- Deleting one counter keeps the values of the others. -/
theorem delNum_count_of_ne {k k' : String} (h : k' ≠ k) : (r.delNum k).count k' = r.count k' := by
  rw [count, delNum_num_of_ne r h, count]

/-- A written integer key counts as what was written. -/
@[simp] theorem setNum_count_self : (r.setNum k n).count k = n := by simp [count]

/-- Writing one integer key keeps the values of the others. -/
theorem setNum_count_of_ne {k k' : String} (h : k' ≠ k) : (r.setNum k n).count k' = r.count k' := by
  rw [count, setNum_num_of_ne r n h, count]

@[simp] theorem delText_num : (r.delText k).num = r.num := rfl
@[simp] theorem xadd_num : (r.xadd k entry).num = r.num := rfl

/-- A written text key reads back. -/
@[simp] theorem setText_text_self : (r.setText k value).text k = some value :=
  update_self _ _ _

/-- A deleted text key is missing. -/
@[simp] theorem delText_text_self : (r.delText k).text k = none := update_self _ _ _

@[simp] theorem setNum_text : (r.setNum k n).text = r.text := rfl
@[simp] theorem incrBy_text : (r.incrBy k n).text = r.text := rfl

@[simp] theorem setNum_sets : (r.setNum k n).sets = r.sets := rfl
@[simp] theorem delNum_sets : (r.delNum k).sets = r.sets := rfl
@[simp] theorem delText_sets : (r.delText k).sets = r.sets := rfl

/-- The set a member was added to. -/
@[simp] theorem sadd_sets_self : (r.sadd k member).sets k = insert member (r.sets k) :=
  update_self _ _ _

/-- Adding to one set keeps the others. -/
theorem sadd_sets_of_ne {k k' : String} (h : k' ≠ k) : (r.sadd k member).sets k' = r.sets k' :=
  update_of_ne h _ _

/-- The set a member was removed from. -/
@[simp] theorem srem_sets_self : (r.srem k member).sets k = (r.sets k).erase member :=
  update_self _ _ _

@[simp] theorem setNum_streams : (r.setNum k n).streams = r.streams := rfl
@[simp] theorem incrBy_streams : (r.incrBy k n).streams = r.streams := rfl

/-- The stream that an entry was appended to. -/
theorem xadd_streams_self : (r.xadd k entry).streams k = r.streams k ++ [entry] :=
  update_self _ _ _

/-- Appending to one stream keeps the others. -/
theorem xadd_streams_of_ne {k k' : String} (h : k' ≠ k) : (r.xadd k entry).streams k' = r.streams k' :=
  update_of_ne h _ _

end

/-- Of the integer keys only some are written, and none is deleted. -/
def Writes (keys : List String) (r after : Redis) : Prop :=
  ∀ key, after.num key = r.num key ∨ key ∈ keys ∧ (after.num key).isSome

namespace Writes

variable {keys : List String} {r s : Redis} {key : String}

/-- Nothing is written. -/
theorem refl : Writes keys r r := fun _ => .inl rfl

/-- One more key of the list is written. -/
theorem setNum (h : Writes keys r s) {k : String} (hk : k ∈ keys) (n : ℤ) :
    Writes keys r (s.setNum k n) := by
  intro key
  by_cases hkey : key = k
  · rw [hkey, setNum_num_self]
    exact .inr ⟨hk, rfl⟩
  · rw [setNum_num_of_ne s n hkey]
    exact h key

/-- Other keys are kept. -/
theorem num (h : Writes keys r s) (hkey : key ∉ keys) : s.num key = r.num key :=
  (h key).resolve_right fun hset => hkey hset.1

/-- No key is lost. -/
theorem isSome (h : Writes keys r s) (hkey : (r.num key).isSome) : (s.num key).isSome := by
  rcases h key with heq | ⟨-, hset⟩
  · rw [heq]
    exact hkey
  · exact hset

end Writes

end Redis

/-- A command that a pipeline sends without looking at its reply. -/
inductive Command
  | incrBy (key : String) (n : ℤ)
  | sadd (key member : String)
  | xadd (key : String) (entry : List (String × String))

/-- How a pipeline ends: every command is executed, or an error is reported and only the first commands
are executed, possibly all of them. -/
inductive PipeOutcome
  | done
  | failed (executed : ℕ)
  deriving DecidableEq, Repr

/-- The commands that are executed. -/
def PipeOutcome.executed {α : Type*} : PipeOutcome → List α → List α
  | .done, commands => commands
  | .failed n, commands => commands.take n

/-- What a command adds to a counter. -/
def Command.adds (counter : String) : Command → ℤ
  | .incrBy key n => if counter = key then n else 0
  | _ => 0

/-- What commands add to a counter when each item has its own. -/
theorem sum_adds_flatMap {α : Type*} {counter : String} {commands : α → List Command} {weight : α → ℤ}
    {items : List α}
    (h : ∀ item ∈ items, ((commands item).map (Command.adds counter)).sum = weight item) :
    ((items.flatMap commands).map (Command.adds counter)).sum = (items.map weight).sum := by
  induction items with
  | nil => rfl
  | cons item rest ih =>
    rw [List.flatMap_cons, List.map_append, List.sum_append, h item List.mem_cons_self,
      ih fun other hother => h other (List.mem_cons_of_mem _ hother), List.map_cons, List.sum_cons]

namespace Redis

/-- Execute one command. -/
def exec (r : Redis) : Command → Redis
  | .incrBy key n => r.incrBy key n
  | .sadd key member => r.sadd key member
  | .xadd key entry => r.xadd key entry

/-- Execute commands in order. -/
def execAll (r : Redis) (commands : List Command) : Redis := commands.foldl exec r

/-- Commands behind others. -/
theorem execAll_append (r : Redis) (first second : List Command) :
    r.execAll (first ++ second) = (r.execAll first).execAll second :=
  List.foldl_append

/-- A command adds to a counter what it says. -/
theorem exec_count (r : Redis) (counter : String) (command : Command) :
    (r.exec command).count counter = r.count counter + command.adds counter := by
  cases command with
  | incrBy key n => exact r.incrBy_count key counter n
  | sadd key member | xadd key entry => exact (Int.add_zero _).symm

/-- Commands add to a counter what they say, one after the other. -/
theorem execAll_count (r : Redis) (counter : String) (commands : List Command) :
    (r.execAll commands).count counter = r.count counter + (commands.map (Command.adds counter)).sum := by
  induction commands generalizing r with
  | nil => exact (Int.add_zero _).symm
  | cons command rest ih =>
    change ((r.exec command).execAll rest).count counter = _
    rw [ih, exec_count, List.map_cons, List.sum_cons, Int.add_assoc]

end Redis

end Espx.Foundation
