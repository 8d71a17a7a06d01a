import Espx.Ingestion.TrackJson

/-!
# The scanners of the track request parser on JSON texts

What the loops over strings and over nested values do with a rendered text. That the loop over a nested
value passes a text is closed under sequence and brackets, so that it holds of every value.
-/

namespace Espx.Ingestion

open Espx.Foundation List

section

open Json

/-- The loop over a string stops at its closing quote. -/
theorem stringLoop_chars (chars : List Character) (i : ℕ) (rest : List UInt8) :
    stringLoop i (renderChars chars ++ 34 :: rest) = i + (renderChars chars).length := by
  have hpass := @scan_chars _ (fun read => stringLoop (i + read.length)) _ (cons_ne_nil 34 rest)
    (fun {b rest} hb _ hne read => by
      cases rest with
      | nil => contradiction
      | cons c rest => simp [stringLoop, hb.1, hb.2, Nat.add_assoc])
    (fun b _ _ read => by simp [stringLoop, Nat.add_assoc]) chars []
  refine hpass.trans ?_
  cases rest <;> simp [stringLoop]

/-- A key without escapes ends at its closing quote. -/
theorem keyLoop_chars (chars : List Character) (rest : List UInt8) :
    keyLoop (renderChars chars ++ 34 :: rest) =
      if 92 ∈ renderChars chars then none else some (renderChars chars).length := by
  have hpass {text : List UInt8} (h : ∀ b ∈ text, Ordinary b) (rest : List UInt8) :
      (text ++ rest).takeWhile (· ≠ 34) = text ++ rest.takeWhile (· ≠ 34) :=
    takeWhile_append_of_pos fun b hb => decide_eq_true (h b hb).1
  simp only [keyLoop]
  rcases renderChars_cases chars with hall | ⟨text, more, heq, htext⟩
  · rw [hpass hall, takeWhile_cons_of_neg (by decide), append_nil]
  · rw [heq, append_assoc, hpass htext, cons_append,
      takeWhile_cons_of_pos (by decide), if_pos (by simp), if_pos (by simp)]

variable (depth : ℕ)

/-- A string inside a nested value is passed. -/
theorem nestedLoop_string (chars : List Character) (i : ℕ) (rest : List UInt8) :
    nestedLoop i (depth + 1) false (renderString chars ++ rest) =
      nestedLoop (i + (renderString chars).length) (depth + 1) false rest := by
  have hchars (i : ℕ) : nestedLoop i (depth + 1) true (renderChars chars ++ 34 :: rest) =
      nestedLoop (i + (renderChars chars).length + 1) (depth + 1) false rest := by
    have hpass := @scan_chars _ (fun read => nestedLoop (i + read.length) (depth + 1) true) _
      (cons_ne_nil 34 rest)
      (fun {b rest} hb _ hne read => by
        cases rest with
        | nil => contradiction
        | cons c rest => simp [nestedLoop, hb.1, hb.2, Nat.add_assoc])
      (fun b _ _ read => by simp [nestedLoop, Nat.add_assoc]) chars []
    refine hpass.trans ?_
    cases rest <;> simp [nestedLoop]
  have hopen : renderString chars ++ rest = 34 :: (renderChars chars ++ 34 :: rest) := by
    simp [renderString]
  have hlen : (renderString chars).length = (renderChars chars).length + 2 := by
    simp [renderString]
  rw [hopen, hlen]
  simp only [nestedLoop, if_true]
  rw [hchars]
  congr 1
  omega

end

section

open Json

/-- A byte that the loop over a nested value only passes. -/
def Inert (b : UInt8) : Prop := b ≠ 34 ∧ ¬ (b = 123 ∨ b = 91) ∧ ¬ (b = 125 ∨ b = 93)

variable {text : List UInt8} {b : UInt8}

/-- Inert bytes are passed one by one. -/
theorem nestedLoop_inert (h : ∀ b ∈ text, Inert b) (i depth : ℕ) (rest : List UInt8) :
    nestedLoop i (depth + 1) false (text ++ rest) =
      nestedLoop (i + text.length) (depth + 1) false rest := by
  induction text generalizing i with
  | nil => rfl
  | cons b text ih =>
    obtain ⟨hquote, hopen, hclose⟩ := h b mem_cons_self
    rw [cons_append, nestedLoop, if_neg hquote, if_neg hopen, if_neg hclose,
      ih fun c hc => h c (mem_cons_of_mem _ hc), length_cons, Nat.add_assoc, Nat.add_comm 1]

theorem inert_of_isWhitespace (h : isWhitespace b = true) : Inert b := by
  simp only [isWhitespace, decide_eq_true_eq] at h
  rcases h with rfl | rfl | rfl | rfl <;> exact ⟨by decide, by decide, by decide⟩

theorem inert_of_isNumeric (h : isNumeric b = true) : Inert b := by
  refine ⟨?_, ?_, ?_⟩
  · rintro rfl
    exact absurd h (by decide)
  · rintro (rfl | rfl) <;> exact absurd h (by decide)
  · rintro (rfl | rfl) <;> exact absurd h (by decide)

theorem inert_of_mem_word {w : Word} (h : b ∈ w.render) : Inert b := by
  have hall : w.render.all (fun b => b ≠ 34 ∧ ¬ (b = 123 ∨ b = 91) ∧ ¬ (b = 125 ∨ b = 93)) = true := by
    cases w <;> decide
  have hb := all_eq_true.mp hall b h
  rwa [decide_eq_true_iff] at hb

theorem isNumeric_of_mem_number {n : Number} (h : b ∈ n.render) : isNumeric b = true := by
  obtain ⟨first, rest, heq, hfirst, hrest⟩ := n.render_cases
  rw [heq] at h
  rcases mem_cons.mp h with rfl | hmem
  · rcases hfirst with hdigit | rfl
    · exact isNumeric_of_isDigit hdigit
    · decide
  · exact hrest b hmem

/-- The opening bracket of a nested value. -/
theorem nestedLoop_open (h : b = 123 ∨ b = 91) (i depth : ℕ) (rest : List UInt8) :
    nestedLoop i (depth + 1) false (b :: rest) =
      if depth + 2 ≤ maxJSONDepth then nestedLoop (i + 1) (depth + 2) false rest else none := by
  have hquote : b ≠ 34 := by rcases h with rfl | rfl <;> decide
  rw [nestedLoop, if_neg hquote, if_pos h]
  by_cases hdeep : maxJSONDepth < depth + 2
  · rw [if_pos hdeep, if_neg (by omega)]
  · rw [if_neg hdeep, if_pos (by omega)]

/-- The closing bracket of a nested value. -/
theorem nestedLoop_close (h : b = 125 ∨ b = 93) (i depth : ℕ) (rest : List UInt8) :
    nestedLoop i (depth + 1) false (b :: rest) = nestedLoop (i + 1) depth false rest := by
  have hquote : b ≠ 34 := by rcases h with rfl | rfl <;> decide
  have hopen : ¬ (b = 123 ∨ b = 91) := by rcases h with rfl | rfl <;> decide
  rw [nestedLoop, if_neg hquote, if_neg hopen, if_pos h]

/-- A text nested to a depth is passed where the nesting stays in bounds. -/
def Passes (text : List UInt8) (nested : ℕ) : Prop :=
  ∀ i depth rest, depth + 1 ≤ maxJSONDepth →
    nestedLoop i (depth + 1) false (text ++ rest) =
      if depth + 1 + nested ≤ maxJSONDepth then nestedLoop (i + text.length) (depth + 1) false rest
      else none

theorem Passes.inert (h : ∀ b ∈ text, Inert b) : Passes text 0 := by
  intro i depth rest hdepth
  rw [nestedLoop_inert h, if_pos hdepth]

theorem Passes.blank (pad : Blank) : Passes pad.text 0 :=
  .inert fun b hb => inert_of_isWhitespace (pad.whitespace b hb)

theorem Passes.string (chars : List Character) : Passes (renderString chars) 0 := by
  intro i depth rest hdepth
  rw [nestedLoop_string, if_pos hdepth]

/-- One text after another is passed. -/
theorem Passes.append {first second : List UInt8} {j k : ℕ} (hfirst : Passes first j)
    (hsnd : Passes second k) : Passes (first ++ second) (max j k) := by
  intro i depth rest hdepth
  rw [append_assoc, hfirst i depth _ hdepth, hsnd _ depth _ hdepth, length_append, ← Nat.add_assoc]
  by_cases hj : depth + 1 + j ≤ maxJSONDepth
  · by_cases hk : depth + 1 + k ≤ maxJSONDepth
    · rw [if_pos hj, if_pos hk, if_pos (by omega)]
    · rw [if_pos hj, if_neg hk, if_neg (by omega)]
  · rw [if_neg hj, if_neg (by omega)]

/-- A text in brackets is passed. -/
theorem Passes.nested {first last : UInt8} {k : ℕ} (hfirst : first = 123 ∨ first = 91)
    (hlast : last = 125 ∨ last = 93) (h : Passes text k) : Passes (first :: text ++ [last]) (k + 1) := by
  intro i depth rest hdepth
  have hshape : first :: text ++ [last] ++ rest = first :: (text ++ last :: rest) := by simp
  have hlen : (first :: text ++ [last]).length = text.length + 2 := by simp
  rw [hshape, hlen, nestedLoop_open hfirst]
  by_cases hroom : depth + 2 ≤ maxJSONDepth
  · rw [if_pos hroom, h (i + 1) (depth + 1) _ hroom, nestedLoop_close hlast]
    by_cases hk : depth + 2 + k ≤ maxJSONDepth
    · rw [if_pos hk, if_pos (by omega)]
      congr 1
      omega
    · rw [if_neg hk, if_neg (by omega)]
  · rw [if_neg hroom, if_neg (by omega)]

theorem Passes.name (name : Name) : Passes name.render 0 :=
  ((Passes.blank _).append (.string _)).append (.blank _)

theorem Passes.gap (gap : Blank) : Passes (58 :: gap.text) 0 :=
  Passes.append (.inert (by simp [Inert]) : Passes [58] 0) (.blank gap)

theorem Passes.comma {k : ℕ} (h : Passes text k) : Passes (44 :: text) k := by
  have hcomma : Passes [44] 0 := .inert (by simp [Inert])
  have := hcomma.append h
  rwa [Nat.zero_max] at this

mutual

/-- Values are passed. -/
theorem Passes.value : (v : Value) → Passes v.render v.depth
  | .string chars => .string chars
  | .number _ => .inert fun _ hb => inert_of_isNumeric (isNumeric_of_mem_number hb)
  | .word _ => .inert fun _ hb => inert_of_mem_word hb
  | .emptyArray pad => .nested (.inr rfl) (.inr rfl) (.blank pad)
  | .array items => .nested (.inr rfl) (.inr rfl) (.items items)
  | .emptyObject pad => .nested (.inl rfl) (.inl rfl) (.blank pad)
  | .object members => .nested (.inl rfl) (.inl rfl) (.members members)

/-- Items are passed. -/
theorem Passes.items : (items : Items) → Passes items.render items.depth
  | .last before value after => by
    have h := ((Passes.blank before).append (.value value)).append (.blank after)
    rwa [Nat.zero_max, Nat.max_zero] at h
  | .cons before value after rest => by
    have h := (((Passes.blank before).append (.value value)).append (.blank after)).append
      (Passes.comma (.items rest))
    rwa [Nat.zero_max, Nat.max_zero] at h

/-- Members are passed. -/
theorem Passes.members : (members : Members) → Passes members.render members.depth
  | .last name gap value after => by
    have h := (((Passes.name name).append (.gap gap)).append (.value value)).append (.blank after)
    rwa [Nat.zero_max, Nat.zero_max, Nat.max_zero] at h
  | .cons name gap value after rest => by
    have h := ((((Passes.name name).append (.gap gap)).append (.value value)).append
      (.blank after)).append (Passes.comma (.members rest))
    rwa [Nat.zero_max, Nat.zero_max, Nat.max_zero] at h

end

/-- The rest of a buffer after a value. -/
def Delimited (rest : List UInt8) : Prop := ∀ b ∈ rest.head?, isDelimiter b = true

variable {ε : Type} {fault : ε} {data rest : List UInt8} {i : ℕ}

/-- A string in the buffer is skipped. -/
theorem stringLoop_of_drop {chars : List Character} (h : data.drop i = renderString chars ++ rest) :
    stringLoop (i + 1) (data.drop (i + 1)) = i + 1 + (renderChars chars).length ∧
      i + (renderString chars).length ≤ data.length := by
  have hshape : data.drop i = [34] ++ (renderChars chars ++ 34 :: rest) := by
    rw [h]
    simp [renderString]
  have hlen := congrArg List.length h
  rw [length_drop, length_append] at hlen
  have hone : (renderString chars).length = (renderChars chars).length + 2 := by simp [renderString]
  refine ⟨?_, by omega⟩
  rw [show i + 1 = i + [(34 : UInt8)].length from rfl, Scan.drop_add hshape]
  exact stringLoop_chars chars _ rest

/-- The scalars that are not strings are skipped up to a delimiter. -/
theorem skipJSONValue_plain {text : List UInt8} (h : data.drop i = text ++ rest)
    (hrest : Delimited rest) (hne : text ≠ []) (hplain : ∀ b ∈ text, Inert b ∧ isDelimiter b = false) :
    skipJSONValue fault data i = .ok (i + text.length) := by
  obtain ⟨b, text, rfl⟩ := exists_cons_of_ne_nil hne
  obtain ⟨⟨hquote, hopen, -⟩, -⟩ := hplain b mem_cons_self
  have hlt := Scan.lt_length_of_drop h
  rw [skipJSONValue, if_neg (by omega), Scan.index_of_drop h, Scan.ok_bind, if_neg hquote,
    if_neg hopen, h, (span_append (fun c hc => by simp [hplain c hc])
      fun c hc => by simp [hrest c hc]).1]

/-- A value in brackets is skipped where the nesting stays in bounds. -/
theorem skipJSONValue_nested {text : List UInt8} {first last : UInt8} {k : ℕ}
    (h : data.drop i = first :: text ++ [last] ++ rest) (hfirst : first = 123 ∨ first = 91)
    (hlast : last = 125 ∨ last = 93) (htext : Passes text k) :
    skipJSONValue fault data i =
      if k + 1 ≤ maxJSONDepth then .ok (i + (first :: text ++ [last]).length) else .error fault := by
  have hshape : data.drop i = [first] ++ (text ++ last :: rest) := by
    rw [h]
    simp
  have hlt := Scan.lt_length_of_drop hshape
  have hquote : first ≠ 34 := by rcases hfirst with rfl | rfl <;> decide
  have hnext : data.drop (i + 1) = text ++ last :: rest := Scan.drop_add hshape
  have hlen : (first :: text ++ [last]).length = text.length + 2 := by simp
  rw [skipJSONValue, if_neg (by omega), Scan.index_of_drop hshape, Scan.ok_bind, if_neg hquote,
    if_pos hfirst, hnext, htext (i + 1) 0 _ (by decide), hlen]
  by_cases hk : k + 1 ≤ maxJSONDepth
  · rw [if_pos (by omega), if_pos hk, nestedLoop_close hlast, nestedLoop]
    dsimp only
    congr 1
    omega
  · rw [if_neg (by omega), if_neg hk]

theorem not_isDelimiter_of_isNumeric {b : UInt8} (h : isNumeric b = true) : isDelimiter b = false := by
  refine Bool.eq_false_iff.mpr fun hdelim => ?_
  simp only [isDelimiter, isWhitespace, decide_eq_true_eq] at hdelim
  rcases hdelim with rfl | rfl | rfl | rfl | rfl | rfl | rfl <;> exact absurd h (by decide)

/-- `skipJSONValue` skips a value that is nested at most sixteen deep. -/
theorem skipJSONValue_value (v : Value) (h : data.drop i = v.render ++ rest) (hrest : Delimited rest) :
    skipJSONValue fault data i =
      if v.depth ≤ maxJSONDepth then .ok (i + v.render.length) else .error fault := by
  cases v with
  | string chars =>
    obtain ⟨hloop, hle⟩ := stringLoop_of_drop h
    have hshape : data.drop i = 34 :: (renderChars chars ++ [34] ++ rest) := h
    have hone : (renderString chars).length = (renderChars chars).length + 2 := by simp [renderString]
    have hlen : (Value.string chars).render.length = (renderString chars).length := rfl
    rw [skipJSONValue, if_neg (by omega), Scan.index_of_drop hshape, Scan.ok_bind, if_pos rfl, hloop]
    rw [if_neg (by omega), if_pos (show (Value.string chars).depth ≤ _ from Nat.zero_le _), hlen, hone]
    congr 1
    omega
  | number n =>
    obtain ⟨first, digits, heq, -, -⟩ := n.render_cases
    rw [if_pos (show (Value.number n).depth ≤ _ from Nat.zero_le _)]
    refine skipJSONValue_plain h hrest (by simp [Value.render, heq]) fun b hb => ?_
    have hnum := isNumeric_of_mem_number hb
    exact ⟨inert_of_isNumeric hnum, not_isDelimiter_of_isNumeric hnum⟩
  | word w =>
    rw [if_pos (show (Value.word w).depth ≤ _ from Nat.zero_le _)]
    have hplain : w.render.all (isDelimiter · = false) = true := by cases w <;> decide
    exact skipJSONValue_plain h hrest (by cases w <;> decide) fun b hb =>
      ⟨inert_of_mem_word hb, of_decide_eq_true (all_eq_true.mp hplain b hb)⟩
  | emptyArray pad => exact skipJSONValue_nested h (.inr rfl) (.inr rfl) (.blank pad)
  | array items => exact skipJSONValue_nested h (.inr rfl) (.inr rfl) (.items items)
  | emptyObject pad => exact skipJSONValue_nested h (.inl rfl) (.inl rfl) (.blank pad)
  | object members => exact skipJSONValue_nested h (.inl rfl) (.inl rfl) (.members members)

end

end Espx.Ingestion
