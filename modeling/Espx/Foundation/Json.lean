import Mathlib.Data.Nat.Notation

/-!
# JSON texts

The grammar of JSON as types: a value of one of these types is a text, with its whitespace and with
strings and numbers as they are written. Rendering gives the bytes. A scanner is verified by saying what
it does with each rendered constructor. That a string is well-formed UTF-8 is left out.
-/

namespace Espx.Foundation.Json

open List

/-- Whitespace between tokens. -/
def isWhitespace (b : UInt8) : Bool := b = 32 ∨ b = 9 ∨ b = 10 ∨ b = 13

/-- A decimal digit. -/
def isDigit (b : UInt8) : Bool := 48 ≤ b ∧ b ≤ 57

/-- A hexadecimal digit. -/
def isHexDigit (b : UInt8) : Bool := isDigit b ∨ (65 ≤ b ∧ b ≤ 70) ∨ (97 ≤ b ∧ b ≤ 102)

/-- A byte that may stand in a number. -/
def isNumeric (b : UInt8) : Bool := isDigit b ∨ b = 46 ∨ b = 101 ∨ b = 69 ∨ b = 43 ∨ b = 45

/-- Insignificant whitespace. -/
structure Blank where
  text : List UInt8
  whitespace : ∀ b ∈ text, isWhitespace b = true

/-- A character of a string, as it is written. -/
inductive Character
  | plain (b : UInt8) (h : 32 ≤ b ∧ b ≠ 34 ∧ b ≠ 92)
  | escape (b : UInt8) (h : b ∈ [34, 92, 47, 98, 102, 110, 114, 116])
  | unicode (digits : List UInt8) (h : digits.length = 4 ∧ ∀ d ∈ digits, isHexDigit d = true)

/-- The bytes of a character. -/
def Character.render : Character → List UInt8
  | plain b _ => [b]
  | escape b _ => [92, b]
  | unicode digits _ => 92 :: 117 :: digits

/-- The bytes between the quotes. -/
def renderChars (chars : List Character) : List UInt8 := chars.flatMap Character.render

/-- A string with its quotes. -/
def renderString (chars : List Character) : List UInt8 := 34 :: renderChars chars ++ [34]

/-- One or more digits. -/
structure Digits where
  text : List UInt8
  nonempty : text ≠ []
  digits : ∀ b ∈ text, isDigit b = true

/-- The exponent of a number. -/
structure Exponent where
  marker : UInt8
  marker_eq : marker = 101 ∨ marker = 69
  sign : Option UInt8
  sign_eq : ∀ b ∈ sign, b = 43 ∨ b = 45
  digits : Digits

/-- A number. -/
structure Number where
  negative : Bool
  whole : Digits
  noLeadingZero : whole.text.head? = some 48 → whole.text.length = 1
  fraction : Option Digits
  exponent : Option Exponent

/-- The bytes of an exponent. -/
def Exponent.render (e : Exponent) : List UInt8 := e.marker :: (e.sign.toList ++ e.digits.text)

/-- The bytes of a number. -/
def Number.render (n : Number) : List UInt8 :=
  (if n.negative then [45] else []) ++ n.whole.text ++
    (n.fraction.elim [] fun digits => 46 :: digits.text) ++ n.exponent.elim [] Exponent.render

/-- A literal name. -/
inductive Word
  | true
  | false
  | null

/-- The bytes of a literal name. -/
def Word.render : Word → List UInt8
  | true => [116, 114, 117, 101]
  | false => [102, 97, 108, 115, 101]
  | null => [110, 117, 108, 108]

/-- The name of a member, up to its colon. -/
structure Name where
  before : Blank
  chars : List Character
  after : Blank

/-- The bytes of a name. -/
def Name.render (name : Name) : List UInt8 :=
  name.before.text ++ renderString name.chars ++ name.after.text

mutual

/-- A value. -/
inductive Value
  | string (chars : List Character)
  | number (n : Number)
  | word (w : Word)
  | emptyArray (pad : Blank)
  | array (items : Items)
  | emptyObject (pad : Blank)
  | object (members : Members)

/-- The items of an array. -/
inductive Items
  | last (before : Blank) (value : Value) (after : Blank)
  | cons (before : Blank) (value : Value) (after : Blank) (rest : Items)

/-- The members of an object. -/
inductive Members
  | last (name : Name) (gap : Blank) (value : Value) (after : Blank)
  | cons (name : Name) (gap : Blank) (value : Value) (after : Blank) (rest : Members)

end

mutual

/-- The bytes of a value. -/
def Value.render : Value → List UInt8
  | .string chars => renderString chars
  | .number n => n.render
  | .word w => w.render
  | .emptyArray pad => 91 :: pad.text ++ [93]
  | .array items => 91 :: items.render ++ [93]
  | .emptyObject pad => 123 :: pad.text ++ [125]
  | .object members => 123 :: members.render ++ [125]

/-- The bytes of the items of an array. -/
def Items.render : Items → List UInt8
  | .last before value after => before.text ++ value.render ++ after.text
  | .cons before value after rest => before.text ++ value.render ++ after.text ++ 44 :: rest.render

/-- The bytes of the members of an object. -/
def Members.render : Members → List UInt8
  | .last name gap value after => name.render ++ 58 :: gap.text ++ value.render ++ after.text
  | .cons name gap value after rest =>
    name.render ++ 58 :: gap.text ++ value.render ++ after.text ++ 44 :: rest.render

end

mutual

/-- How deep a value is nested. -/
def Value.depth : Value → ℕ
  | .string _ => 0
  | .number _ => 0
  | .word _ => 0
  | .emptyArray _ => 1
  | .array items => items.depth + 1
  | .emptyObject _ => 1
  | .object members => members.depth + 1

/-- How deep the items of an array are nested. -/
def Items.depth : Items → ℕ
  | .last _ value _ => value.depth
  | .cons _ value _ rest => max value.depth rest.depth

/-- How deep the members of an object are nested. -/
def Members.depth : Members → ℕ
  | .last _ _ value _ => value.depth
  | .cons _ _ value _ rest => max value.depth rest.depth

end

/-- Digits are numeric. -/
theorem isNumeric_of_isDigit {b : UInt8} (h : isDigit b = true) : isNumeric b = true := by
  simp [isNumeric, h]

/-- The first byte of a number is a digit or the sign, and all its bytes are numeric. -/
theorem Number.render_cases (n : Number) :
    ∃ first rest, n.render = first :: rest ∧ (isDigit first = true ∨ first = 45) ∧
      (∀ b ∈ rest, isNumeric b = true) := by
  obtain ⟨first, whole, hwhole⟩ := exists_cons_of_ne_nil n.whole.nonempty
  have hdigit : isDigit first = true := n.whole.digits first (hwhole ▸ mem_cons_self)
  have hrest : ∀ b ∈ whole ++ ((n.fraction.elim [] fun digits => 46 :: digits.text) ++
      n.exponent.elim [] Exponent.render), isNumeric b = true := by
    intro b hb
    rcases mem_append.mp hb with hb | hb
    · exact isNumeric_of_isDigit (n.whole.digits b (hwhole ▸ mem_cons_of_mem _ hb))
    rcases mem_append.mp hb with hb | hb
    · cases hfrac : n.fraction with
      | none => simp [hfrac] at hb
      | some digits =>
        rw [hfrac] at hb
        rcases mem_cons.mp hb with rfl | hb
        · decide
        · exact isNumeric_of_isDigit (digits.digits b hb)
    · cases hexp : n.exponent with
      | none => simp [hexp] at hb
      | some e =>
        rw [hexp] at hb
        rcases mem_cons.mp hb with rfl | hb
        · rcases e.marker_eq with h | h <;> rw [h] <;> decide
        rcases mem_append.mp hb with hb | hb
        · rcases e.sign_eq b (Option.mem_toList.mp hb) with rfl | rfl <;> decide
        · exact isNumeric_of_isDigit (e.digits.digits b hb)
  unfold render
  rw [hwhole]
  cases n.negative with
  | false =>
    refine ⟨first, _, ?_, .inl hdigit, hrest⟩
    simp
  | true =>
    refine ⟨45, first :: (whole ++ ((n.fraction.elim [] fun digits => 46 :: digits.text) ++
      n.exponent.elim [] Exponent.render)), by simp, .inr rfl, ?_⟩
    intro b hb
    rcases mem_cons.mp hb with rfl | hb
    · exact isNumeric_of_isDigit hdigit
    · exact hrest b hb

/-- A byte of a string that neither closes it nor starts an escape. -/
def Ordinary (b : UInt8) : Prop := b ≠ 34 ∧ b ≠ 92

/-- The digits of an escape are ordinary bytes. -/
theorem ordinary_of_isHexDigit {b : UInt8} (h : isHexDigit b = true) : Ordinary b := by
  constructor <;> rintro rfl <;> exact absurd h (by decide)

@[simp] theorem renderChars_nil : renderChars [] = [] := rfl

@[simp] theorem renderChars_cons (c : Character) (chars : List Character) :
    renderChars (c :: chars) = c.render ++ renderChars chars := rfl

section

variable {α : Type*} {scan : List UInt8 → List UInt8 → α} {rest : List UInt8} (hrest : rest ≠ [])
  (hstep : ∀ {b : UInt8} {rest : List UInt8}, Ordinary b → b ≠ 0 → rest ≠ [] → ∀ read,
    scan read (b :: rest) = scan (read ++ [b]) rest)
include hrest hstep

/-- A scanner that passes ordinary bytes one by one passes a text of them. -/
theorem scan_ordinary {text : List UInt8} (h : ∀ b ∈ text, Ordinary b ∧ b ≠ 0) (read : List UInt8) :
    scan read (text ++ rest) = scan (read ++ text) rest := by
  induction text generalizing read with
  | nil => rw [append_nil, nil_append]
  | cons b text ih =>
    obtain ⟨hord, hzero⟩ := h b mem_cons_self
    rw [cons_append, hstep hord hzero (append_ne_nil_of_right_ne_nil _ hrest),
      ih fun c hc => h c (mem_cons_of_mem _ hc), append_assoc, singleton_append]

/-- One that passes a backslash with the byte behind it too passes the characters of a string. -/
theorem scan_chars (hesc : ∀ (b : UInt8) {rest : List UInt8}, rest ≠ [] → ∀ read,
    scan read (92 :: b :: rest) = scan (read ++ [92, b]) rest) (chars : List Character)
    (read : List UInt8) : scan read (renderChars chars ++ rest) = scan (read ++ renderChars chars) rest := by
  induction chars generalizing read with
  | nil => rw [renderChars_nil, append_nil, nil_append]
  | cons c chars ih =>
    have hmore : renderChars chars ++ rest ≠ [] := append_ne_nil_of_right_ne_nil _ hrest
    rw [renderChars_cons, append_assoc, ← append_assoc read, ← ih]
    cases c with
    | plain b h =>
      refine hstep h.2 ?_ hmore read
      rintro rfl
      exact absurd h.1 (by decide)
    | escape b h => exact hesc b hmore read
    | unicode digits h =>
      have hdigits := scan_ordinary hmore hstep (fun d hd => ⟨ordinary_of_isHexDigit (h.2 d hd),
        by rintro rfl; exact absurd (h.2 0 hd) (by decide)⟩) (read ++ [92, 117])
      rw [append_assoc] at hdigits
      exact (hesc 117 (append_ne_nil_of_right_ne_nil _ hmore) read).trans hdigits

end

/-- A string has ordinary bytes up to its end or up to its first escape. -/
theorem renderChars_cases (chars : List Character) :
    (∀ b ∈ renderChars chars, Ordinary b) ∨
      ∃ text rest, renderChars chars = text ++ 92 :: rest ∧ ∀ b ∈ text, Ordinary b := by
  induction chars with
  | nil => exact .inl (by simp)
  | cons c chars ih =>
    cases c with
    | plain b h =>
      rcases ih with hall | ⟨text, rest, heq, htext⟩
      · exact .inl (by simpa [Character.render] using ⟨h.2, hall⟩)
      · exact .inr ⟨b :: text, rest, by simp [Character.render, heq],
          by simpa using ⟨h.2, htext⟩⟩
    | escape b h => exact .inr ⟨[], b :: renderChars chars, rfl, by simp⟩
    | unicode digits h => exact .inr ⟨[], 117 :: (digits ++ renderChars chars), rfl, by simp⟩

/-- A text that begins with no whitespace. -/
def NotBlank (rest : List UInt8) : Prop := ∀ b ∈ rest.head?, isWhitespace b = false

/-- A text is cut off where it ends, if a byte that does not belong to it follows. -/
theorem span_append {p : UInt8 → Bool} {text rest : List UInt8} (h : ∀ b ∈ text, p b = true)
    (hrest : ∀ b ∈ rest.head?, p b = false) :
    (text ++ rest).takeWhile p = text ∧ (text ++ rest).dropWhile p = rest := by
  rw [takeWhile_append_of_pos h, dropWhile_append_of_pos h]
  cases rest with
  | nil => simp
  | cons b rest => simp [hrest b rfl]

/-- What is left after whitespace. -/
theorem Blank.dropWhile_append (pad : Blank) {rest : List UInt8} (h : NotBlank rest) :
    (pad.text ++ rest).dropWhile isWhitespace = rest :=
  (span_append pad.whitespace h).2

/-- The bytes of a string value. -/
def stringText : Value → Option (List UInt8)
  | .string chars => some (renderChars chars)
  | _ => none

/-- The first byte of a value is a quote where it is a string, and no whitespace. -/
theorem Value.render_head (v : Value) :
    ∃ b text, v.render = b :: text ∧ isWhitespace b = false ∧ (b = 34 ↔ (stringText v).isSome) := by
  cases v with
  | string chars => exact ⟨34, _, rfl, by decide, by simp [stringText]⟩
  | number n =>
    obtain ⟨first, digits, heq, hfirst, -⟩ := n.render_cases
    refine ⟨first, digits, heq, ?_, ?_⟩
    · refine Bool.eq_false_iff.mpr fun hblank => ?_
      simp only [isWhitespace, decide_eq_true_eq] at hblank
      rcases hblank with rfl | rfl | rfl | rfl <;> exact absurd hfirst (by decide)
    · refine iff_of_false ?_ (by simp [stringText])
      rintro rfl
      exact absurd hfirst (by decide)
  | word w => cases w <;> exact ⟨_, _, rfl, by decide, iff_of_false (by decide) (by simp [stringText])⟩
  | emptyArray pad | array items =>
    exact ⟨91, _, rfl, by decide, iff_of_false (by decide) (by simp [stringText])⟩
  | emptyObject pad | object members =>
    exact ⟨123, _, rfl, by decide, iff_of_false (by decide) (by simp [stringText])⟩

/-- A value begins with no closing bracket. -/
theorem Value.head_ne_bracket (v : Value) : v.render.head? ≠ some 93 := by
  cases v with
  | number n =>
    obtain ⟨first, digits, heq, hfirst, -⟩ := n.render_cases
    rw [Value.render, heq, head?_cons]
    rintro h
    obtain rfl := Option.some.inj h
    exact absurd hfirst (by decide)
  | word w => cases w <;> decide
  | _ => simp [Value.render, renderString]

theorem NotBlank.cons {b : UInt8} (h : isWhitespace b = false) (rest : List UInt8) :
    NotBlank (b :: rest) := by
  rintro c hc
  obtain rfl := Option.some.inj hc
  exact h

/-- A value begins with no whitespace. -/
theorem NotBlank.value (v : Value) (rest : List UInt8) : NotBlank (v.render ++ rest) := by
  obtain ⟨b, text, hrend, hblank, -⟩ := v.render_head
  rw [hrend]
  exact .cons hblank _

/-- What holds of whitespace and of a byte holds of the first byte of a padded text. -/
theorem Blank.forall_head (pad : Blank) {p : UInt8 → Prop} (hblank : ∀ b, isWhitespace b = true → p b)
    {b : UInt8} (hb : p b) (rest : List UInt8) : ∀ c ∈ (pad.text ++ b :: rest).head?, p c := by
  intro c hc
  cases hpad : pad.text with
  | nil =>
    rw [hpad] at hc
    obtain rfl := Option.some.inj hc
    exact hb
  | cons first more =>
    rw [hpad] at hc
    obtain rfl := Option.some.inj hc
    exact hblank first (pad.whitespace first (hpad ▸ mem_cons_self))

section

variable (name : Name) (gap : Blank) (value : Value) (after : Blank)

/-- The bytes of a member. -/
theorem member_append (rest : List UInt8) :
    name.render ++ 58 :: gap.text ++ value.render ++ after.text ++ rest =
      name.before.text ++ 34 :: (renderChars name.chars ++ 34 ::
        (name.after.text ++ 58 :: (gap.text ++ (value.render ++ (after.text ++ rest))))) := by
  simp [Name.render, renderString]

theorem Members.cons_append (more : Members) (rest : List UInt8) :
    (Members.cons name gap value after more).render ++ rest =
      name.render ++ 58 :: gap.text ++ value.render ++ after.text ++ 44 :: (more.render ++ rest) := by
  simp [Members.render]

end

/-- A member of an object: the bytes of its key, and its value. -/
abbrev Entry := List UInt8 × Value

/-- The members of an object in order. -/
def entries : Members → List Entry
  | .last name _ value _ => [(renderChars name.chars, value)]
  | .cons name _ value _ rest => (renderChars name.chars, value) :: entries rest

/-- The number of members. -/
def count : Members → ℕ
  | .last .. => 1
  | .cons _ _ _ _ rest => count rest + 1

/-- Every member takes at least one byte. -/
theorem count_le (members : Members) : count members ≤ members.render.length := by
  match members with
  | .last name gap value after => simp [count, Members.render]; omega
  | .cons name gap value after rest =>
    have := count_le rest
    simp only [count, Members.render, length_append, length_cons]
    omega

/-- The members of an object; an empty one has none. -/
def objectEntries : Value → Option (List Entry)
  | .emptyObject _ => some []
  | .object members => some (entries members)
  | _ => none

end Espx.Foundation.Json
