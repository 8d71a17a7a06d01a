import Espx.Ingestion.Http1

/-!
# Exact decoding of chunked bodies

What a chunked body is, in exact numbers: a walk over chunks, then a size line of value zero and a trailer
section. `parseHTTP1ChunkedBody` decodes exactly these, as long as no sum that it forms leaves the range
of an `int`. Too large a size can be taken for a small or for a negative one.
-/

namespace Espx.Ingestion

open Espx.Foundation SizeLine Scan List

section

/-- A decimal digit. -/
def isDecimal (b : UInt8) : Bool := 48 ≤ b ∧ b ≤ 57

/-- A hexadecimal digit. -/
def isHex (b : UInt8) : Bool := isDecimal b ∨ (97 ≤ b ∧ b ≤ 102) ∨ (65 ≤ b ∧ b ≤ 70)

/-- The value of a hexadecimal digit. -/
def hexDigit (b : UInt8) : ℕ :=
  if isDecimal b then (b - 48).toNat
  else if 97 ≤ b ∧ b ≤ 102 then (b - 97 + 10).toNat
  else (b - 65 + 10).toNat

/-- The value of hexadecimal digits. -/
def hexValue (digits : List UInt8) : ℕ :=
  digits.foldl (fun value b => value * 16 + hexDigit b) 0

/-- What a size line says before its extension, without blanks. -/
def lineDigits (line : List UInt8) : List UInt8 :=
  (line.takeWhile (· ≠ 59)).filter fun b => b ≠ 32 ∧ b ≠ 9

/-- The digits of the size line that the bytes start with, and its length with its end. -/
def sizeLine (rest : List UInt8) : Option (List UInt8 × ℕ) :=
  let line := rest.takeWhile (· ≠ cr)
  if lineDigits line ≠ [] ∧ (lineDigits line).all isHex ∧ (rest.drop line.length).take 2 = [cr, lf] then
    some (lineDigits line, line.length + 2)
  else none

/-- The overflow that is noticed: after a decimal digit the 64 bits of the value are those of a
negative number. -/
def Caught (digits : List UInt8) : Prop :=
  ∃ front b, front ++ [b] <+: digits ∧ isDecimal b ∧ 2 ^ 63 ≤ hexValue (front ++ [b]) % 2 ^ 64

theorem hexValue_concat (digits : List UInt8) (b : UInt8) :
    hexValue (digits ++ [b]) = hexValue digits * 16 + hexDigit b := by
  rw [hexValue, foldl_append]
  rfl

/-- The overflow of one more digit. -/
theorem caught_concat (digits : List UInt8) (b : UInt8) :
    Caught (digits ++ [b]) ↔
      Caught digits ∨ isDecimal b ∧ 2 ^ 63 ≤ hexValue (digits ++ [b]) % 2 ^ 64 := by
  constructor
  · rintro ⟨front, c, hpre, hdec, hval⟩
    rcases prefix_concat_iff.mp hpre with heq | hshort
    · obtain ⟨rfl, hlast⟩ := append_inj' heq rfl
      obtain ⟨rfl, -⟩ := List.cons.inj hlast
      exact .inr ⟨hdec, hval⟩
    · exact .inl ⟨front, c, hshort, hdec, hval⟩
  · rintro (⟨front, c, hpre, hdec, hval⟩ | ⟨hdec, hval⟩)
    · exact ⟨front, c, hpre.trans (prefix_append _ _), hdec, hval⟩
    · exact ⟨digits, b, prefix_refl _, hdec, hval⟩

theorem not_caught_nil : ¬ Caught [] := by
  rintro ⟨front, b, hpre, -, -⟩
  simpa using prefix_nil.mp hpre

theorem goInt_mul_add (x d : ℤ) : goInt (goInt x * 16 + d) = goInt (x * 16 + d) := by
  obtain ⟨⟨turns, hturns⟩, hmin, hmax⟩ := goInt_spec x
  obtain ⟨⟨turns', hturns'⟩, hmin', hmax'⟩ := goInt_spec (goInt x * 16 + d)
  obtain ⟨⟨turns'', hturns''⟩, hmin'', hmax''⟩ := goInt_spec (x * 16 + d)
  omega

theorem goInt_neg_iff (n : ℕ) : goInt n < 0 ↔ 2 ^ 63 ≤ n % 2 ^ 64 := by
  obtain ⟨⟨turns, hturns⟩, hmin, hmax⟩ := goInt_spec n
  omega

theorem goInt_natCast {n : ℕ} (h : n < 2 ^ 63) : goInt n = n := goInt_of_range (by omega) (by omega)

/-- The variables of `parseChunkSizeLine` after some digits. -/
def SizeLine.of (digits : List UInt8) (place : SizePlace) : SizeLine :=
  ⟨goInt (hexValue digits), digits ≠ [], place⟩

@[simp] theorem SizeLine.place_of (digits : List UInt8) (place : SizePlace) :
    (of digits place).place = place := rfl

@[simp] theorem SizeLine.size_of (digits : List UInt8) (place : SizePlace) :
    (of digits place).size = goInt (hexValue digits) := by
  simp only [of]

theorem SizeLine.of_place (digits : List UInt8) (place place' : SizePlace) :
    { of digits place with place := place' } = of digits place' := by
  simp only [of]

theorem SizeLine.addDigit_of {digits : List UInt8} {b d : UInt8} (h : hexDigit b = d.toNat) :
    (of digits .digits).addDigit d = .of (digits ++ [b]) .digits := by
  unfold addDigit of
  rw [goInt_mul_add, hexValue_concat, h]
  simp

/-- What a byte before the extension does. -/
theorem chunkSizeStep_digits (digits : List UInt8) (b : UInt8) (hfree : ¬ Caught digits) :
    (b = cr ∧ chunkSizeStep (.of digits .digits) b = .next (.of digits .lineEnd)) ∨
    (b = 59 ∧ chunkSizeStep (.of digits .digits) b = .next (.of digits .extension)) ∨
    (isHex b ∧ ¬ Caught (digits ++ [b]) ∧
      chunkSizeStep (.of digits .digits) b = .next (.of (digits ++ [b]) .digits)) ∨
    ((b = 32 ∨ b = 9) ∧ chunkSizeStep (.of digits .digits) b = .next (.of digits .digits)) ∨
    chunkSizeStep (.of digits .digits) b = .fail .invalidRequest := by
  unfold chunkSizeStep
  rw [place_of, if_neg (by simp), of_place, of_place]
  split
  · rename_i hcr
    exact .inl ⟨hcr, rfl⟩
  split
  · rename_i hext
    exact .inr (.inl ⟨by simpa using hext, rfl⟩)
  split
  · rename_i hdec
    have hdigit : isDecimal b = true := by simpa [isDecimal] using hdec
    rw [addDigit_of (show hexDigit b = (b - 48).toNat by rw [hexDigit, if_pos hdigit])]
    split
    · exact .inr (.inr (.inr (.inr rfl)))
    rename_i hsize
    refine .inr (.inr (.inl ⟨by simp [isHex, hdigit], ?_, rfl⟩))
    rw [caught_concat]
    rintro (hgot | ⟨-, hlarge⟩)
    · exact hfree hgot
    · rw [← goInt_neg_iff] at hlarge
      exact hsize (by rwa [size_of])
  rename_i hdec
  have hnot : ¬ isDecimal b = true := by simpa [isDecimal] using hdec
  have hsame : Caught (digits ++ [b]) → False := by
    rw [caught_concat]
    rintro (hgot | ⟨hdecimal, -⟩)
    · exact hfree hgot
    · exact hnot hdecimal
  split
  · rename_i hlower
    refine .inr (.inr (.inl ⟨by simp [isHex, hlower], hsame, ?_⟩))
    rw [addDigit_of (by rw [hexDigit, if_neg hnot, if_pos hlower])]
  split
  · rename_i hlower hupper
    refine .inr (.inr (.inl ⟨by simp [isHex, hupper], hsame, ?_⟩))
    rw [addDigit_of (by rw [hexDigit, if_neg hnot, if_neg hlower])]
  split
  · rename_i hblank
    exact .inr (.inr (.inr (.inl ⟨hblank, rfl⟩)))
  · exact .inr (.inr (.inr (.inr rfl)))

variable {digits rest : List UInt8} {next size : ℤ}

/-- After the carriage return comes the line feed. -/
theorem feed_lineEnd {i : ℕ} (h : feed chunkSizeStep (.of digits .lineEnd) i rest = .ok (next, size)) :
    ∃ behind, rest = lf :: behind ∧ digits ≠ [] ∧ size = goInt (hexValue digits) ∧ next = i + 1 := by
  cases rest with
  | nil => cases h
  | cons b rest =>
    rw [feed, chunkSizeStep, place_of, if_pos rfl] at h
    by_cases hlf : b = lf
    · rw [if_neg (by simp [hlf])] at h
      by_cases hdig : digits = []
      · rw [if_pos (by simp [of, hdig])] at h
        cases h
      rw [if_neg (by simp [of, hdig])] at h
      obtain ⟨hnext, hsize⟩ := Prod.mk.inj (Scan.ok.inj h)
      rw [size_of] at hsize
      refine ⟨rest, by rw [hlf], hdig, hsize.symm, ?_⟩
      rw [← hnext]
      rfl
    · rw [if_pos hlf] at h
      cases h

/-- An extension ends with the line. -/
theorem feed_extension {i : ℕ}
    (h : feed chunkSizeStep (.of digits .extension) i rest = .ok (next, size)) :
    ∃ line behind, rest = line ++ cr :: lf :: behind ∧ cr ∉ line ∧ digits ≠ [] ∧
      size = goInt (hexValue digits) ∧ next = i + line.length + 2 := by
  induction rest generalizing i with
  | nil => cases h
  | cons b rest ih =>
    rw [feed, chunkSizeStep, place_of, if_neg (by simp), of_place, of_place] at h
    by_cases hcr : b = cr
    · rw [if_pos hcr] at h
      obtain ⟨behind, rfl, hdig, hsize, hnext⟩ := feed_lineEnd h
      refine ⟨[], behind, by rw [hcr, nil_append], not_mem_nil, hdig, hsize, ?_⟩
      rw [hnext, length_nil]
      omega
    · rw [if_neg hcr, if_pos (.inl rfl)] at h
      obtain ⟨line, behind, rfl, hline, hdig, hsize, hnext⟩ := ih h
      refine ⟨b :: line, behind, rfl, ?_, hdig, hsize, ?_⟩
      · rw [mem_cons, not_or]
        exact ⟨Ne.symm hcr, hline⟩
      · rw [hnext, length_cons]
        omega

theorem lineDigits_extension (line : List UInt8) : lineDigits (59 :: line) = [] := rfl

theorem lineDigits_blank {b : UInt8} (h : b = 32 ∨ b = 9) (line : List UInt8) :
    lineDigits (b :: line) = lineDigits line := by
  rcases h with rfl | rfl <;> rfl

theorem isHex_ne {b : UInt8} (h : isHex b) : b ≠ cr ∧ b ≠ 59 ∧ b ≠ 32 ∧ b ≠ 9 := by
  refine ⟨?_, ?_, ?_, ?_⟩
  all_goals
    rintro rfl
    revert h
    decide

theorem lineDigits_hex {b : UInt8} (h : isHex b) (line : List UInt8) :
    lineDigits (b :: line) = b :: lineDigits line := by
  obtain ⟨-, hsemicolon, hspace, htab⟩ := isHex_ne h
  unfold lineDigits
  rw [takeWhile_cons_of_pos (by simpa using hsemicolon), filter_cons_of_pos (by simp [hspace, htab])]

/-- A size line that is read to its end. -/
theorem feed_digits (hfree : ¬ Caught digits) {i : ℕ}
    (h : feed chunkSizeStep (.of digits .digits) i rest = .ok (next, size)) :
    ∃ line behind, rest = line ++ cr :: lf :: behind ∧ cr ∉ line ∧ (lineDigits line).all isHex ∧
      ¬ Caught (digits ++ lineDigits line) ∧ digits ++ lineDigits line ≠ [] ∧
      size = goInt (hexValue (digits ++ lineDigits line)) ∧ next = i + line.length + 2 := by
  induction rest generalizing digits i with
  | nil => cases h
  | cons b rest ih =>
    rw [feed] at h
    rcases chunkSizeStep_digits digits b hfree with
      ⟨rfl, hstep⟩ | ⟨rfl, hstep⟩ | ⟨hhex, hfree', hstep⟩ | ⟨hblank, hstep⟩ | hstep
    · rw [hstep] at h
      obtain ⟨behind, rfl, hdig, hsize, hnext⟩ := feed_lineEnd h
      refine ⟨[], behind, rfl, not_mem_nil, rfl, ?_⟩
      rw [show lineDigits [] = [] from rfl, append_nil]
      refine ⟨hfree, hdig, hsize, ?_⟩
      rw [hnext, length_nil]
      omega
    · rw [hstep] at h
      obtain ⟨line, behind, rfl, hline, hdig, hsize, hnext⟩ := feed_extension h
      refine ⟨59 :: line, behind, rfl, ?_, rfl, ?_⟩
      · rw [mem_cons, not_or]
        exact ⟨by decide, hline⟩
      · rw [lineDigits_extension, append_nil]
        refine ⟨hfree, hdig, hsize, ?_⟩
        rw [hnext, length_cons]
        omega
    · rw [hstep] at h
      obtain ⟨line, behind, rfl, hline, hall, hgot, hdig, hsize, hnext⟩ := ih hfree' h
      refine ⟨b :: line, behind, rfl, ?_, ?_, ?_⟩
      · rw [mem_cons, not_or]
        exact ⟨Ne.symm (isHex_ne hhex).1, hline⟩
      · rw [lineDigits_hex hhex, all_cons, hhex, hall, Bool.and_self]
      · rw [lineDigits_hex hhex, append_cons]
        refine ⟨hgot, hdig, hsize, ?_⟩
        rw [hnext, length_cons]
        omega
    · rw [hstep] at h
      obtain ⟨line, behind, rfl, hline, hall, hgot, hdig, hsize, hnext⟩ := ih hfree h
      have hcr : cr ≠ b := by
        rintro rfl
        revert hblank
        decide
      refine ⟨b :: line, behind, rfl, ?_, ?_, ?_⟩
      · rw [mem_cons, not_or]
        exact ⟨hcr, hline⟩
      · rw [lineDigits_blank hblank]
        exact hall
      · rw [lineDigits_blank hblank]
        refine ⟨hgot, hdig, hsize, ?_⟩
        rw [hnext, length_cons]
        omega
    · rw [hstep] at h
      cases h

/-- What `parseChunkSizeLine` returns is a size line, with its value as an `int`. -/
theorem sizeLine_of_parse {data : List UInt8} {p : ℕ} (h : parseChunkSizeLine data p = .ok (next, size)) :
    ∃ digits n, sizeLine (data.drop p) = some (digits, n) ∧ ¬ Caught digits ∧
      size = goInt (hexValue digits) ∧ next = ((p + n : ℕ) : ℤ) := by
  have hstart : (⟨0, false, .digits⟩ : SizeLine) = .of [] .digits := by
    rfl
  unfold parseChunkSizeLine at h
  obtain ⟨line, behind, hrest, hline, hall, hgot, hdig, hsize, hnext⟩ :=
    feed_digits not_caught_nil (feed_of_feedFrom h)
  refine ⟨lineDigits line, line.length + 2, ?_, hgot, hsize, by omega⟩
  have htake : (data.drop p).takeWhile (· ≠ cr) = line := by
    rw [hrest, takeWhile_append_of_pos, takeWhile_cons_of_neg (by simp), append_nil]
    intro b hb
    simp only [ne_eq, decide_eq_true_eq]
    rintro rfl
    exact hline hb
  have hend : ((data.drop p).drop line.length).take 2 = [cr, lf] := by
    rw [hrest, drop_left]
    rfl
  simp only [sizeLine, htake]
  rw [if_pos ⟨hdig, hall, hend⟩]

end

section

/-- The bytes start with a trailer section of a length: lines without zero bytes, and an empty one. -/
inductive TrailerSection : List UInt8 → ℕ → Prop
  | empty (behind : List UInt8) : TrailerSection (cr :: lf :: behind) 2
  | line {line behind : List UInt8} {n : ℕ} (hne : line ≠ []) (hline : ∀ b ∈ line, b ≠ cr ∧ b ≠ 0)
      (hrest : TrailerSection behind n) :
      TrailerSection (line ++ cr :: lf :: behind) (line.length + 2 + n)

/-- What is left of a trailer section at a place of `skipHTTP1ChunkTrailers`. -/
def TrailersFrom (place : TrailerPlace) (rest : List UInt8) (n : ℕ) : Prop :=
  match place with
  | .start => TrailerSection rest n
  | .inside => ∃ line behind m, (∀ b ∈ line, b ≠ cr ∧ b ≠ 0) ∧ TrailerSection behind m ∧
      rest = line ++ cr :: lf :: behind ∧ n = line.length + 2 + m
  | .lineEnd true => ∃ behind, rest = lf :: behind ∧ n = 1
  | .lineEnd false => ∃ behind m, TrailerSection behind m ∧ rest = lf :: behind ∧ n = 1 + m

/-- What a byte of a trailer line does. -/
theorem trailerTextStep_cases (empty : Bool) (b : UInt8) :
    (b = cr ∧ trailerTextStep empty b = .next (.lineEnd empty)) ∨
    ((b ≠ cr ∧ b ≠ 0) ∧ trailerTextStep empty b = .next .inside) ∨
    trailerTextStep empty b = .fail .invalidRequest := by
  unfold trailerTextStep
  split
  · rename_i hcr
    exact .inl ⟨hcr, rfl⟩
  split
  · exact .inr (.inr rfl)
  · rename_i hcr hzero
    exact .inr (.inl ⟨⟨hcr, hzero⟩, rfl⟩)

/-- What `skipHTTP1ChunkTrailers` skips is a trailer section. -/
theorem trailersFrom_of_feed {place : TrailerPlace} {rest : List UInt8} {i : ℕ} {next : ℤ}
    (h : feed chunkTrailersStep place i rest = .ok (next, ())) :
    ∃ n, TrailersFrom place rest n ∧ next = i + n := by
  induction rest generalizing place i with
  | nil => cases h
  | cons b rest ih =>
    rw [feed] at h
    cases place with
    | start =>
      rw [chunkTrailersStep] at h
      rcases trailerTextStep_cases true b with ⟨rfl, hstep⟩ | ⟨hb, hstep⟩ | hstep
      · obtain ⟨n, ⟨behind, rfl, rfl⟩, hnext⟩ := ih h
        exact ⟨2, .empty behind, by omega⟩
      · rw [hstep] at h
        obtain ⟨n, ⟨line, behind, m, hline, hrest, rfl, rfl⟩, hnext⟩ := ih h
        have hall : ∀ c ∈ b :: line, c ≠ cr ∧ c ≠ 0 := forall_mem_cons.mpr ⟨hb, hline⟩
        refine ⟨(b :: line).length + 2 + m, .line (cons_ne_nil _ _) hall hrest, ?_⟩
        rw [length_cons]
        omega
      · rw [hstep] at h
        cases h
    | inside =>
      rw [chunkTrailersStep] at h
      rcases trailerTextStep_cases false b with ⟨rfl, hstep⟩ | ⟨hb, hstep⟩ | hstep
      · obtain ⟨n, ⟨behind, m, hrest, rfl, rfl⟩, hnext⟩ := ih h
        exact ⟨2 + m, ⟨[], behind, m, by simp, hrest, rfl, by simp⟩, by omega⟩
      · rw [hstep] at h
        obtain ⟨n, ⟨line, behind, m, hline, hrest, rfl, rfl⟩, hnext⟩ := ih h
        have hall : ∀ c ∈ b :: line, c ≠ cr ∧ c ≠ 0 := forall_mem_cons.mpr ⟨hb, hline⟩
        refine ⟨_, ⟨b :: line, behind, m, hall, hrest, rfl, rfl⟩, ?_⟩
        rw [length_cons]
        omega
      · rw [hstep] at h
        cases h
    | lineEnd empty =>
      by_cases hlf : b = lf
      · cases empty with
        | true =>
          rw [chunkTrailersStep, if_neg (by simp [hlf])] at h
          obtain ⟨hnext, -⟩ := Prod.mk.inj (Scan.ok.inj h)
          exact ⟨1, ⟨rest, by rw [hlf], rfl⟩, by omega⟩
        | false =>
          rw [chunkTrailersStep, if_neg (by simp [hlf])] at h
          obtain ⟨n, hsec, hnext⟩ := ih h
          exact ⟨1 + n, ⟨rest, n, hsec, by rw [hlf], rfl⟩, by omega⟩
      · cases empty with
        | true | false =>
          rw [chunkTrailersStep, if_pos hlf] at h
          cases h

theorem TrailerSection.bounds {rest : List UInt8} {n : ℕ} (h : TrailerSection rest n) :
    2 ≤ n ∧ n ≤ rest.length := by
  induction h with
  | empty behind => simp
  | line hne hline hrest ih =>
    simp only [length_append, length_cons]
    omega

variable (data : List UInt8)

/-- At a position stands a size line of a value, up to another position. -/
def SizeLineAt (p q v : ℕ) : Prop :=
  ∃ digits n, sizeLine (data.drop p) = some (digits, n) ∧ q = p + n ∧ v = hexValue digits

variable (lineAt : ℕ → ℕ → ℕ → Prop)

/-- From one position to another stand chunks, each with its size line in front and a line end
behind. -/
inductive Walk : ℕ → ℕ → List (List UInt8) → Prop
  | nil (p : ℕ) : Walk p p []
  | cons {p q r : ℕ} {chunk behind : List UInt8} {chunks : List (List UInt8)} (hne : chunk ≠ [])
      (hline : lineAt p q chunk.length) (hdata : data.drop q = chunk ++ cr :: lf :: behind)
      (hrest : Walk (q + chunk.length + 2) r chunks) : Walk p r (chunk :: chunks)

/-- A chunked body stands at a position: chunks, a size line of value zero and a trailer section. -/
def ChunkedAt (p : ℕ) (body : List UInt8) (consumed : ℤ) : Prop :=
  ∃ chunks last q n, Walk data (SizeLineAt data) p last chunks ∧ SizeLineAt data last q 0 ∧
    TrailerSection (data.drop q) n ∧ body = chunks.flatten ∧ consumed = q + n

/-- The chunked body at a position was decoded exactly. -/
structure Decoded (off : ℕ) (maxBody : ℤ) (out : ChunkedBody) : Prop where
  chunked : ChunkedAt data off out.body out.consumed
  length : out.contentLen = out.body.length
  bounded : out.contentLen ≤ maxBody

/-- The limit is not negative, and at every size line that the chunks before it lead to, unless its
overflow is noticed, the sums that the code forms are in the range of an `int`: the length of the body,
and, where that is within the limit, the position behind the chunk. -/
structure PlainSizes (off : ℕ) (maxBody : ℤ) : Prop where
  nonneg : 0 ≤ maxBody
  plain : ∀ {p chunks digits n}, Walk data (SizeLineAt data) off p chunks →
    (chunks.flatten.length : ℤ) ≤ maxBody → sizeLine (data.drop p) = some (digits, n) →
      Caught digits ∨ chunks.flatten.length + hexValue digits < 2 ^ 63 ∧
        ((chunks.flatten.length + hexValue digits : ℤ) ≤ maxBody → p + n + hexValue digits + 2 < 2 ^ 63)

variable {data} {lineAt}

/-- A chunk more at the end of a walk. -/
theorem Walk.concat {p q r : ℕ} {chunk behind : List UInt8} {chunks : List (List UInt8)}
    (hwalk : Walk data lineAt p r chunks) (hne : chunk ≠ []) (hline : lineAt r q chunk.length)
    (hdata : data.drop q = chunk ++ cr :: lf :: behind) :
    Walk data lineAt p (q + chunk.length + 2) (chunks ++ [chunk]) := by
  induction hwalk with
  | nil p => exact .cons hne hline hdata (.nil _)
  | cons hne' hline' hdata' hrest ih => exact .cons hne' hline' hdata' (ih hline)

/-- A walk with other size lines. -/
theorem Walk.imp {lineAt' : ℕ → ℕ → ℕ → Prop} (h : ∀ {p q v}, lineAt p q v → lineAt' p q v) {p r : ℕ}
    {chunks : List (List UInt8)} (hwalk : Walk data lineAt p r chunks) : Walk data lineAt' p r chunks := by
  induction hwalk with
  | nil p => exact .nil p
  | cons hne hline hdata hrest ih => exact .cons hne (h hline) hdata ih

end

section

variable {data : List UInt8} {off : ℕ} {maxBody : ℤ} {chunks : List (List UInt8)}
  {firstStart contiguousEnd : ℤ}

/-- A size line that was read with its exact value. -/
def ParsedLine (data : List UInt8) (p q v : ℕ) : Prop :=
  parseChunkSizeLine data p = .ok (q, v) ∧ SizeLineAt data p q v

/-- The variables `firstStart` and `contiguousEnd` after some chunks. -/
def Marks (data : List UInt8) (p : ℕ) (chunks : List (List UInt8)) (firstStart contiguousEnd : ℤ) :
    Prop :=
  match chunks with
  | [] => firstStart = -1 ∧ contiguousEnd = -1
  | [chunk] => ∃ q : ℕ, firstStart = q ∧ contiguousEnd = q + chunk.length ∧
      q + chunk.length + 2 = p ∧ p ≤ data.length ∧ (data.drop q).take chunk.length = chunk
  | _ => ∃ q : ℕ, firstStart = q ∧ contiguousEnd = -1 ∧ q + chunks.flatten.length + 2 ≤ p ∧
      p ≤ data.length

/-- The bytes behind a position. -/
theorem le_length_of_drop_eq {q : ℕ} {chunk behind : List UInt8}
    (h : data.drop q = chunk ++ cr :: lf :: behind) : q + chunk.length + 2 ≤ data.length := by
  have hlen := congrArg List.length h
  rw [length_drop, length_append, length_cons, length_cons] at hlen
  omega

/-- The second pass over chunks that have been read copies them behind each other. -/
theorem copyChunksLoop_eq {p last lastEnd : ℕ} (hwalk : Walk data (ParsedLine data) p last chunks)
    (hlast : parseChunkSizeLine data last = .ok (lastEnd, 0)) (hlen : data.length < 2 ^ 63)
    (fuel : ℕ) {acc : ℕ} {scratch : List UInt8}
    (hscr : scratch.length = acc + chunks.flatten.length) (hacc : scratch.length < 2 ^ 63) :
    copyChunksLoop data fuel p acc scratch =
      if chunks.length < fuel then .ok (scratch.take acc ++ chunks.flatten) else .running := by
  induction hwalk generalizing fuel acc scratch with
  | nil p =>
    cases fuel with
    | zero => rfl
    | succ fuel =>
      rw [flatten_nil, length_nil, Nat.add_zero] at hscr
      rw [copyChunksLoop, hlast, ok_bind, length_nil, if_pos (Nat.succ_pos _),
        flatten_nil, append_nil, take_of_length_le (by omega)]
      rfl
  | @cons p q r chunk behind chunks hne hline hdata hrest ih =>
    cases fuel with
    | zero => rfl
    | succ fuel =>
      have hin := le_length_of_drop_eq hdata
      have hpos : 0 < chunk.length := length_pos_iff.mpr hne
      rw [flatten_cons, length_append] at hscr
      have hslice : (slice data q (q + chunk.length : ℕ) : Scan HttpError (List UInt8)) = .ok chunk := by
        rw [slice, if_pos (by omega), Int.toNat_natCast, hdata,
          take_append_of_le_length (by omega), take_of_length_le (by omega)]
      have hcopy : copyAt scratch acc chunk = .ok (scratch.take acc ++ chunk ++
          scratch.drop (acc + chunk.length)) := by
        rw [copyAt, slice, if_pos (by omega), ok_bind, Int.toNat_natCast,
          take_of_length_le (by omega : chunk.length ≤ scratch.length - acc)]
        rfl
      have hfront : (scratch.take acc ++ chunk).length = acc + chunk.length := by
        rw [length_append, length_take]
        omega
      have hcopied : (scratch.take acc ++ chunk ++ scratch.drop (acc + chunk.length)).length =
          acc + chunk.length + chunks.flatten.length := by
        rw [length_append, hfront, length_drop]
        omega
      have hgo := ih hlast fuel hcopied (by omega)
      have hnz : ¬ (chunk.length : ℤ) = 0 := by omega
      have hend : q + chunk.length + 2 < 2 ^ 63 := by omega
      have hsum : acc + chunk.length < 2 ^ 63 := by omega
      rw [copyChunksLoop, hline.1, ok_bind]
      dsimp only
      rw [if_neg hnz, ← Nat.cast_add, goInt_natCast (by omega), hslice, ok_bind, hcopy,
        ok_bind, ← Nat.cast_add, goInt_natCast hsum, ← Nat.cast_ofNat, ← Nat.cast_add,
        goInt_natCast hend, hgo, ← hfront, take_left, flatten_cons, append_assoc,
        length_cons]
      simp only [Nat.add_lt_add_iff_right]

/-- The variables after one more chunk. -/
theorem Marks.concat {p q : ℕ} {chunk : List UInt8}
    (h : Marks data p chunks firstStart contiguousEnd) (hq : p ≤ q)
    (hend : q + chunk.length + 2 ≤ data.length) (hlen : data.length < 2 ^ 63)
    (hchunk : (data.drop q).take chunk.length = chunk) :
    Marks data (q + chunk.length + 2) (chunks ++ [chunk]) (if firstStart < 0 then q else firstStart)
      (nextContiguousEnd q chunk.length firstStart contiguousEnd) := by
  unfold nextContiguousEnd
  rw [← Nat.cast_add, goInt_natCast (by omega)]
  match chunks with
  | [] =>
    obtain ⟨rfl, rfl⟩ := h
    exact ⟨q, rfl, by simp, rfl, hend, hchunk⟩
  | [first] =>
    obtain ⟨q', rfl, rfl, rfl, -, -⟩ := h
    rw [if_neg (by omega), if_neg (by omega), if_pos (by omega)]
    refine ⟨q', rfl, rfl, ?_, hend⟩
    simp only [flatten_cons, flatten_append, flatten_nil, length_append, length_nil]
    omega
  | first :: second :: others =>
    obtain ⟨q', rfl, rfl, hsum, -⟩ := h
    refine ⟨q', rfl, rfl, ?_, hend⟩
    simp only [flatten_cons, flatten_append, flatten_nil, length_append, length_nil] at hsum ⊢
    omega

/-- The scratch buffer gets the length of the body. -/
theorem sizedScratch_ends {enough : Prop} (scratch : List UInt8) (n : ℕ) :
    Scan.Ends True enough (fun _ => True) (fun sized => sized.length = n) (sizedScratch scratch n) := by
  unfold sizedScratch
  split
  · refine .ok ?_
    rw [length_replicate, Int.toNat_natCast]
  · refine (Scan.Ends.slice (by omega) (by omega) (by omega)).imp id fun sized hsized => ?_
    rw [hsized, Int.toNat_zero, drop_zero, length_take]
    omega

/-- The end of `parseHTTP1ChunkedBody` returns the chunks that were read. -/
theorem finishChunkedBody_ends {last q n : ℕ} (hwalk : Walk data (ParsedLine data) off last chunks)
    (hlast : ParsedLine data last q 0) (htrail : TrailerSection (data.drop q) n)
    (hbody : (chunks.flatten.length : ℤ) ≤ maxBody)
    (hmarks : Marks data last chunks firstStart contiguousEnd) (hlen : data.length < 2 ^ 63)
    (scratch : List UInt8) (fuel : ℕ) :
    Scan.Ends True (chunks.length < fuel) (fun _ => True) (Decoded data off maxBody)
      (finishChunkedBody data off scratch fuel ((q + n : ℕ) : ℤ) chunks.flatten.length firstStart
        contiguousEnd) := by
  have hdec : Decoded data off maxBody ⟨((q + n : ℕ) : ℤ), chunks.flatten, chunks.flatten.length⟩ :=
    ⟨⟨chunks, last, q, n, hwalk.imp And.right, hlast.2, htrail, rfl, Nat.cast_add _ _⟩, rfl, hbody⟩
  unfold finishChunkedBody
  by_cases hempty : chunks.flatten = []
  · rw [hempty] at hdec ⊢
    exact .ok hdec
  have hnz : ¬ (chunks.flatten.length : ℤ) = 0 := by
    have := length_pos_iff.mpr hempty
    omega
  rw [if_neg hnz]
  match chunks with
  | [] => exact absurd rfl hempty
  | [chunk] =>
    obtain ⟨q', rfl, rfl, rfl, hin, htake⟩ := hmarks
    have hflat : [chunk].flatten = chunk := by simp
    rw [hflat] at hdec ⊢
    rw [← Nat.cast_add, goInt_natCast (by omega), if_pos ⟨by omega, rfl⟩]
    refine (Scan.Ends.slice (by omega) (by omega) (by omega)).bind fun body hslice => ?_
    rw [Int.toNat_natCast, show ((q' + chunk.length : ℕ) - (q' : ℤ)).toNat = chunk.length by omega,
      htake] at hslice
    rw [hslice]
    exact .ok hdec
  | first :: second :: others =>
    obtain ⟨q', rfl, rfl, hsum, hin⟩ := hmarks
    rw [← Nat.cast_add, goInt_natCast (by omega), if_neg (by omega)]
    refine (sizedScratch_ends scratch _).bind fun sized hsized => ?_
    have hcopy := copyChunksLoop_eq hwalk hlast.1 hlen fuel
      (hsized.trans (Nat.zero_add _).symm) (by omega)
    rw [Nat.cast_zero, take_zero, nil_append] at hcopy
    rw [hcopy]
    split
    · exact .ok hdec
    · rename_i hfuel
      exact .running hfuel

/-- A chunk and its line end, where the line end has been found. -/
theorem drop_eq_chunk {q v : ℕ} (hcr : data[q + v]? = some cr) (hlf : data[q + v + 1]? = some lf) :
    data.drop q = (data.drop q).take v ++ cr :: lf :: data.drop (q + v + 2) := by
  obtain ⟨hlt, hget⟩ := List.getElem?_eq_some_iff.mp hcr
  obtain ⟨hlt', hget'⟩ := List.getElem?_eq_some_iff.mp hlf
  rw [← hget, ← hget', ← List.drop_eq_getElem_cons hlt', ← List.drop_eq_getElem_cons hlt,
    ← List.drop_drop, List.take_append_drop]

theorem Walk.bound {p r : ℕ} (hwalk : Walk data (SizeLineAt data) p r chunks) :
    p + chunks.flatten.length + 2 * chunks.length ≤ r := by
  induction hwalk with
  | nil p => simp
  | cons hne hline hdata hrest ih =>
    obtain ⟨digits, n, -, rfl, -⟩ := hline
    rw [flatten_cons, length_append, length_cons]
    omega

/-- Where the sizes are plain, the first pass decodes exactly what it decodes. -/
theorem chunkedBodyLoop_ends (hlen : data.length < 2 ^ 63) (hplain : PlainSizes data off maxBody)
    (scratch : List UInt8) (fuel : ℕ) {p : ℕ} (hwalk : Walk data (ParsedLine data) off p chunks)
    (hbody : (chunks.flatten.length : ℤ) ≤ maxBody)
    (hmarks : Marks data p chunks firstStart contiguousEnd) (hp : p ≤ data.length) :
    Scan.Ends True (2 * data.length < fuel + p) (fun _ => True) (Decoded data off maxBody)
      (chunkedBodyLoop data off maxBody scratch fuel p chunks.flatten.length firstStart
        contiguousEnd) := by
  induction fuel generalizing p chunks firstStart contiguousEnd with
  | zero => exact .running (by omega)
  | succ fuel ih =>
    refine (feedFrom_ends (by omega)).bind ?_
    rintro ⟨lineEnd, size⟩ hparse
    obtain ⟨-, hafter, hin⟩ := feedFrom_bound hparse
    obtain ⟨digits, n, hline, hfree, hsize, rfl⟩ := sizeLine_of_parse hparse
    have hspec := hwalk.imp And.right
    obtain ⟨hsum, hpos⟩ := (hplain.plain hspec hbody hline).resolve_left hfree
    rw [goInt_natCast (by omega)] at hsize
    subst hsize
    have hparsed : ParsedLine data p (p + n) (hexValue digits) :=
      ⟨hparse, digits, n, hline, rfl, rfl⟩
    generalize hexValue digits = v at *
    generalize p + n = q at *
    dsimp only
    rw [← Nat.cast_add, goInt_natCast hsum]
    by_cases hzero : v = 0
    · subst hzero
      refine (feedFrom_ends (by omega)).bind ?_
      rintro ⟨consumed, ⟨⟩⟩ htrail
      obtain ⟨m, hsec, rfl⟩ := trailersFrom_of_feed (feed_of_feedFrom htrail)
      have hfin := finishChunkedBody_ends hwalk hparsed hsec hbody hmarks hlen scratch fuel
      have hbound := hspec.bound
      exact hfin.imp (by omega) fun _ => id
    have hnz : ¬ (v : ℤ) = 0 := by omega
    rw [if_neg hnz]
    split
    · exact .error trivial
    have hend := hpos (by omega)
    have hone : goInt (((q + v : ℕ) : ℤ) + 1) = ((q + v + 1 : ℕ) : ℤ) :=
      goInt_natCast (Nat.lt_of_succ_lt hend)
    have htwo : goInt (((q + v : ℕ) : ℤ) + 2) = ((q + v + 2 : ℕ) : ℤ) := goInt_natCast hend
    rw [← Nat.cast_add, htwo, hone]
    split
    · exact .incomplete trivial
    rw [goInt_natCast (by omega)]
    refine (Scan.Ends.index (by omega) (by omega)).bind fun first hfirst => ?_
    split
    · exact .error trivial
    rename_i hcr
    refine (Scan.Ends.index (by omega) (by omega)).bind fun second hsnd => ?_
    split
    · exact .error trivial
    rename_i hlf
    rw [not_not] at hcr hlf
    rw [hcr] at hfirst
    rw [hlf] at hsnd
    have hdata := drop_eq_chunk hfirst hsnd
    have hchunk : ((data.drop q).take v).length = v := by
      rw [length_take, length_drop]
      omega
    have hflat : (chunks ++ [(data.drop q).take v]).flatten.length = chunks.flatten.length + v := by
      rw [flatten_append, length_append, flatten_singleton, hchunk]
    have hne : (data.drop q).take v ≠ [] := length_pos_iff.mp (by omega)
    have hwalk' := hwalk.concat hne (by rwa [hchunk]) hdata
    have hmarks' := @Marks.concat data _ _ _ p q ((data.drop q).take v) hmarks (by omega)
      (by omega) hlen (by rw [hchunk])
    rw [hchunk] at hwalk' hmarks'
    have hgo := ih hwalk' (by rw [hflat]; omega) hmarks' (by omega)
    rw [hflat] at hgo
    exact hgo.imp (by omega) fun _ => id

theorem SizeLineAt.unique {p q v q' v' : ℕ} (h : SizeLineAt data p q v)
    (h' : SizeLineAt data p q' v') : q = q' ∧ v = v' := by
  obtain ⟨digits, n, hline, rfl, rfl⟩ := h
  obtain ⟨digits', n', hline', rfl, rfl⟩ := h'
  obtain ⟨rfl, rfl⟩ := Prod.mk.inj (Option.some.inj (hline.symm.trans hline'))
  exact ⟨rfl, rfl⟩

/-- A walk to the last size line comes past every position that chunks lead to. -/
theorem Walk.through {p r last q : ℕ} {chunks all : List (List UInt8)}
    (hwalk : Walk data (SizeLineAt data) p r chunks) (hall : Walk data (SizeLineAt data) p last all)
    (hlast : SizeLineAt data last q 0) : ∃ rest, Walk data (SizeLineAt data) r last rest := by
  induction hwalk generalizing all with
  | nil p => exact ⟨all, hall⟩
  | cons hne hline hdata hrest ih =>
    cases hall with
    | nil =>
      have hzero := (hline.unique hlast).2
      exact absurd (length_eq_zero_iff.mp hzero) hne
    | cons hne' hline' hdata' hrest' =>
      obtain ⟨rfl, hlen⟩ := hline.unique hline'
      rw [← hlen] at hrest'
      exact ih hrest'

/-- Where a body can be decoded exactly, the sizes are plain. -/
theorem Decoded.plainSizes (hlen : data.length < 2 ^ 63) {out : ChunkedBody}
    (h : Decoded data off maxBody out) : PlainSizes data off maxBody := by
  obtain ⟨⟨all, last, q, m, hall, hlast, htrail, hout, hconsumed⟩, hlength, hbound⟩ := h
  refine ⟨by omega, ?_⟩
  intro p chunks digits n hwalk hbody hline
  have hat : SizeLineAt data p (p + n) (hexValue digits) := ⟨digits, n, hline, rfl, rfl⟩
  have hpre := hwalk.bound
  suffices hend : p + n + hexValue digits + 2 ≤ data.length by
    exact .inr ⟨by omega, fun _ => by omega⟩
  obtain ⟨rest, hrest⟩ := hwalk.through hall hlast
  cases hrest with
  | nil =>
    obtain ⟨rfl, hzero⟩ := hat.unique hlast
    have hsec := htrail.bounds
    rw [length_drop] at hsec
    omega
  | cons hne hline' hdata hrest =>
    obtain ⟨rfl, hvalue⟩ := hat.unique hline'
    rw [hvalue]
    exact le_length_of_drop_eq hdata

/-- `parseHTTP1ChunkedBody` does not panic, and what it returns without an error is the chunked body
at the offset, decoded exactly. -/
def Decodes (data : List UInt8) (off : ℕ) (maxBody : ℤ) (scratch : List UInt8) : Prop :=
  ¬ Scan.Returns (fun fuel => parseHTTP1ChunkedBody fuel data off maxBody scratch) .panic ∧
    ∀ out, Scan.Returns (fun fuel => parseHTTP1ChunkedBody fuel data off maxBody scratch) (.ok out) →
      Decoded data off maxBody out

end

/-- Where the sizes are plain, `parseHTTP1ChunkedBody` returns, does not panic and decodes exactly. Where
they are not, it decodes exactly if and only if it neither panics nor returns a body. -/
theorem chunked_decoding_exact (data scratch : List UInt8) (off : ℕ) (maxBody : ℤ)
    (hoff : off ≤ data.length) (hlen : data.length < 2 ^ 63) :
    (PlainSizes data off maxBody →
      (∃ r, Scan.Returns (fun fuel => parseHTTP1ChunkedBody fuel data off maxBody scratch) r) ∧
        Decodes data off maxBody scratch) ∧
    (¬ PlainSizes data off maxBody →
      (Decodes data off maxBody scratch ↔
        ¬ Scan.Returns (fun fuel => parseHTTP1ChunkedBody fuel data off maxBody scratch) .panic ∧
          ∀ out, ¬ Scan.Returns (fun fuel => parseHTTP1ChunkedBody fuel data off maxBody scratch)
            (.ok out))) := by
  constructor
  · intro hplain
    have hends (fuel : ℕ) := @chunkedBodyLoop_ends data off maxBody [] (-1) (-1) hlen hplain scratch
      fuel off (.nil off) hplain.nonneg ⟨rfl, rfl⟩ hoff
    refine ⟨⟨_, (hends (2 * data.length + 1)).ne_running (by omega), _, rfl⟩, ?_, ?_⟩
    · rintro ⟨-, fuel, hpanic⟩
      exact (hends fuel).ne_panic hpanic
    · rintro out ⟨-, fuel, hout⟩
      exact (hends fuel).result hout
  · intro hplain
    refine and_congr_right fun _ => forall_congr' fun out => ?_
    refine imp_congr_right fun _ => iff_false_intro fun hdec => ?_
    exact hplain (hdec.plainSizes hlen)

/-- A chunk of three bytes. -/
theorem chunked_decoding_exact_abc :
    let data := bytesOf "3\r\nabc\r\n0\r\n\r\n"
    0 ≤ data.length ∧ data.length < 2 ^ 63 ∧ PlainSizes data 0 1024 ∧ Decodes data 0 1024 [] := by
  intro data
  have hdec : Decoded data 0 1024 ⟨13, [97, 98, 99], 3⟩ := by
    refine ⟨⟨[[97, 98, 99]], 8, 11, 2, ?_, ⟨[48], 3, by decide, rfl, rfl⟩, .empty _, rfl, rfl⟩, rfl,
      by decide⟩
    exact .cons (by simp) ⟨[51], 3, by decide, rfl, rfl⟩ rfl (.nil _)
  have hplain := hdec.plainSizes (by decide)
  obtain ⟨hexact, -⟩ := chunked_decoding_exact data [] 0 1024 (by decide) (by decide)
  exact ⟨by decide, by decide, hplain, (hexact hplain).2⟩

/-- A size whose upper bit is set by a letter is taken for a negative one, and the line end is looked for
in front of the buffer; a size of 2 ^ 64 is taken for zero. -/
theorem chunked_size_wraps :
    ¬ Decodes (bytesOf "800000000000000a\r\n") 0 1048576 [] ∧
      ¬ Decodes (bytesOf "10000000000000000\r\n\r\n") 0 1048576 [] := by
  constructor
  · rintro ⟨hpanic, -⟩
    exact hpanic ⟨by simp, 1, by decide +kernel⟩
  · rintro ⟨-, hexact⟩
    have hplain := (hexact ⟨21, [], 0⟩ ⟨by simp, 1, by decide +kernel⟩).plainSizes (by decide)
    obtain ⟨digits, n, hline, hfree, -, -⟩ :=
      @sizeLine_of_parse 19 0 (bytesOf "10000000000000000\r\n\r\n") 0 (by decide +kernel)
    obtain ⟨hsum, -⟩ := (hplain.plain (.nil 0) hplain.nonneg hline).resolve_left hfree
    obtain ⟨rfl, rfl⟩ := Prod.mk.inj (Option.some.inj (hline.symm.trans (by decide +kernel :
      _ = some (bytesOf "10000000000000000", 19))))
    revert hsum
    decide

end Espx.Ingestion
