import Espx.Foundation.Scan
import Mathlib.Tactic.NormNum.Basic

/-!
# Chunked bodies

`parseHTTP1ChunkedBody` and the functions it calls. Go's `int` has 64 bits and wraps around. A negative
size moves the position back, so that the loop over the chunks gets fuel; an index outside the buffer is a
panic.
-/

namespace Espx.Ingestion

open Espx.Foundation Scan

/-- `errInvalidRequest` and `errPayloadTooLarge`; `errIncompleteRequest` is an outcome of its own. -/
inductive HttpError
  | invalidRequest
  | payloadTooLarge
  deriving DecidableEq, Repr

/-- An `int` after an addition or a multiplication. -/
def goInt (x : ℤ) : ℤ := Int.bmod x (2 ^ 64)

/-- Carriage return. -/
def cr : UInt8 := 13

/-- Line feed. -/
def lf : UInt8 := 10

/-- Where `parseChunkSizeLine` stands in its line: before a semicolon, after it, or after the
carriage return. -/
inductive SizePlace
  | digits
  | extension
  | lineEnd
  deriving DecidableEq, Repr

/-- The variables of `parseChunkSizeLine`. -/
structure SizeLine where
  size : ℤ
  hasDigit : Bool
  place : SizePlace
  deriving DecidableEq, Repr

/-- Another digit; the sum may wrap around. -/
def SizeLine.addDigit (s : SizeLine) (digit : UInt8) : SizeLine :=
  { s with size := goInt (s.size * 16 + digit.toNat), hasDigit := true }

/-- The loop of `parseChunkSizeLine`. Only after a decimal digit is the size compared with zero. -/
def chunkSizeStep (s : SizeLine) (b : UInt8) : Scan.Move HttpError SizeLine ℤ :=
  if s.place = .lineEnd then
    if b ≠ lf then .fail .invalidRequest
    else if s.hasDigit = false then .fail .invalidRequest
    else .done s.size
  else if b = cr then .next { s with place := .lineEnd }
  else if s.place = .extension ∨ b = 59 then .next { s with place := .extension }
  else if 48 ≤ b ∧ b ≤ 57 then
    if (s.addDigit (b - 48)).size < 0 then .fail .invalidRequest else .next (s.addDigit (b - 48))
  else if 97 ≤ b ∧ b ≤ 102 then .next (s.addDigit (b - 97 + 10))
  else if 65 ≤ b ∧ b ≤ 70 then .next (s.addDigit (b - 65 + 10))
  else if b = 32 ∨ b = 9 then .next s
  else .fail .invalidRequest

/-- `parseChunkSizeLine`: the position after the line and the size. -/
def parseChunkSizeLine (data : List UInt8) (pos : ℤ) : Scan HttpError (ℤ × ℤ) :=
  Scan.feedFrom chunkSizeStep ⟨0, false, .digits⟩ data pos

/-- Where `skipHTTP1ChunkTrailers` stands: at the start of a line, inside one, or after a carriage return,
perhaps of the empty line. -/
inductive TrailerPlace
  | start
  | inside
  | lineEnd (empty : Bool)
  deriving DecidableEq, Repr

/-- A byte of a trailer line, which is empty so far or not. -/
def trailerTextStep (empty : Bool) (b : UInt8) : Scan.Move HttpError TrailerPlace Unit :=
  if b = cr then .next (.lineEnd empty)
  else if b = 0 then .fail .invalidRequest
  else .next .inside

/-- The loops of `skipHTTP1ChunkTrailers`; the empty line is the last one. -/
def chunkTrailersStep : TrailerPlace → UInt8 → Scan.Move HttpError TrailerPlace Unit
  | .start, b => trailerTextStep true b
  | .inside, b => trailerTextStep false b
  | .lineEnd true, b => if b ≠ lf then .fail .invalidRequest else .done ()
  | .lineEnd false, b => if b ≠ lf then .fail .invalidRequest else .next .start

/-- `skipHTTP1ChunkTrailers`. -/
def skipHTTP1ChunkTrailers (data : List UInt8) (pos : ℤ) : Scan HttpError (ℤ × Unit) :=
  Scan.feedFrom chunkTrailersStep .start data pos

/-- What `parseHTTP1ChunkedBody` returns without an error, but for the scratch buffer, which its
caller drops. -/
structure ChunkedBody where
  consumed : ℤ
  body : List UInt8
  contentLen : ℤ
  deriving DecidableEq, Repr

/-- `copy(dst[acc:], src)`. -/
def copyAt (dst : List UInt8) (acc : ℤ) (src : List UInt8) : Scan HttpError (List UInt8) := do
  let _ ← Scan.slice dst acc dst.length
  return dst.take acc.toNat ++ src.take (dst.length - acc.toNat) ++ dst.drop (acc.toNat + src.length)

/-- The second pass of `parseHTTP1ChunkedBody`, which copies the chunks one after the other. -/
def copyChunksLoop (data : List UInt8) : ℕ → ℤ → ℤ → List UInt8 → Scan HttpError (List UInt8)
  | 0, _, _, _ => .running
  | fuel + 1, rpos, acc, scratch => do
    let (next, chunkSize) ← parseChunkSizeLine data rpos
    if chunkSize = 0 then return scratch
    else
      let chunkData ← Scan.slice data next (goInt (next + chunkSize))
      let copied ← copyAt scratch acc chunkData
      copyChunksLoop data fuel (goInt (next + chunkSize + 2)) (goInt (acc + chunkSize)) copied

/-- The scratch buffer cut or made to the length of the body. -/
def sizedScratch (scratch : List UInt8) (totalLen : ℤ) : Scan HttpError (List UInt8) :=
  if scratch.length < totalLen then .ok (List.replicate totalLen.toNat 0)
  else Scan.slice scratch 0 totalLen

/-- The end of `parseHTTP1ChunkedBody`, after the trailers. -/
def finishChunkedBody (data : List UInt8) (off : ℤ) (scratch : List UInt8) (fuel : ℕ)
    (pos totalLen firstStart contiguousEnd : ℤ) : Scan HttpError ChunkedBody :=
  if totalLen = 0 then .ok ⟨pos, [], 0⟩
  else if 0 ≤ firstStart ∧ contiguousEnd = goInt (firstStart + totalLen) then do
    let body ← Scan.slice data firstStart contiguousEnd
    return ⟨pos, body, totalLen⟩
  else do
    let sized ← sizedScratch scratch totalLen
    let body ← copyChunksLoop data fuel off 0 sized
    return ⟨pos, body, totalLen⟩

/-- The end of the first chunk, while no other chunk has been seen. -/
def nextContiguousEnd (pos size firstStart contiguousEnd : ℤ) : ℤ :=
  if firstStart < 0 then goInt (pos + size)
  else if pos ≠ contiguousEnd then -1
  else goInt (pos + size)

/-- The first pass of `parseHTTP1ChunkedBody`. -/
def chunkedBodyLoop (data : List UInt8) (off maxBody : ℤ) (scratch : List UInt8) :
    ℕ → ℤ → ℤ → ℤ → ℤ → Scan HttpError ChunkedBody
  | 0, _, _, _, _ => .running
  | fuel + 1, pos, totalLen, firstStart, contiguousEnd => do
    let (lineEnd, size) ← parseChunkSizeLine data pos
    if size = 0 then
      let (consumed, _) ← skipHTTP1ChunkTrailers data lineEnd
      finishChunkedBody data off scratch fuel consumed totalLen firstStart contiguousEnd
    else if maxBody < goInt (totalLen + size) then .error .payloadTooLarge
    else if data.length < goInt (lineEnd + size + 2) then .incomplete
    else
      let first ← Scan.index data (goInt (lineEnd + size))
      if first ≠ cr then .error .invalidRequest
      else
        let second ← Scan.index data (goInt (lineEnd + size + 1))
        if second ≠ lf then .error .invalidRequest
        else
          chunkedBodyLoop data off maxBody scratch fuel (goInt (lineEnd + size + 2))
            (goInt (totalLen + size)) (if firstStart < 0 then lineEnd else firstStart)
            (nextContiguousEnd lineEnd size firstStart contiguousEnd)

/-- `parseHTTP1ChunkedBody`. -/
def parseHTTP1ChunkedBody (fuel : ℕ) (data : List UInt8) (off maxBody : ℤ) (scratch : List UInt8) :
    Scan HttpError ChunkedBody :=
  chunkedBodyLoop data off maxBody scratch fuel off 0 (-1) (-1)

section

variable {data more : List UInt8} {fuel enough : ℕ}

/-- One chunk of the first pass: the size line at a position and the position after the chunk, which is
inside the buffer. -/
def ChunkStep (data : List UInt8) (pos next : ℤ) : Prop :=
  ∃ size lineEnd, parseChunkSizeLine data pos = .ok (lineEnd, size) ∧ size ≠ 0 ∧
    goInt (lineEnd + size) < data.length ∧ next = goInt (lineEnd + size + 2)

/-- The second pass over chunks that the first pass has been through grows. -/
theorem copyChunksLoop_grows {last lastEnd : ℤ}
    (hlast : parseChunkSizeLine data last = .ok (lastEnd, 0)) (hfuel : fuel ≤ enough) {rpos : ℤ}
    (acc : ℤ) (scratch : List UInt8) (hwalk : Relation.ReflTransGen (ChunkStep data) rpos last) :
    Grows (enough = fuel) (more = []) (copyChunksLoop data fuel rpos acc scratch)
      (copyChunksLoop (data ++ more) enough rpos acc scratch) := by
  induction fuel generalizing enough rpos acc scratch with
  | zero => exact fun hsame _ => by rw [hsame rfl]; rfl
  | succ fuel ih =>
    obtain ⟨enough, rfl⟩ : ∃ n, enough = n + 1 := ⟨enough - 1, by omega⟩
    rw [Nat.add_right_cancel_iff]
    refine (feedFrom_grows data more rpos).bind ?_
    rintro ⟨next, chunkSize⟩ hline
    dsimp only
    rcases hwalk.cases_head with rfl | ⟨after, ⟨size, lineEnd, hstep, -, hlt, rfl⟩, hrest⟩
    · obtain ⟨-, rfl⟩ := Prod.mk.inj (Scan.ok.inj (hline.symm.trans hlast))
      exact .refl
    obtain ⟨rfl, rfl⟩ := Prod.mk.inj (Scan.ok.inj (hline.symm.trans hstep))
    split
    · exact .refl
    · rw [slice_append (.inl (Int.le_of_lt hlt))]
      refine Grows.refl.bind fun chunkData _ => ?_
      exact Grows.refl.bind fun copied _ => ih (by omega) _ _ hrest

/-- The end of `parseHTTP1ChunkedBody` grows. -/
theorem finishChunkedBody_grows {off last lastEnd contiguousEnd : ℤ}
    (hlast : parseChunkSizeLine data last = .ok (lastEnd, 0))
    (hwalk : Relation.ReflTransGen (ChunkStep data) off last) (hend : contiguousEnd ≤ data.length)
    (scratch : List UInt8) (hfuel : fuel ≤ enough) (pos totalLen firstStart : ℤ) :
    Grows (enough = fuel) (more = [])
      (finishChunkedBody data off scratch fuel pos totalLen firstStart contiguousEnd)
      (finishChunkedBody (data ++ more) off scratch enough pos totalLen firstStart contiguousEnd) := by
  unfold finishChunkedBody
  split
  · exact .refl
  split
  · rw [slice_append (.inl hend)]
    exact .refl
  · refine Grows.refl.bind fun sized _ => ?_
    exact (copyChunksLoop_grows hlast hfuel 0 sized hwalk).bind fun body _ => .refl

theorem goInt_spec (x : ℤ) :
    (∃ turns, goInt x = x - 2 ^ 64 * turns) ∧ -2 ^ 63 ≤ goInt x ∧ goInt x < 2 ^ 63 := by
  have hlow := @Int.le_bmod x (2 ^ 64) (by decide)
  have hhigh := @Int.bmod_lt x (2 ^ 64) (by decide)
  refine ⟨⟨x.bdiv (2 ^ 64), ?_⟩, ?_, ?_⟩
  · exact Int.bmod_eq_self_sub_mul_bdiv x (2 ^ 64)
  · exact hlow
  · exact hhigh

theorem goInt_of_range {x : ℤ} (hlow : -2 ^ 63 ≤ x) (hhigh : x < 2 ^ 63) : goInt x = x := by
  obtain ⟨⟨turns, hturns⟩, hmin, hmax⟩ := goInt_spec x
  omega

theorem goInt_add (x : ℤ) {c : ℤ} (hc : 0 ≤ c) (hsmall : c ≤ 2) :
    goInt (x + c) = goInt x + c ∨ 2 ^ 63 ≤ goInt x + c := by
  obtain ⟨⟨turns, hturns⟩, hmin, hmax⟩ := goInt_spec x
  obtain ⟨⟨turns', hturns'⟩, hmin', hmax'⟩ := goInt_spec (x + c)
  omega

theorem index_lt {i : ℤ} {b : UInt8} (h : (index data i : Scan HttpError UInt8) = .ok b) :
    i < data.length := by
  obtain ⟨hlow, hget⟩ := index_eq_ok.mp h
  obtain ⟨hlt, -⟩ := List.getElem?_eq_some_iff.mp hget
  omega

/-- The first pass grows. -/
theorem chunkedBodyLoop_grows
    (hlen : more.length = 0 ∨ data.length + more.length < 2 ^ 63 - 1) {off : ℤ} (maxBody : ℤ)
    (scratch : List UInt8) (hfuel : fuel ≤ enough) {pos contiguousEnd : ℤ} (totalLen firstStart : ℤ)
    (hwalk : Relation.ReflTransGen (ChunkStep data) off pos) (hend : contiguousEnd ≤ data.length) :
    Grows (enough = fuel) (more = [])
      (chunkedBodyLoop data off maxBody scratch fuel pos totalLen firstStart contiguousEnd)
      (chunkedBodyLoop (data ++ more) off maxBody scratch enough pos totalLen firstStart
        contiguousEnd) := by
  induction fuel generalizing enough pos totalLen firstStart contiguousEnd with
  | zero => exact fun hsame _ => by rw [hsame rfl]; rfl
  | succ fuel ih =>
    obtain ⟨enough, rfl⟩ : ∃ n, enough = n + 1 := ⟨enough - 1, by omega⟩
    have hle : fuel ≤ enough := Nat.le_of_succ_le_succ hfuel
    rw [Nat.add_right_cancel_iff]
    refine (feedFrom_grows data more pos).bind ?_
    rintro ⟨lineEnd, size⟩ hline
    dsimp only
    by_cases hzero : size = 0
    · subst hzero
      refine (feedFrom_grows data more lineEnd).bind fun trailers _ => ?_
      exact finishChunkedBody_grows hline hwalk hend scratch hle trailers.1 totalLen firstStart
    rw [if_neg hzero, if_neg hzero]
    split
    · exact .refl
    by_cases hshort : data.length < goInt (lineEnd + size + 2)
    · rw [if_pos hshort]
      exact fun _ hsame => by rw [hsame rfl, List.append_nil, if_pos hshort]
    have hmore : ¬ (data ++ more).length < goInt (lineEnd + size + 2) := by
      rw [List.length_append]
      omega
    rw [if_neg hshort, if_neg hmore]
    have hfirst := goInt_add (lineEnd + size) (c := 2) (by decide) (by decide)
    have hsnd := goInt_add (lineEnd + size + 1) (c := 1) (by decide) (by decide)
    rw [add_assoc (lineEnd + size)] at hsnd
    rw [index_append (by omega)]
    refine Grows.refl.bind fun first hindex => ?_
    split
    · exact .refl
    rw [index_append]
    rotate_left
    · norm_num at hsnd
      omega
    refine Grows.refl.bind fun second _ => ?_
    split
    · exact .refl
    have hlt := index_lt hindex
    refine ih hle _ _ (hwalk.tail ⟨size, lineEnd, hline, hzero, hlt, rfl⟩) ?_
    unfold nextContiguousEnd
    split
    · exact Int.le_of_lt hlt
    · split
      · omega
      · exact Int.le_of_lt hlt

end

end Espx.Ingestion
