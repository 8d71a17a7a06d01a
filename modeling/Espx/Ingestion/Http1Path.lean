import Espx.Ingestion.HpackAssign
import Espx.Ingestion.Http1Buffering

/-!
# The path of a request

`parseHTTP1` checks the path when it has read the request line, and neither the headers nor the body change
it. So the path of every request that it accepts is printable.
-/

namespace Espx.Ingestion

open Espx.Foundation

/-- A byte of the headers leaves the request, or assigns a header to it. -/
theorem headerStep_next {s s' : HeaderPlace × HeaderState} {b : UInt8} (h : headerStep s b = .next s') :
    s'.2 = s.2 ∨ ∃ key val, s.2.http1AssignHeader key val = some s'.2 := by
  have hname {place : Option HeaderPlace} (hplace : place.elim (Scan.Move.fail HttpError.invalidRequest)
      (fun place => Scan.Move.next (place, s.2)) = (Scan.Move.next s' :
        Scan.Move HttpError (HeaderPlace × HeaderState) HeaderState)) : s'.2 = s.2 := by
    cases place with
    | none => cases hplace
    | some place =>
      cases hplace
      rfl
  unfold headerStep at h
  split at h
  · split at h
    · cases h
    · cases h
  · split at h
    · cases h
      exact .inl rfl
    · exact .inl (hname h)
  · exact .inl (hname h)
  · split at h
    · cases h
      exact .inl rfl
    split at h
    · cases h
    · cases h
      exact .inl rfl
  · rename_i name value _
    split at h
    · cases h
    cases hadd : s.2.addHeader name value with
    | none =>
      rw [hadd] at h
      cases h
    | some st =>
      rw [hadd] at h
      cases h
      unfold HeaderState.addHeader at hadd
      split at hadd
      · cases hadd
      split at hadd
      · cases hadd
      · exact .inr ⟨_, _, hadd⟩

/-- The headers end with the request as it is. -/
theorem headerStep_done {s : HeaderPlace × HeaderState} {b : UInt8} {st : HeaderState}
    (h : headerStep s b = .done st) : st = s.2 := by
  have hname {place : Option HeaderPlace} : place.elim (Scan.Move.fail HttpError.invalidRequest)
      (fun place => Scan.Move.next (place, s.2)) ≠ (Scan.Move.done st :
        Scan.Move HttpError (HeaderPlace × HeaderState) HeaderState) := by
    cases place with
    | none | some place => exact fun h => by cases h
  unfold headerStep at h
  split at h
  · split at h
    · cases h
    · cases h
      rfl
  · split at h
    · cases h
    · exact absurd h hname
  · exact absurd h hname
  · split at h
    · cases h
    · split at h
      · cases h
      · cases h
  · split at h
    · cases h
    rename_i name value _ _
    cases hadd : s.2.addHeader name value with
    | none | some st =>
      rw [hadd] at h
      cases h

variable {req : ParsedHTTPRequest} {data scratch : List UInt8}

/-- A request line that is accepted has a printable path. -/
theorem requestOfLine_path {line : List UInt8} {sp1 sp2 : ℕ}
    (h : requestOfLine line sp1 sp2 = some req) : httpPathValid req.path = true := by
  unfold requestOfLine at h
  dsimp only at h
  split at h
  · cases h
  split at h
  · cases h
  split at h
  · cases h
  rename_i hvalid _
  rw [← Option.some.inj h]
  by_contra hnot
  exact hvalid (.inr (.inl hnot))

/-- The request line ends with a request that `requestOfLine` accepts. -/
theorem requestLine_step_done {r : RequestLine} {b : UInt8} (h : r.step b = .done req) :
    ∃ sp1 sp2, requestOfLine r.line sp1 sp2 = some req := by
  unfold RequestLine.step at h
  split at h
  · split at h
    · cases h
    split at h
    · split at h
      · rename_i hreq
        cases h
        exact ⟨_, _, hreq⟩
      · cases h
    · cases h
  · split at h
    · cases h
    · split at h
      · cases h
      · cases h

/-- The path of a request that `parseHTTP1` accepts is printable. -/
theorem parseHTTP1_path {fuel : ℕ} {maxBody consumed : ℤ}
    (h : parseHTTP1 fuel data maxBody scratch = .ok (consumed, req)) : httpPathValid req.path = true := by
  obtain ⟨⟨i, line⟩, hline, h⟩ := Scan.bind_eq_ok.mp h
  obtain ⟨⟨j, st⟩, hhead, h⟩ := Scan.bind_eq_ok.mp h
  have hpath : httpPathValid line.path = true := by
    rw [requestLine_eq_feedFrom] at hline
    refine Scan.feedFrom_invariant (I := fun _ => True) (P := fun req => httpPathValid req.path = true)
      (fun _ _ _ _ _ => trivial) (fun r b req _ hdone => ?_) trivial hline
    obtain ⟨sp1, sp2, hreq⟩ := requestLine_step_done hdone
    exact requestOfLine_path hreq
  have hkept : st.req.path = line.path := by
    refine Scan.feedFrom_invariant (I := fun s => s.2.req.path = line.path)
      (P := fun st => st.req.path = line.path) (fun s b s' hs hnext => ?_) (fun s b st hs hdone => ?_) rfl
      hhead
    · rcases headerStep_next hnext with hsame | ⟨key, val, hset⟩
      · rw [hsame]
        exact hs
      · have hparts := congrArg (fun parts => parts.2.1) (http1AssignHeader_parts s.2 key val hset)
        exact Eq.trans hparts hs
    · rw [headerStep_done hdone]
      exact hs
  rw [(finishRequest_eq_ok h).2, hkept]
  exact hpath

end Espx.Ingestion
