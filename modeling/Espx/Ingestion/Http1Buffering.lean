import Mathlib.Logic.Relation
import Espx.Ingestion.Http2

/-!
# Reads of a connection

The outcome of `parseHTTP1` does not change when more bytes arrive, unless it waits for them: every loop
over the bytes is a machine, and a body is only cut out of bytes that are there. So the loop of
`OnTraffic` hands on the requests of the bytes that arrived, however they came, unless it meets the client
preface of HTTP/2.
-/

namespace Espx.Ingestion

open Espx.Foundation Scan List

section

variable {data more : List UInt8}

/-- The fast path gives what the general path does. -/
theorem requestLine_eq_feedFrom (data : List UInt8) :
    requestLine data = feedFrom RequestLine.step ⟨[], none, none, false⟩ data 0 := by
  unfold requestLine
  split
  · rename_i htrack
    have hdata : data = trackReqLine ++ data.drop 22 := by
      rw [← htrack, take_append_drop]
    have hline : feedFrom RequestLine.step ⟨[], none, none, false⟩ trackReqLine 0 =
        .ok (22, .ofLine (trackReqLine.take 4) ((trackReqLine.drop 5).take 6)) := by
      decide +kernel
    have hstay := @feedFrom_stable _ _ _ _ RequestLine.step ⟨[], none, none, false⟩
      trackReqLine (data.drop 22) 0
    rw [← hdata, hline] at hstay
    rw [hstay (by simp), ← htrack, take_take, drop_take, take_take]
    rfl
  · rfl

section

variable {fuel enough : ℕ} (hfuel : fuel ≤ enough) (maxBody : ℤ) (scratch : List UInt8)
include hfuel

/-- `parseHTTP1` grows. -/
theorem parseHTTP1_grows (hlen : more.length = 0 ∨ data.length + more.length < 2 ^ 63 - 1) :
    Grows (enough = fuel) (more = []) (parseHTTP1 fuel data maxBody scratch)
      (parseHTTP1 enough (data ++ more) maxBody scratch) := by
  unfold parseHTTP1
  rw [requestLine_eq_feedFrom, requestLine_eq_feedFrom]
  refine (feedFrom_grows data more 0).bind fun line _ => ?_
  refine (feedFrom_grows data more line.1).bind fun headers _ => ?_
  change Grows _ _ (finishRequest fuel data maxBody scratch headers.1 headers.2)
    (finishRequest enough (data ++ more) maxBody scratch headers.1 headers.2)
  unfold finishRequest
  split
  · exact .refl
  split
  · split
    · exact .refl
    · have hbody : Grows (enough = fuel) (more = [])
          (parseHTTP1ChunkedBody fuel data headers.1 maxBody scratch)
          (parseHTTP1ChunkedBody enough (data ++ more) headers.1 maxBody scratch) :=
        chunkedBodyLoop_grows hlen maxBody scratch hfuel 0 (-1) .refl (by omega)
      exact hbody.bind fun chunked _ => .refl
  split
  · exact .refl
  split
  · exact .refl
  by_cases hshort : data.length < headers.1 + headers.2.req.contentLength
  · rw [if_pos hshort]
    exact fun _ hsame => by rw [hsame rfl, append_nil, if_pos hshort]
  have hmore : ¬ (data ++ more).length < headers.1 + headers.2.req.contentLength := by
    rw [length_append]
    omega
  rw [if_neg hshort, if_neg hmore, slice_append (by omega)]
  exact .refl

/-- More fuel does not change the outcome of `parseHTTP1`. -/
theorem parseHTTP1_fuelled (data : List UInt8) :
    Scan.Fuelled (parseHTTP1 fuel data maxBody scratch) (parseHTTP1 enough data maxBody scratch) := by
  have hgrows := @parseHTTP1_grows data [] _ _ hfuel maxBody scratch (.inl rfl)
  rw [append_nil] at hgrows
  exact fun h => hgrows (fun hrun => absurd hrun h) fun _ => rfl

end

/-- `parseHTTP1` is stable. -/
theorem parseHTTP1_stable (hlen : (data ++ more).length < 2 ^ 63 - 1) (fuel : ℕ) (maxBody : ℤ)
    (scratch : List UInt8) : Scan.Stable (parseHTTP1 fuel data maxBody scratch)
      (parseHTTP1 fuel (data ++ more) maxBody scratch) := by
  rw [length_append] at hlen
  have hgrows := parseHTTP1_grows (Nat.le_refl fuel) maxBody scratch (.inr hlen)
  exact fun h => hgrows (fun _ => rfl) fun hwait => absurd hwait h

variable {scratch : List UInt8} {fuel : ℕ}

/-- The end of `parseHTTP1ChunkedBody` returns the position after the trailers. -/
theorem finishChunkedBody_consumed {off pos totalLen firstStart contiguousEnd : ℤ} {out : ChunkedBody}
    (h : finishChunkedBody data off scratch fuel pos totalLen firstStart contiguousEnd = .ok out) :
    out.consumed = pos := by
  unfold finishChunkedBody at h
  split at h
  · rw [← Scan.ok.inj h]
  split at h
  · obtain ⟨body, -, hout⟩ := bind_eq_ok.mp h
    rw [← Scan.ok.inj hout]
  · obtain ⟨sized, -, hcopy⟩ := bind_eq_ok.mp h
    obtain ⟨body, -, hout⟩ := bind_eq_ok.mp hcopy
    rw [← Scan.ok.inj hout]

/-- A chunked body ends inside the buffer. -/
theorem chunkedBodyLoop_consumed {off maxBody pos totalLen firstStart contiguousEnd : ℤ}
    {out : ChunkedBody}
    (h : chunkedBodyLoop data off maxBody scratch fuel pos totalLen firstStart contiguousEnd =
      .ok out) : out.consumed ≤ data.length := by
  induction fuel generalizing pos totalLen firstStart contiguousEnd with
  | zero => cases h
  | succ fuel ih =>
    obtain ⟨⟨lineEnd, size⟩, -, h⟩ := bind_eq_ok.mp h
    dsimp only at h
    split at h
    · obtain ⟨⟨consumed, done⟩, htrail, h⟩ := bind_eq_ok.mp h
      rw [finishChunkedBody_consumed h]
      exact (feedFrom_bound htrail).2.2
    split at h
    · cases h
    split at h
    · cases h
    obtain ⟨first, -, h⟩ := bind_eq_ok.mp h
    split at h
    · cases h
    obtain ⟨second, -, h⟩ := bind_eq_ok.mp h
    split at h
    · cases h
    · exact ih h

/-- A request ends inside the buffer, and its body leaves the path. -/
theorem finishRequest_eq_ok {maxBody i consumed : ℤ} {st : HeaderState} {req : ParsedHTTPRequest}
    (h : finishRequest fuel data maxBody scratch i st = .ok (consumed, req)) :
    consumed ≤ data.length ∧ req.path = st.req.path := by
  unfold finishRequest at h
  split at h
  · cases h
  split at h
  · split at h
    · cases h
    · obtain ⟨chunked, hchunked, hout⟩ := bind_eq_ok.mp h
      obtain ⟨rfl, rfl⟩ := Prod.mk.inj (Scan.ok.inj hout)
      exact ⟨chunkedBodyLoop_consumed hchunked, rfl⟩
  split at h
  · cases h
  split at h
  · cases h
  split at h
  · cases h
  split at h
  · obtain ⟨body, -, hout⟩ := bind_eq_ok.mp h
    obtain ⟨rfl, rfl⟩ := Prod.mk.inj (Scan.ok.inj hout)
    exact ⟨by omega, rfl⟩
  · obtain ⟨rfl, rfl⟩ := Prod.mk.inj (Scan.ok.inj h)
    exact ⟨by omega, rfl⟩

/-- A request ends inside the buffer. -/
theorem parseHTTP1_consumed {maxBody consumed : ℤ} {req : ParsedHTTPRequest}
    (h : parseHTTP1 fuel data maxBody scratch = .ok (consumed, req)) : consumed ≤ data.length := by
  obtain ⟨line, -, h⟩ := bind_eq_ok.mp h
  obtain ⟨⟨i, st⟩, -, h⟩ := bind_eq_ok.mp h
  exact (finishRequest_eq_ok h).1

end

/-- What is left of the bytes of a connection after their first request. -/
def NextRequest (maxBody : ℤ) (data rest : List UInt8) : Prop :=
  ∃ fuel consumed req, parseHTTP1 fuel data maxBody [] = .ok (consumed, req) ∧
    rest = data.drop consumed.toNat

/-- The client preface of HTTP/2 stands neither at the start of the bytes nor after a request. -/
def SpeaksHTTP1 (maxBody : ℤ) (data : List UInt8) : Prop :=
  ∀ rest, Relation.ReflTransGen (NextRequest maxBody) data rest → isH2ClientPreface rest = false

section

variable {cfg : Ingress} {maxBody : ℤ} {ctx : ConnContext}
  {buffer more : List UInt8} {reads : List (List UInt8)} {fuel enough : ℕ}

theorem SpeaksHTTP1.intro (hstart : isH2ClientPreface buffer = false)
    (hnext : ∀ rest, NextRequest maxBody buffer rest → SpeaksHTTP1 maxBody rest) :
    SpeaksHTTP1 maxBody buffer := by
  intro rest hrest
  obtain rfl | ⟨next, hfirst, hlater⟩ := Relation.ReflTransGen.cases_head hrest
  · exact hstart
  · exact hnext next hfirst rest hlater

/-- Bytes that more bytes do not make the preface are not the preface. -/
theorem SpeaksHTTP1.front (h : SpeaksHTTP1 maxBody (buffer ++ more)) : isH2ClientPreface buffer = false := by
  have hall := h _ .refl
  rw [isH2ClientPreface, decide_eq_false_iff_not] at hall ⊢
  rintro ⟨hlong, hpre⟩
  refine hall ⟨?_, ?_⟩
  · rw [length_append]
    omega
  · rw [take_append_of_le_length hlong, hpre]

/-- A request that has arrived is the first one of the bytes, whatever follows. -/
theorem SpeaksHTTP1.next (h : SpeaksHTTP1 maxBody (buffer ++ more))
    (hlen : (buffer ++ more).length < 2 ^ 63 - 1) {consumed : ℤ} {req : ParsedHTTPRequest}
    (hparse : parseHTTP1 fuel buffer maxBody [] = .ok (consumed, req)) :
    SpeaksHTTP1 maxBody (buffer.drop consumed.toNat ++ more) ∧
      (buffer.drop consumed.toNat ++ more).length < 2 ^ 63 - 1 := by
  have hin := parseHTTP1_consumed hparse
  have hall : parseHTTP1 fuel (buffer ++ more) maxBody [] = .ok (consumed, req) := by
    rw [parseHTTP1_stable hlen fuel maxBody [] (by simp [hparse]), hparse]
  rw [← drop_append_of_le_length (by omega)]
  refine ⟨fun rest hrest => h rest (.head ⟨fuel, consumed, req, hall, rfl⟩ hrest), ?_⟩
  rw [length_drop]
  omega

/-- One round of `OnTraffic` over HTTP/1. -/
theorem trafficLoop_new (h : isH2ClientPreface buffer = false) :
    trafficLoop cfg (fuel + 1) .new buffer =
      match parseHTTP1 fuel buffer cfg.maxBody [] with
      | .running => none
      | .panic => some ([], .new, .crashed)
      | .incomplete => some ([], .new, .waiting buffer)
      | .error e => some ([], .new, .closed (some e))
      | .ok (consumed, req) =>
        if cfg.closes (req, 0) then some ([(req, 0)], .new, .closed none)
        else (trafficLoop cfg fuel .new (buffer.drop consumed.toNat)).map
          fun out => ((req, 0) :: out.1, out.2) := by
  have hproto : ¬ (isH2ClientPreface buffer = true ∨ ConnContext.new.protoH2 = true) := by
    rw [h]
    decide
  rw [trafficLoop]
  by_cases hnone : buffer = []
  · rw [if_pos hnone, hnone]
    rfl
  · exact (if_neg hnone).trans (if_neg hproto)

/-- The outcome of a connection that has handed on some requests before. -/
def after (handed : List Handed) (out : List Handed × ConnContext × Ending) :
    List Handed × ConnContext × Ending :=
  (handed ++ out.1, out.2)

/-- More fuel does not change what `OnTraffic` does. -/
theorem trafficLoop_mono (h : fuel ≤ enough) {out : List Handed × ConnContext × Ending}
    (hout : trafficLoop cfg fuel ctx buffer = some out) :
    trafficLoop cfg enough ctx buffer = some out := by
  induction fuel generalizing enough ctx buffer out with
  | zero => cases hout
  | succ fuel ih =>
    obtain ⟨enough, rfl⟩ : ∃ n, enough = n + 1 := ⟨enough - 1, by omega⟩
    have hle : fuel ≤ enough := Nat.le_of_succ_le_succ h
    rw [trafficLoop] at hout ⊢
    split at hout
    · rename_i hnone
      rw [if_pos hnone]
      exact hout
    rename_i hsome
    rw [if_neg hsome]
    split at hout
    · rename_i hproto
      rw [if_pos hproto]
      dsimp only at hout ⊢
      cases hends : (onTrafficH2 cfg buffer ctx.h2).ends with
      | some ending =>
        rw [hends] at hout
        exact hout
      | none =>
        rw [hends] at hout
        obtain ⟨rest, hrest, rfl⟩ := Option.map_eq_some_iff.mp hout
        dsimp only
        rw [ih hle hrest, Option.map_some]
    rename_i hproto
    rw [if_neg hproto]
    by_cases hres : parseHTTP1 fuel buffer cfg.maxBody [] = .running
    · rw [hres] at hout
      cases hout
    rw [parseHTTP1_fuelled hle cfg.maxBody [] buffer hres]
    generalize parseHTTP1 fuel buffer cfg.maxBody [] = parsed at hout
    cases parsed with
    | ok result =>
      dsimp only at hout ⊢
      split at hout
      · rename_i hclose
        rw [if_pos hclose]
        exact hout
      · rename_i hclose
        rw [if_neg hclose]
        obtain ⟨rest, hrest, rfl⟩ := Option.map_eq_some_iff.mp hout
        rw [ih hle hrest, Option.map_some]
    | error e | incomplete | panic | running => exact hout

/-- What `OnTraffic` does with more bytes: where it waited, it goes on with what it left. -/
theorem trafficLoop_append (fuel : ℕ) (hlen : (buffer ++ more).length < 2 ^ 63 - 1)
    (hplain : SpeaksHTTP1 cfg.maxBody (buffer ++ more)) :
    trafficLoop cfg fuel .new (buffer ++ more) =
      match trafficLoop cfg fuel .new buffer with
      | none => none
      | some (handed, _, .waiting left) =>
        (trafficLoop cfg (fuel - handed.length) .new (left ++ more)).map
          (after handed)
      | some out => some out := by
  induction fuel generalizing buffer with
  | zero => rfl
  | succ fuel ih =>
    have hstay := parseHTTP1_stable hlen fuel cfg.maxBody []
    rw [trafficLoop_new hplain.front]
    cases hres : parseHTTP1 fuel buffer cfg.maxBody [] with
    | incomplete =>
      change _ = Option.map id (trafficLoop cfg (fuel + 1) .new (buffer ++ more))
      rw [Option.map_id, id]
    | running | panic | error e => rw [trafficLoop_new (hplain _ .refl), hstay (by simp [hres]), hres]
    | ok result =>
      obtain ⟨consumed, req⟩ := result
      obtain ⟨hrest, hshort⟩ := hplain.next hlen hres
      rw [trafficLoop_new (hplain _ .refl), hstay (by simp [hres]), hres]
      dsimp only
      by_cases hclose : cfg.closes (req, 0) = true
      · rw [if_pos hclose, if_pos hclose]
      have hdrop : consumed.toNat ≤ buffer.length := by
        have hin := parseHTTP1_consumed hres
        omega
      rw [if_neg hclose, if_neg hclose, drop_append_of_le_length hdrop, ih hshort hrest]
      cases trafficLoop cfg fuel .new (buffer.drop consumed.toNat) with
      | none => rfl
      | some out =>
        obtain ⟨handed, ctx, ending⟩ := out
        cases ending with
        | waiting left =>
          simp only [Option.map_some, length_cons, Nat.add_sub_add_right, Option.map_map]
          rfl
        | closed e | crashed => rfl

/-- What is left of a buffer is waited for, and stays with HTTP/1. -/
theorem trafficLoop_left {left : List UInt8} {handed : List Handed}
    (hlen : (buffer ++ more).length < 2 ^ 63 - 1) (hplain : SpeaksHTTP1 cfg.maxBody (buffer ++ more))
    (h : trafficLoop cfg fuel .new buffer = some (handed, ctx, .waiting left)) :
    ctx = .new ∧ (left ++ more).length < 2 ^ 63 - 1 ∧ SpeaksHTTP1 cfg.maxBody (left ++ more) ∧
      trafficLoop cfg (fuel - handed.length) .new left = some ([], .new, .waiting left) := by
  induction fuel generalizing buffer handed with
  | zero => cases h
  | succ fuel ih =>
    have hstep := h
    rw [trafficLoop_new hplain.front] at h
    split at h
    · cases h
    · cases h
    · obtain ⟨rfl, hends⟩ := Prod.mk.inj (Option.some.inj h)
      obtain ⟨rfl, hleft⟩ := Prod.mk.inj hends
      cases hleft
      exact ⟨rfl, hlen, hplain, hstep⟩
    · cases h
    · rename_i consumed req hres
      obtain ⟨hrest, hshort⟩ := hplain.next hlen hres
      split at h
      · cases h
      obtain ⟨⟨later, ctx', ending⟩, hlater, hout⟩ := Option.map_eq_some_iff.mp h
      obtain ⟨rfl, hends⟩ := Prod.mk.inj hout
      obtain ⟨rfl, rfl⟩ := Prod.mk.inj hends
      rw [length_cons, Nat.add_sub_add_right]
      exact ih hshort hrest hlater

/-- More fuel does not change what a connection does. -/
theorem trafficReads_mono (h : fuel ≤ enough) {out : List Handed × Ending}
    (hout : trafficReads cfg fuel ctx buffer reads = some out) :
    trafficReads cfg enough ctx buffer reads = some out := by
  induction reads generalizing ctx buffer out with
  | nil => exact hout
  | cons read reads ih =>
    rw [trafficReads] at hout ⊢
    split at hout
    · cases hout
    · rename_i handed ctx' left hreads
      rw [trafficLoop_mono h hreads]
      obtain ⟨rest, hrest, rfl⟩ := Option.map_eq_some_iff.mp hout
      dsimp only
      rw [ih hrest, Option.map_some]
    · rename_i handed ctx' ending hended hreads
      rw [trafficLoop_mono h hreads]
      cases ending with
      | waiting left => exact absurd rfl (hended left)
      | closed e | crashed => exact hout

/-- A connection that stays with HTTP/1 does what `OnTraffic` would do with all its bytes at once. -/
theorem trafficReads_iff_trafficLoop {start : ℕ} (hlen : (buffer ++ reads.flatten).length < 2 ^ 63 - 1)
    (hplain : SpeaksHTTP1 cfg.maxBody (buffer ++ reads.flatten))
    (hwait : trafficLoop cfg start .new buffer = some ([], .new, .waiting buffer))
    (out : List Handed × Ending) :
    (∃ fuel, trafficReads cfg fuel .new buffer reads = some out) ↔
      ∃ fuel ctx, trafficLoop cfg fuel .new (buffer ++ reads.flatten) = some (out.1, ctx, out.2) := by
  induction reads generalizing buffer start out with
  | nil =>
    rw [flatten_nil, append_nil]
    constructor
    · rintro ⟨fuel, hout⟩
      cases hout
      exact ⟨start, .new, hwait⟩
    · rintro ⟨fuel, ctx, hout⟩
      have hmore := trafficLoop_mono (Nat.le_max_left fuel start) hout
      rw [trafficLoop_mono (Nat.le_max_right fuel start) hwait] at hmore
      obtain ⟨hhanded, hends⟩ := Prod.mk.inj (Option.some.inj hmore)
      refine ⟨0, ?_⟩
      rw [trafficReads, hhanded, (Prod.mk.inj hends).2]
  | cons read reads ih =>
    rw [flatten_cons, ← append_assoc] at hlen hplain ⊢
    constructor
    · rintro ⟨fuel, hout⟩
      rw [trafficReads] at hout
      split at hout
      · cases hout
      · rename_i handed ctx left hreads
        obtain ⟨rest, hrest, rfl⟩ := Option.map_eq_some_iff.mp hout
        obtain ⟨rfl, hshort, hlater, hleft⟩ := trafficLoop_left hlen hplain hreads
        obtain ⟨enough, ctx, hall⟩ := (ih hshort hlater hleft rest).mp ⟨fuel, hrest⟩
        refine ⟨fuel + (enough + handed.length), ctx, ?_⟩
        rw [trafficLoop_append _ hlen hplain, trafficLoop_mono (Nat.le_add_right _ _) hreads]
        dsimp only
        rw [trafficLoop_mono (by omega) hall, Option.map_some]
        rfl
      · rename_i handed ctx ending hended hreads
        cases hout
        refine ⟨fuel, ctx, ?_⟩
        rw [trafficLoop_append _ hlen hplain, hreads]
        cases ending with
        | waiting left => exact absurd rfl (hended left)
        | closed e | crashed => rfl
    · rintro ⟨fuel, ctx, hout⟩
      obtain ⟨all, ends⟩ := out
      rw [trafficLoop_append _ hlen hplain] at hout
      split at hout
      · cases hout
      · rename_i handed ctx' left hreads
        obtain ⟨⟨later, ctx'', ending⟩, hrest, hends⟩ := Option.map_eq_some_iff.mp hout
        obtain ⟨rfl, hshort, hlater, hleft⟩ := trafficLoop_left hlen hplain hreads
        obtain ⟨enough, hall⟩ := (ih hshort hlater hleft (later, ending)).mpr ⟨_, ctx'', hrest⟩
        refine ⟨fuel + enough, ?_⟩
        rw [trafficReads, trafficLoop_mono (Nat.le_add_right _ _) hreads]
        dsimp only
        rw [trafficReads_mono (Nat.le_add_left _ _) hall, Option.map_some]
        obtain ⟨rfl, hctx⟩ := Prod.mk.inj hends
        obtain ⟨-, rfl⟩ := Prod.mk.inj hctx
        rfl
      · rename_i ended hended hreads
        refine ⟨fuel, ?_⟩
        cases hout
        rw [trafficReads, hreads]
        cases ends with
        | waiting left => exact absurd rfl (hended _ _ left)
        | closed e | crashed => rfl

end

end Espx.Ingestion
