import Mathlib.Tactic.IntervalCases
import Espx.Ingestion.Http2

/-!
# Reads of an HTTP/2 connection

Where every read ends before the sixteenth byte of the preface, or after the preface or a frame at which
no header block waits for its DATA frame, the loop of `OnTraffic` hands on the requests that it would hand
on if all bytes came at once: the request that a call of `parseH2Ingress` has filled at such an end is
empty.
-/

namespace Espx.Ingestion

open Espx.Foundation List

/-- A frame on the wire. -/
structure WireFrame where
  type : UInt8
  flags : UInt8
  s0 : UInt8
  s1 : UInt8
  s2 : UInt8
  s3 : UInt8
  payload : List UInt8
  small : payload.length < 2 ^ 24

/-- The bytes of a frame. -/
def WireFrame.render (f : WireFrame) : List UInt8 :=
  [UInt8.ofNat (f.payload.length / 2 ^ 16), UInt8.ofNat (f.payload.length / 2 ^ 8 % 2 ^ 8),
    UInt8.ofNat (f.payload.length % 2 ^ 8), f.type, f.flags, f.s0, f.s1, f.s2, f.s3] ++ f.payload

/-- The frame as the source sees it. -/
def WireFrame.frame (f : WireFrame) : H2Frame :=
  ⟨f.type, f.flags, streamNumber f.s0 f.s1 f.s2 f.s3, f.payload⟩

/-- The bytes of a list of frames. -/
def renderFrames (frames : List WireFrame) : List UInt8 := frames.flatMap WireFrame.render

theorem renderFrames_append (first second : List WireFrame) :
    renderFrames (first ++ second) = renderFrames first ++ renderFrames second := flatMap_append

theorem renderFrames_cons (f : WireFrame) (rest : List WireFrame) :
    renderFrames (f :: rest) = f.render ++ renderFrames rest := flatMap_cons

theorem WireFrame.length_render (f : WireFrame) : f.render.length = 9 + f.payload.length := by
  unfold WireFrame.render
  rw [length_append]
  rfl

/-- A frame is decoded where all its bytes are there. -/
theorem decodeH2FrameHeader_render (f : WireFrame) (rest : List UInt8) :
    decodeH2FrameHeader (f.render ++ rest) = some (f.frame, f.render.length) := by
  have hlen : (UInt8.ofNat (f.payload.length / 2 ^ 16)).toNat * 2 ^ 16 +
      (UInt8.ofNat (f.payload.length / 2 ^ 8 % 2 ^ 8)).toNat * 2 ^ 8 +
      (UInt8.ofNat (f.payload.length % 2 ^ 8)).toNat = f.payload.length := by
    have hsmall := f.small
    rw [UInt8.toNat_ofNat', UInt8.toNat_ofNat', UInt8.toNat_ofNat']
    omega
  have hfits : ¬ (f.payload ++ rest).length < f.payload.length := by
    rw [length_append]
    omega
  rw [f.length_render]
  unfold WireFrame.render
  change (if (f.payload ++ rest).length < _ then none
    else some (H2Frame.mk f.type f.flags (streamNumber f.s0 f.s1 f.s2 f.s3)
      ((f.payload ++ rest).take _), 9 + _)) = _
  rw [hlen, if_neg hfits, take_left]
  rfl

open WireFrame

section

/-- Where the handling of frames stands: inside a call of `parseH2Ingress` that has filled a request, or
at the end of the connection. -/
inductive Standing
  | alive (st : H2ConnState) (req : FilledRequest)
  | ended (e : Ending)

variable (cfg : Ingress)

/-- What a connection does with frames: the requests that it hands on, and where it stands. -/
def serveFrames : H2ConnState → FilledRequest → List H2Frame → List Handed × Standing
  | st, req, [] => ([], .alive st req)
  | st, req, fr :: rest =>
    match frameStep cfg st req [] fr with
    | .next st req _ => serveFrames st req rest
    | .fail st _ _ .incomplete => serveFrames st .empty rest
    | .fail _ _ _ e => ([], .ended e.ending)
    | .done st req streamID _ =>
      if req.method = [] then serveFrames st .empty rest
      else if cfg.closes (req, streamID) then ([(req, streamID)], .ended (.closed none))
      else
        let served := serveFrames st .empty rest
        ((req, streamID) :: served.1, served.2)

/-- What a connection does with frames after a call of `parseH2Ingress`. -/
def afterCall (st : H2ConnState) (call : H2Call) (rest : List H2Frame) : List Handed × Standing :=
  match call.err with
  | some .incomplete => serveFrames cfg st .empty rest
  | some e => ([], .ended e.ending)
  | none =>
    if call.req.method = [] then serveFrames cfg st .empty rest
    else if cfg.closes (call.req, call.streamID) then ([(call.req, call.streamID)], .ended (.closed none))
    else
      let served := serveFrames cfg st .empty rest
      ((call.req, call.streamID) :: served.1, served.2)

/-- What a connection does with frames on the wire, where no call has filled a request. -/
def served (st : H2ConnState) (frames : List WireFrame) : List Handed × Standing :=
  serveFrames cfg st .empty (frames.map frame)

/-- The outcome of a frame without the settings to write. -/
def FrameStep.unsettled : FrameStep → FrameStep
  | .next st req _ => .next st req []
  | .done st req streamID _ => .done st req streamID []
  | .fail st req _ e => .fail st req [] e

/-- The state that a frame leaves. -/
def FrameStep.state : FrameStep → H2ConnState
  | .next st _ _ => st
  | .done st _ _ _ => st
  | .fail st _ _ _ => st

variable {cfg} {st : H2ConnState} {req : FilledRequest} {out : List UInt8} {fr : H2Frame}

/-- What a frame does otherwise does not depend on the settings to write. -/
theorem frameStep_unsettled :
    (frameStep cfg st req out fr).unsettled = (frameStep cfg st req [] fr).unsettled := by
  have hhdr (st : H2ConnState) :
      (headerPayload cfg st req out fr).unsettled = (headerPayload cfg st req [] fr).unsettled := by
    unfold headerPayload
    dsimp only
    split
    · split
      · rfl
      · split <;> rfl
    · rfl
  unfold frameStep dataPayload
  split_ifs
  all_goals first
    | rfl
    | exact hhdr _

/-- Frames are served in the same way whatever settings are to be written. -/
theorem serveFrames_cons (out : List UInt8) (rest : List H2Frame) :
    serveFrames cfg st req (fr :: rest) =
      match frameStep cfg st req out fr with
      | .next st req _ => serveFrames cfg st req rest
      | .fail st req _ e => afterCall cfg st ⟨0, req, 0, [], some e⟩ rest
      | .done st req streamID _ => afterCall cfg st ⟨0, req, streamID, [], none⟩ rest := by
  have hquiet := @frameStep_unsettled cfg st req out fr
  rw [serveFrames]
  cases hout : frameStep cfg st req out fr <;> cases hnone : frameStep cfg st req [] fr
  all_goals rw [hout, hnone] at hquiet; cases hquiet
  · rfl
  · rfl
  · rename_i e _
    cases e <;> rfl

/-- A frame leaves a connection established, and does not count as incomplete. -/
theorem frameStep_kept : (frameStep cfg st req out fr).state.established = st.established ∧
    (frameStep cfg st req out fr).state.incompleteSpin = st.incompleteSpin := by
  have hhdr (st : H2ConnState) : (headerPayload cfg st req out fr).state.established = st.established ∧
      (headerPayload cfg st req out fr).state.incompleteSpin = st.incompleteSpin := by
    unfold headerPayload
    dsimp only
    split
    · split
      · exact ⟨rfl, rfl⟩
      · split <;> exact ⟨rfl, rfl⟩
    · exact ⟨rfl, rfl⟩
  unfold frameStep dataPayload
  split_ifs
  all_goals first
    | exact ⟨rfl, rfl⟩
    | exact hhdr _

variable {buf : List UInt8} {fuel off : ℕ}

/-- A call of `parseH2Ingress` over frames takes all of them, or it returns after one of them. -/
theorem h2Loop_frames (frames : List WireFrame) (hdrop : buf.drop off = renderFrames frames)
    (hoff : off ≤ buf.length) (hfuel : frames.length < fuel) :
    (∃ st' req' out', h2Loop cfg buf fuel off st req out =
        (st', ⟨buf.length, req'.read st'.array, 0, out', some .incomplete⟩) ∧
      serveFrames cfg st req (frames.map frame) = ([], .alive st' req') ∧
      st'.established = st.established ∧ st'.incompleteSpin = st.incompleteSpin) ∨
    ∃ st' call rest, h2Loop cfg buf fuel off st req out = (st', call) ∧
      buf.drop call.consumed = renderFrames rest ∧ 0 < call.consumed ∧ rest.length < frames.length ∧
      serveFrames cfg st req (frames.map frame) =
        afterCall cfg st' call (rest.map frame) ∧
      st'.established = st.established ∧ st'.incompleteSpin = st.incompleteSpin := by
  induction frames generalizing fuel off st req out with
  | nil =>
    obtain ⟨fuel, rfl⟩ : ∃ n, fuel = n + 1 := ⟨fuel - 1, by omega⟩
    have hend : off = buf.length := Nat.le_antisymm hoff (drop_eq_nil_iff.mp hdrop)
    refine .inl ⟨st, req, out, ?_, rfl, rfl, rfl⟩
    rw [h2Loop, if_neg (by omega), hend]
  | cons f rest ih =>
    obtain ⟨fuel, rfl⟩ : ∃ n, fuel = n + 1 := ⟨fuel - 1, by omega⟩
    have hfirst : buf.drop off = f.render ++ renderFrames rest := by
      rw [hdrop, renderFrames_cons]
    have hafter := Scan.drop_add hfirst
    have hlen := congrArg List.length hfirst
    rw [length_drop, length_append, f.length_render] at hlen
    rw [length_cons] at hfuel ⊢
    have hle : off + f.render.length ≤ buf.length := by
      rw [f.length_render]
      omega
    have hpos : 0 < off + f.render.length := by
      rw [f.length_render]
      omega
    have hkept := @frameStep_kept cfg st req out f.frame
    rw [map_cons, serveFrames_cons out, h2Loop, if_pos (by omega), hfirst, decodeH2FrameHeader_render]
    dsimp only
    cases hstep : frameStep cfg st req out f.frame with
    | next st' req' out' =>
      rw [hstep] at hkept
      rcases ih hafter hle (show rest.length < fuel by omega) with
        ⟨st₁, req₁, out₁, hcall, hserve, hest, hspin⟩ |
        ⟨st₁, call, left, hcall, hleft, hpos, hshort, hserve, hest, hspin⟩
      · exact .inl ⟨st₁, req₁, out₁, hcall, hserve, hest.trans hkept.1, hspin.trans hkept.2⟩
      · exact .inr ⟨st₁, call, left, hcall, hleft, hpos, by omega, hserve, hest.trans hkept.1,
          hspin.trans hkept.2⟩
    | done st' req' streamID out' | fail st' req' out' e =>
      rw [hstep] at hkept
      exact .inr ⟨st', _, rest, rfl, hafter, hpos, by omega, rfl, hkept⟩

/-- The context and the end of a loop of `OnTraffic` that stands somewhere. -/
def Standing.Leaves (standing : Standing) (ctx : ConnContext) (ending : Ending) : Prop :=
  match standing with
  | .alive st _ => ctx = ⟨true, st⟩ ∧ ending = .waiting []
  | .ended e => ending = e ∧ ∀ left, e ≠ .waiting left

variable {ctx : ConnContext}

variable (cfg st buf fuel ctx) in
/-- The loop of `OnTraffic` over a buffer serves frames. -/
def LoopServes (frames : List WireFrame) : Prop :=
  ∃ ctx' ending, trafficLoop cfg fuel ctx buf =
      some ((served cfg st frames).1, ctx', ending) ∧
    (served cfg st frames).2.Leaves ctx' ending

/-- `onTrafficH2` after a call that consumed something. -/
theorem onTrafficH2_call {call : H2Call} (h : parseH2Ingress cfg buf ctx.h2 = (st, call))
    (hpos : 0 < call.consumed) (hspin : st.incompleteSpin = 0) :
    onTrafficH2 cfg buf ctx.h2 =
      ⟨st, buf.drop call.consumed, call.settingsOut,
        if call.err = none ∧ call.req.method ≠ [] then some (call.req, call.streamID) else none,
        match call.err with
        | some .incomplete => none
        | some e => some e.ending
        | none =>
          if call.req.method ≠ [] ∧ cfg.closes (call.req, call.streamID) = true then some (.closed none)
          else none⟩ := by
  have hst : ({ st with incompleteSpin := 0 } : H2ConnState) = st := by rw [← hspin]
  unfold onTrafficH2
  rw [h]
  dsimp only
  rw [if_pos hpos, hst]
  cases herr : call.err with
  | some e =>
    cases e with
    | incomplete => simp [Nat.ne_of_gt hpos]
    | invalidRequest | payloadTooLarge | crashed => simp
  | none =>
    by_cases hmeth : call.req.method = []
    · simp [hmeth]
    · simp [hmeth]

/-- There are no more frames than bytes. -/
theorem length_le_renderFrames (frames : List WireFrame) :
    frames.length ≤ (renderFrames frames).length := by
  induction frames with
  | nil => exact Nat.le_refl 0
  | cons f rest ih =>
    rw [renderFrames_cons, length_append, f.length_render, length_cons]
    omega

theorem eq_nil_of_renderFrames {frames : List WireFrame} (h : renderFrames frames = []) :
    frames = [] := by
  have hlen := length_le_renderFrames frames
  rw [h] at hlen
  exact length_eq_zero_iff.mp (Nat.le_zero.mp hlen)

theorem parseH2Ingress_established (h : st.established = true) :
    parseH2Ingress cfg buf (ConnContext.mk true st).h2 =
      h2Loop cfg buf (buf.length + 1) 0 st .empty [] := by
  unfold parseH2Ingress
  rw [if_pos h]

/-- The loop of `OnTraffic` over a buffer that ends with frames serves them. -/
theorem trafficLoop_call (frames : List WireFrame)
    (hcall : parseH2Ingress cfg buf ctx.h2 =
      h2Loop cfg buf (buf.length + 1) off st .empty out)
    (hproto : isH2ClientPreface buf = true ∨ ctx.protoH2 = true) (hnone : buf = [] → ctx = ⟨true, st⟩)
    (hdrop : buf.drop off = renderFrames frames) (hoff : off ≤ buf.length)
    (hest : st.established = true) (hspin : st.incompleteSpin = 0) (hfuel : frames.length + 1 < fuel) :
    LoopServes cfg st buf fuel ctx frames := by
  induction fuel generalizing buf off st out ctx frames with
  | zero => omega
  | succ fuel ih =>
    by_cases hbuf : buf = []
    · subst hbuf
      obtain rfl := eq_nil_of_renderFrames (hdrop.symm.trans drop_nil)
      exact ⟨ctx, .waiting [], rfl, hnone rfl, rfl⟩
    have hrest (st' : H2ConnState) (rest : List WireFrame) (hest : st'.established = true)
        (hspin : st'.incompleteSpin = 0) (hshort : rest.length < frames.length) :
        LoopServes cfg st' (renderFrames rest) fuel ⟨true, st'⟩ rest :=
      ih rest (parseH2Ingress_established hest) (.inr rfl) (fun _ => rfl) drop_zero
        (Nat.zero_le _) hest hspin (by omega)
    have hframe : frames.length < buf.length + 1 := by
      have hlen := congrArg List.length hdrop
      have hle := length_le_renderFrames frames
      rw [length_drop] at hlen
      omega
    have hbufpos : 0 < buf.length := length_pos_iff.mpr hbuf
    rw [LoopServes, served, trafficLoop, if_neg hbuf, if_pos hproto]
    rcases @h2Loop_frames cfg st .empty out buf (buf.length + 1) off frames hdrop hoff
        hframe with
      ⟨st', req', out', hloop, hserve, hest', hspin'⟩ |
      ⟨st', call, rest, hloop, hleft, hpos, hshort, hserve, hest', hspin'⟩
    · rw [hloop] at hcall
      rw [onTrafficH2_call hcall hbufpos (hspin'.trans hspin), hserve]
      obtain ⟨fuel, rfl⟩ : ∃ n, fuel = n + 1 := ⟨fuel - 1, by omega⟩
      refine ⟨⟨true, st'⟩, .waiting [], ?_, rfl, rfl⟩
      rw [drop_length]
      rfl
    · rw [hloop] at hcall
      obtain ⟨ctx', ending, hreads, hleave⟩ := hrest st' rest (hest'.trans hest)
        (hspin'.trans hspin) hshort
      rw [served] at hreads hleave
      rw [onTrafficH2_call hcall hpos (hspin'.trans hspin), hserve, hleft]
      unfold afterCall
      cases herr : call.err with
      | some e =>
        cases e with
        | incomplete => exact ⟨ctx', ending, by simpa using hreads, hleave⟩
        | invalidRequest | payloadTooLarge | crashed =>
          exact ⟨⟨true, st'⟩, _, by simp, rfl, by simp [H2Error.ending]⟩
      | none =>
        by_cases hmeth : call.req.method = []
        · exact ⟨ctx', ending, by simpa [hmeth] using hreads, by simpa [hmeth] using hleave⟩
        by_cases hclose : cfg.closes (call.req, call.streamID) = true
        · refine ⟨⟨true, st'⟩, .closed none, by simp [hmeth, hclose], ?_⟩
          simp [hmeth, hclose, Standing.Leaves]
        · refine ⟨ctx', ending, by simp [hmeth, hclose, hreads], ?_⟩
          simpa [hmeth, hclose] using hleave

end

section

/-- The stream of which a header block has ended and a DATA frame is to come, after a frame. -/
def waitsFor (waiting : Option ℕ) (fr : H2Frame) : Option ℕ :=
  if (fr.type = 0x1 ∨ fr.type = 0x9) ∧ fr.flags &&& 0x4 ≠ 0 then
    if fr.flags &&& 0x1 ≠ 0 then none else some fr.streamID
  else if fr.type = 0x0 ∧ waiting = some fr.streamID then none
  else waiting

/-- The stream that waits for a DATA frame after frames. -/
def waitingStream (frames : List WireFrame) : Option ℕ :=
  (frames.map frame).foldl waitsFor none

/-- A call has filled its request only while a stream waits for its DATA frame. -/
def Awaits (waiting : Option ℕ) (st : H2ConnState) (req : FilledRequest) : Prop :=
  req = .empty ∨ st.expectData = true ∧ waiting = some st.dataStreamID

variable {cfg : Ingress} {st : H2ConnState} {req : FilledRequest}
  {waiting : Option ℕ} {req' : FilledRequest} {st' : H2ConnState} {fr : H2Frame}

/-- Frames are served one part after the other. -/
theorem serveFrames_append (first second : List H2Frame) :
    serveFrames cfg st req (first ++ second) =
      match serveFrames cfg st req first with
      | (handed, .alive st req) =>
        (handed ++ (serveFrames cfg st req second).1,
          (serveFrames cfg st req second).2)
      | (handed, .ended e) => (handed, .ended e) := by
  induction first generalizing st req with
  | nil => rfl
  | cons fr rest ih =>
    rw [cons_append, serveFrames_cons [], serveFrames_cons []]
    cases frameStep cfg st req [] fr with
    | next st' req' out => exact ih
    | done st' req' streamID out =>
      unfold afterCall
      dsimp only
      split
      · exact ih
      split
      · rfl
      · rw [ih]
        cases serveFrames cfg st' .empty rest with
        | mk handed standing => cases standing <;> rfl
    | fail st' req' out e =>
      cases e with
      | incomplete => exact ih
      | invalidRequest | payloadTooLarge | crashed => rfl

theorem waitsFor_other (hhead : fr.type ≠ 0x1) (hrest : fr.type ≠ 0x9)
    (hdata : fr.type ≠ 0x0) : waitsFor waiting fr = waiting := by
  unfold waitsFor
  rw [if_neg fun h => h.1.elim hhead hrest, if_neg fun h => hdata h.1]

/-- The payload of a header block keeps track of the stream that waits. -/
theorem headerPayload_awaits
    {out out' : List UInt8} (htype : fr.type = 0x1 ∨ fr.type = 0x9) (h : Awaits waiting st req)
    (hstep : headerPayload cfg st req out fr = .next st' req' out') :
    Awaits (waitsFor waiting fr) st' req' := by
  unfold headerPayload at hstep
  unfold waitsFor
  dsimp only at hstep
  by_cases hends : fr.flags &&& 0x4 ≠ 0
  · rw [if_pos hends] at hstep
    rw [if_pos ⟨htype, hends⟩]
    split at hstep
    · cases hstep
    split at hstep
    · cases hstep
    rename_i hstr
    cases hstep
    rw [if_neg hstr]
    exact .inr ⟨rfl, rfl⟩
  · rw [if_neg hends] at hstep
    have hdata : fr.type ≠ 0x0 := by
      rcases htype with htype | htype
      · rw [htype]
        decide
      · rw [htype]
        decide
    rw [if_neg fun h => hends h.2, if_neg fun h => hdata h.1]
    cases hstep
    refine h.imp_left fun hempty => ?_
    rw [hempty]
    split <;> rfl

/-- A frame after which a call goes on keeps track of the stream that waits. -/
theorem frameStep_awaits {out out' : List UInt8} (h : Awaits waiting st req)
    (hstep : frameStep cfg st req out fr = .next st' req' out') :
    Awaits (waitsFor waiting fr) st' req' := by
  unfold frameStep at hstep
  by_cases hset : fr.type = 0x4
  · rw [if_pos hset] at hstep
    have hother : waitsFor waiting fr = waiting := by
      apply waitsFor_other <;> (rw [hset]; decide)
    rw [hother]
    split at hstep
    · cases hstep
      exact h
    · cases hstep
      exact h
  rw [if_neg hset] at hstep
  by_cases hhead : fr.type = 0x1
  · rw [if_pos hhead] at hstep
    split at hstep
    · cases hstep
    split at hstep
    · cases hstep
    · exact headerPayload_awaits (.inl hhead) (show Awaits waiting
        { st with headerStreamID := fr.streamID } req from h) hstep
  rw [if_neg hhead] at hstep
  by_cases hrest : fr.type = 0x9
  · rw [if_pos hrest] at hstep
    split at hstep
    · cases hstep
    · exact headerPayload_awaits (.inr hrest) h hstep
  rw [if_neg hrest] at hstep
  by_cases hdata : fr.type = 0x0
  · rw [if_pos hdata] at hstep
    unfold dataPayload at hstep
    split at hstep
    · rename_i hskip
      cases hstep
      rcases h with hempty | ⟨hexpect, hwait⟩
      · exact .inl hempty
      have hstr : fr.streamID ≠ st.dataStreamID := hskip.resolve_left fun hnot => hnot hexpect
      unfold waitsFor
      rw [if_neg fun h => h.1.elim hhead hrest, hwait, if_neg fun h => hstr (Option.some.inj h.2).symm]
      exact .inr ⟨hexpect, rfl⟩
    · split at hstep
      · cases hstep
      · cases hstep
  rw [if_neg hdata] at hstep
  rw [waitsFor_other hhead hrest hdata]
  split at hstep
  · cases hstep
    exact h
  · cases hstep

/-- A connection that serves frames: it is established, no buffer was incomplete, and a call has filled
its request only while a stream waits. -/
structure Serving (waiting : Option ℕ) (st : H2ConnState) (req : FilledRequest) : Prop where
  established : st.established = true
  unspun : st.incompleteSpin = 0
  awaits : Awaits waiting st req

/-- A connection goes on serving. -/
theorem serveFrames_serving {frames : List H2Frame} {handed : List Handed} (h : Serving waiting st req)
    (hserve : serveFrames cfg st req frames = (handed, .alive st' req')) :
    Serving (frames.foldl waitsFor waiting) st' req' := by
  induction frames generalizing waiting st req handed with
  | nil =>
    cases hserve
    exact h
  | cons fr rest ih =>
    have hkept := @frameStep_kept cfg st req [] fr
    rw [h.established, h.unspun] at hkept
    rw [serveFrames_cons []] at hserve
    cases hstep : frameStep cfg st req [] fr with
    | next st₁ req₁ out =>
      rw [hstep] at hserve hkept
      exact ih ⟨hkept.1, hkept.2, frameStep_awaits h.awaits hstep⟩ hserve
    | done st₁ req₁ streamID out =>
      rw [hstep] at hserve hkept
      have hagain : Serving (waitsFor waiting fr) st₁ .empty := ⟨hkept.1, hkept.2, .inl rfl⟩
      unfold afterCall at hserve
      dsimp only at hserve
      split at hserve
      · exact ih hagain hserve
      split at hserve
      · cases hserve
      · obtain ⟨-, hstanding⟩ := Prod.mk.inj hserve
        exact @ih _ _ _ (serveFrames cfg st₁ .empty rest).1 hagain
          (Prod.ext rfl hstanding)
    | fail st₁ req₁ out e =>
      rw [hstep] at hserve hkept
      cases e with
      | incomplete => exact ih ⟨hkept.1, hkept.2, .inl rfl⟩ hserve
      | invalidRequest | payloadTooLarge | crashed => cases hserve

end

section

variable {cfg : Ingress} {fuel : ℕ} {reads : List (List UInt8)}

/-- How a connection ends that stands somewhere when all its bytes have arrived. -/
def Standing.ending : Standing → Ending
  | .alive _ _ => .waiting []
  | .ended e => e

/-- Reads without bytes do nothing. -/
theorem trafficReads_nothing {ctx : ConnContext} (h : reads.flatten = []) (hfuel : 0 < fuel) :
    trafficReads cfg fuel ctx [] reads = some ([], .waiting []) := by
  induction reads with
  | nil => rfl
  | cons read reads ih =>
    rw [flatten_cons, append_eq_nil_iff] at h
    obtain ⟨fuel, rfl⟩ : ∃ n, fuel = n + 1 := ⟨fuel - 1, by omega⟩
    rw [trafficReads, h.1, nil_append, trafficLoop, if_pos rfl]
    dsimp only
    rw [ih h.2]
    rfl

/-- A read whose frames are served leaves the other frames to the reads that follow, where no stream waits
at its end or nothing follows. -/
theorem trafficReads_served {ctx : ConnContext} {buffer read : List UInt8} {reads : List (List UInt8)}
    {st : H2ConnState} (now later : List WireFrame) (hserving : Serving none st .empty)
    (hreads : LoopServes cfg st (buffer ++ read) fuel ctx now)
    (hcut : reads.flatten = [] ∧ later = [] ∨ waitingStream now = none)
    (hnext : waitingStream now = none → ∀ st', Serving none st' .empty →
      trafficReads cfg fuel ⟨true, st'⟩ [] reads =
        some ((served cfg st' later).1, (served cfg st' later).2.ending))
    (hfuel : 0 < fuel) :
    trafficReads cfg fuel ctx buffer (read :: reads) =
      some ((served cfg st (now ++ later)).1, (served cfg st (now ++ later)).2.ending) := by
  obtain ⟨ctx', ending, hreads, hleave⟩ := hreads
  rw [trafficReads, hreads]
  unfold served at hleave hnext ⊢
  rw [map_append, serveFrames_append]
  cases hserve : serveFrames cfg st .empty (now.map frame) with
  | mk handed standing =>
    rw [hserve] at hleave
    cases standing with
    | alive st' req' =>
      obtain ⟨rfl, rfl⟩ := hleave
      have hstate := serveFrames_serving hserving hserve
      dsimp only
      rcases hcut with ⟨hnone, rfl⟩ | hcut
      · rw [trafficReads_nothing hnone hfuel]
        rfl
      rw [show (now.map frame).foldl waitsFor none = none from hcut] at hstate
      have hreq : req' = .empty := by
        rcases hstate.awaits with hempty | ⟨-, hwait⟩
        · exact hempty
        · cases hwait
      rw [hreq, hnext hcut st' ⟨hstate.established, hstate.unspun, .inl rfl⟩]
      rfl
    | ended e =>
      obtain ⟨rfl, hnot⟩ := hleave
      cases ending with
      | waiting left => exact absurd rfl (hnot left)
      | closed e | crashed => rfl

/-- The frames of a read are an initial part of those of a later cut. -/
theorem frames_of_cut {now later now' later' : List WireFrame} {bytes : List UInt8}
    (hframe : now ++ later = now' ++ later') (hbytes : renderFrames now ++ bytes = renderFrames now') :
    ∃ middle, now' = now ++ middle ∧ later = middle ++ later' ∧ bytes = renderFrames middle := by
  rcases append_eq_append_iff.mp hframe with ⟨middle, hnow, hlater⟩ | ⟨middle, hnow, hlater⟩
  · refine ⟨middle, hnow, hlater, ?_⟩
    rw [hnow, renderFrames_append] at hbytes
    exact append_cancel_left hbytes
  · rw [hnow, renderFrames_append, append_assoc] at hbytes
    obtain ⟨hmiddle, rfl⟩ := append_eq_nil_iff.mp (append_right_eq_self.mp hbytes)
    obtain rfl := eq_nil_of_renderFrames hmiddle
    exact ⟨[], by simp [hnow], by simpa using hlater.symm, rfl⟩

theorem waitingStream_append {now middle : List WireFrame} (h : waitingStream now = none) :
    waitingStream (now ++ middle) = waitingStream middle := by
  unfold waitingStream at h ⊢
  rw [map_append, foldl_append, h]

/-- A connection at which no stream waits serves the frames of its reads, where no stream waits at any
cut. -/
theorem trafficReads_frames {frames : List WireFrame} {st : H2ConnState}
    (hbytes : reads.flatten = renderFrames frames)
    (hcuts : ∀ k < reads.length, (reads.drop k).flatten = [] ∨ ∃ now later, frames = now ++ later ∧
      (reads.take k).flatten = renderFrames now ∧ waitingStream now = none)
    (hserve : Serving none st .empty) (hfuel : frames.length + 1 < fuel) :
    trafficReads cfg fuel ⟨true, st⟩ [] reads =
      some ((served cfg st frames).1, (served cfg st frames).2.ending) := by
  induction reads generalizing frames st with
  | nil =>
    rw [eq_nil_of_renderFrames hbytes.symm]
    rfl
  | cons read reads ih =>
    rw [flatten_cons] at hbytes
    obtain ⟨now, later, rfl, hread, hcut⟩ : ∃ now later, frames = now ++ later ∧
        read = renderFrames now ∧ (reads.flatten = [] ∧ later = [] ∨ waitingStream now = none) := by
      by_cases hnone : reads.flatten = []
      · rw [hnone, append_nil] at hbytes
        exact ⟨frames, [], (append_nil frames).symm, hbytes, .inl ⟨hnone, rfl⟩⟩
      have hmore : 1 < (read :: reads).length := by
        cases reads with
        | nil => exact absurd rfl hnone
        | cons second reads => simp
      rcases hcuts 1 hmore with hend | ⟨now, later, hframe, hread, hwait⟩
      · exact absurd hend hnone
      · exact ⟨now, later, hframe, by simpa using hread, .inr hwait⟩
    subst hread
    rw [length_append] at hfuel
    have hrest : reads.flatten = renderFrames later := by
      rw [renderFrames_append] at hbytes
      exact append_cancel_left hbytes
    refine trafficReads_served now later hserve ?_ hcut (fun hwait st' hserving' => ?_) (by omega)
    · exact trafficLoop_call now (parseH2Ingress_established hserve.established) (.inr rfl)
        (fun _ => rfl) drop_zero (Nat.zero_le _) hserve.established hserve.unspun (by omega)
    · refine ih hrest (fun k hk => ?_) hserving' (by omega)
      rcases hcuts (k + 1) (Nat.succ_lt_succ hk) with hend | ⟨now', later', hframe, hbytes', hwait'⟩
      · exact .inl hend
      · obtain ⟨middle, rfl, hlater, hmiddle⟩ := frames_of_cut hframe hbytes'
        exact .inr ⟨middle, later', hlater, hmiddle, waitingStream_append hwait ▸ hwait'⟩

/-- The loop of `OnTraffic` waits while less than the first line of the preface is there. -/
theorem trafficLoop_early {p : ℕ} (hp : p < 16) (hfuel : 0 < fuel) :
    trafficLoop cfg fuel .new (h2ClientPreface.take p) =
      some ([], .new, .waiting (h2ClientPreface.take p)) := by
  obtain ⟨fuel, rfl⟩ : ∃ n, fuel = n + 1 := ⟨fuel - 1, by omega⟩
  rw [trafficLoop]
  by_cases hnone : h2ClientPreface.take p = []
  · rw [if_pos hnone, hnone]
  have hline : ∀ p < 16, requestLine (h2ClientPreface.take p) = .incomplete := by decide +kernel
  have hshort : isH2ClientPreface (h2ClientPreface.take p) = false := by
    refine decide_eq_false fun h => ?_
    have hlen := h.1
    rw [length_take] at hlen
    omega
  have hparse : parseHTTP1 fuel (h2ClientPreface.take p) cfg.maxBody [] = .incomplete := by
    unfold parseHTTP1
    rw [hline p hp]
    rfl
  have hproto : ¬ (isH2ClientPreface (h2ClientPreface.take p) = true ∨
      ConnContext.new.protoH2 = true) := by
    rw [hshort]
    decide
  rw [if_neg hnone, if_neg hproto, hparse]

/-- The state of a connection that has seen the client preface. -/
def establishedState : H2ConnState :=
  { newH2ConnState with established := true, settingsSent := true, settings := h2ConnBootstrap.take 40 }

/-- The loop of `OnTraffic` over the preface and frames serves the frames. -/
theorem trafficLoop_preface (frames : List WireFrame) (hfuel : frames.length + 1 < fuel) :
    LoopServes cfg establishedState (h2ClientPreface ++ renderFrames frames) fuel .new frames := by
  have hlen : h2ClientPreface.length = 24 := by decide +kernel
  have hpre : isH2ClientPreface (h2ClientPreface ++ renderFrames frames) = true := by
    refine decide_eq_true ⟨?_, ?_⟩
    · rw [length_append]
      omega
    · rw [← hlen, take_left]
  have hlong : 24 ≤ (h2ClientPreface ++ renderFrames frames).length := by
    rw [length_append]
    omega
  have hdrop : (h2ClientPreface ++ renderFrames frames).drop 24 = renderFrames frames := by
    rw [← hlen, drop_left]
  have hne : h2ClientPreface ++ renderFrames frames ≠ [] := length_pos_iff.mp (by omega)
  generalize hbuf : h2ClientPreface ++ renderFrames frames = buf at *
  have hparse : parseH2Ingress cfg buf ConnContext.new.h2 =
      h2Loop cfg buf (buf.length + 1) 24 establishedState .empty
        (h2ConnBootstrap.take 40) := by
    unfold parseH2Ingress
    rw [if_neg (by decide), if_neg (by omega), if_neg (not_not_intro hpre), if_neg (by decide)]
    rfl
  exact trafficLoop_call frames hparse (.inl hpre) (fun h => absurd h hne) hdrop hlong rfl rfl hfuel

/-- Every read ends before the sixteenth byte of the preface, or at the end of the stream, or after the
preface or a frame at which no stream waits for a DATA frame. -/
def CutsAtFrames (frames : List WireFrame) (reads : List (List UInt8)) : Prop :=
  ∀ k < reads.length, (reads.take k).flatten.length < 16 ∨ (reads.drop k).flatten = [] ∨
    ∃ now later, frames = now ++ later ∧
      (reads.take k).flatten = h2ClientPreface ++ renderFrames now ∧ waitingStream now = none

/-- A connection serves the frames of its reads, where every cut is at a frame. -/
theorem trafficReads_cuts {frames : List WireFrame} {reads : List (List UInt8)} {p : ℕ} (hp : p < 16)
    (hbytes : h2ClientPreface.take p ++ reads.flatten = h2ClientPreface ++ renderFrames frames)
    (hcuts : ∀ k < reads.length, p + (reads.take k).flatten.length < 16 ∨ (reads.drop k).flatten = [] ∨
      ∃ now later, frames = now ++ later ∧
        h2ClientPreface.take p ++ (reads.take k).flatten = h2ClientPreface ++ renderFrames now ∧
        waitingStream now = none)
    (hfuel : frames.length + 1 < fuel) :
    trafficReads cfg fuel .new (h2ClientPreface.take p) reads =
      some ((served cfg establishedState frames).1, (served cfg establishedState frames).2.ending) := by
  have hlen : h2ClientPreface.length = 24 := by decide +kernel
  induction reads generalizing p with
  | nil =>
    have hsize := congrArg List.length hbytes
    rw [flatten_nil, append_nil, length_take, length_append] at hsize
    omega
  | cons read reads ih =>
    rw [flatten_cons, ← append_assoc] at hbytes
    have hstart : Serving none establishedState .empty := ⟨rfl, rfl, .inl rfl⟩
    have hmore (h : reads.flatten ≠ []) : 1 < (read :: reads).length := by
      cases reads with
      | nil => exact absurd rfl h
      | cons second reads => simp
    by_cases hnone : reads.flatten = []
    · rw [hnone, append_nil] at hbytes
      have hall := @trafficReads_served cfg fuel .new (h2ClientPreface.take p) read
        reads establishedState frames [] hstart (hbytes ▸ trafficLoop_preface frames hfuel)
        (.inl ⟨hnone, rfl⟩) (fun _ _ _ => trafficReads_nothing hnone (by omega)) (by omega)
      rwa [append_nil] at hall
    rcases hcuts 1 (hmore hnone) with hearly | hend | ⟨now, later, rfl, hread, hwait⟩
    · rw [take_succ_cons, take_zero, flatten_cons, flatten_nil, append_nil] at hearly
      have hbuf : h2ClientPreface.take p ++ read = h2ClientPreface.take (p + read.length) := by
        have htake := congrArg (List.take (p + read.length)) hbytes
        have hsize : (h2ClientPreface.take p ++ read).length = p + read.length := by
          rw [length_append, length_take]
          omega
        rwa [← hsize, take_left, hsize, take_append_of_le_length (by omega)] at htake
      rw [hbuf] at hbytes
      rw [trafficReads, hbuf, trafficLoop_early hearly (by omega)]
      dsimp only
      rw [ih hearly hbytes fun k hk => ?_]
      · rfl
      · have hcut := hcuts (k + 1) (Nat.succ_lt_succ hk)
        rw [take_succ_cons, flatten_cons, length_append, ← append_assoc, hbuf, ← Nat.add_assoc] at hcut
        exact hcut
    · exact absurd hend hnone
    · rw [take_succ_cons, take_zero, flatten_cons, flatten_nil, append_nil] at hread
      rw [length_append] at hfuel
      have hsize : 24 ≤ p + read.length := by
        have hbuf := congrArg List.length hread
        rw [length_append, length_append, length_take] at hbuf
        omega
      have hrest : reads.flatten = renderFrames later := by
        rw [hread, renderFrames_append, append_assoc, append_cancel_left_eq,
          append_cancel_left_eq] at hbytes
        exact hbytes
      refine trafficReads_served now later hstart (hread ▸ trafficLoop_preface now (by omega))
        (.inr hwait) (fun _ st' hserve => ?_) (by omega)
      refine trafficReads_frames hrest (fun k hk => ?_) hserve (by omega)
      rcases hcuts (k + 1) (Nat.succ_lt_succ hk) with
        hearly | hend | ⟨now', later', hframe, hbytes', hwait'⟩
      · rw [take_succ_cons, flatten_cons, length_append] at hearly
        omega
      · exact .inl hend
      rw [take_succ_cons, flatten_cons, ← append_assoc, hread, append_assoc,
        append_cancel_left_eq] at hbytes'
      obtain ⟨middle, rfl, hlater, hmiddle⟩ := frames_of_cut hframe hbytes'
      exact .inr ⟨middle, later', hlater, hmiddle, waitingStream_append hwait ▸ hwait'⟩

/-- Ingress over HTTP/2 hands on the requests of its bytes, where every cut between reads is at a frame. -/
theorem h2_ingress_of_frame_cuts (cfg : Ingress)
    (frames : List WireFrame) (reads : List (List UInt8)) (fuel : ℕ)
    (hstream : reads.flatten = h2ClientPreface ++ renderFrames frames)
    (hcuts : CutsAtFrames frames reads) (hfuel : reads.flatten.length < fuel) :
    (trafficReads cfg fuel .new [] reads).isSome ∧
      trafficReads cfg fuel .new [] reads = trafficReads cfg fuel .new [] [reads.flatten] := by
  have hlen : frames.length + 1 < fuel := by
    have hpre : h2ClientPreface.length = 24 := by decide +kernel
    have hframe := length_le_renderFrames frames
    rw [hstream, List.length_append] at hfuel
    omega
  have hserve := @trafficReads_cuts cfg fuel frames reads 0 (by omega) hstream
    (fun k hk => by simpa using hcuts k hk) hlen
  have hwhole := @trafficReads_cuts cfg fuel frames [reads.flatten] 0 (by omega)
    (by simpa using hstream) (fun k hk => .inl (by simp [Nat.lt_one_iff.mp hk])) hlen
  rw [List.take_zero] at hserve hwhole
  rw [hserve, hwhole]
  exact ⟨rfl, rfl⟩

/-- HEADERS of a request that a body follows. -/
def sampleHeaders : WireFrame :=
  ⟨0x1, 0x4, 0, 0, 0, 1, [0x83, 0x04, 0x06, 47, 116, 114, 97, 99, 107], by decide⟩

/-- DATA with the body of the request. -/
def sampleData : WireFrame := ⟨0x0, 0x1, 0, 0, 0, 1, [123, 125], by decide⟩

/-- The request of the two frames. -/
def sampleRequest : ParsedHTTPRequest :=
  { ParsedHTTPRequest.ofLine (bytesOf "POST") (bytesOf "/track") with
    body := [123, 125]
    contentLength := 2
    hasContentLength := true }

/-- A stream with the request, in reads that end inside the first line of the preface, after it and after
the first request. -/
theorem h2_ingress_of_frame_cuts_sample :
    let reads := [h2ClientPreface.take 9, h2ClientPreface.drop 9,
      sampleHeaders.render ++ sampleData.render, sampleHeaders.render ++ sampleData.render]
    trafficReads sampleIngress 200 .new [] reads =
      trafficReads sampleIngress 200 .new [] [reads.flatten] := by
  intro reads
  refine (h2_ingress_of_frame_cuts sampleIngress
    [sampleHeaders, sampleData, sampleHeaders, sampleData] reads 200 (by decide +kernel) ?_
    (by decide +kernel)).2
  intro k hk
  have hk : k < 4 := hk
  interval_cases k
  · exact .inl (by decide)
  · exact .inl (by decide +kernel)
  · exact .inr (.inr ⟨[], _, rfl, by decide +kernel, rfl⟩)
  · exact .inr (.inr ⟨[sampleHeaders, sampleData], [sampleHeaders, sampleData], rfl, by decide +kernel,
      by decide +kernel⟩)

/-- A second header block overwrites the path of the first. -/
example :
    let trailers : WireFrame :=
      ⟨0x1, 0x4, 0, 0, 0, 1, [0x0f, 0x2d, 0x06] ++ bytesOf "012345", by decide⟩
    let stream := h2ClientPreface ++ renderFrames [sampleHeaders, trailers, sampleData]
    (trafficReads sampleIngress 100 .new [] [stream]).map Prod.fst =
      some [({ sampleRequest with path := bytesOf "012345", userAgent := bytesOf "012345" }, 1)] := by
  decide +kernel

/-- The request is handed on where the stream comes in one buffer, and not where it is cut between its
frames, inside a frame, or inside the second line of the preface. -/
theorem h2_ingress_depends_on_reads :
    let stream := h2ClientPreface ++ sampleHeaders.render ++ sampleData.render
    (trafficReads sampleIngress 100 .new [] [stream]).map Prod.fst =
        some [(sampleRequest, 1)] ∧
      (trafficReads sampleIngress 100 .new [] [stream.take 42, stream.drop 42]).map Prod.fst =
        some [] ∧
      (trafficReads sampleIngress 100 .new [] [stream.take 30, stream.drop 30]).map Prod.fst =
        some [] ∧
      (trafficReads sampleIngress 100 .new [] [stream.take 20, stream.drop 20]).map Prod.fst =
        some [] := by
  decide +kernel

end

end Espx.Ingestion
