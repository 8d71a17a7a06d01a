import Espx.Ingestion.ClickRedirect
import Espx.Ingestion.Http1Path

/-!
# What a click redirect carries

The scratch buffer of `parseClickQuery` holds the decoded values beside the unrecognised segments, and all
of it becomes the pass-through. So a location is free of line breaks exactly where these values are, and
the pass-through is never made of the unrecognised segments alone.
-/

namespace Espx.Ingestion

open Espx.Foundation
open Espx.Domain (UUID uuidNil)
open List hiding Vector

section

/-- The segments of the query of a path. -/
def clickSegments (path : List UInt8) : List (List UInt8) :=
  ((splitClickPathQuery path).map (querySegments [])).getD []

/-- A segment whose key is recognised. -/
def recognised (seg : List UInt8) : Bool := seg ≠ [] ∧ matchClickQueryKey (segmentKey seg) ≠ .unknown

/-- A segment whose key is not recognised. -/
def unrecognised (seg : List UInt8) : Bool :=
  seg ≠ [] ∧ matchClickQueryKey (segmentKey seg) = .unknown

/-- The decoded value of a segment. -/
def decodedValue (seg : List UInt8) : List UInt8 := appendPctDecoded [] (segmentValue seg)

/-- What the loop of `parseClickQuery` writes to the scratch buffer. -/
def mixedSegments : Bool → List (List UInt8) → List UInt8
  | _, [] => []
  | first, seg :: rest =>
    if recognised seg then decodedValue seg ++ mixedSegments first rest
    else if unrecognised seg then (if first then seg else 38 :: seg) ++ mixedSegments false rest
    else mixedSegments first rest

theorem appendPctDecoded_eq (dst src : List UInt8) :
    appendPctDecoded dst src = dst ++ appendPctDecoded [] src := by
  unfold appendPctDecoded
  split
  · rw [append_nil]
  split <;> rfl

variable {s s' : ClickScan} {seg : List UInt8}

/-- What the loop does with a segment that it skips, passes through or decodes. -/
theorem clickSegment_cases (h : clickSegment s seg = .ok s') : (seg = [] ∧ s' = s) ∨
    (unrecognised seg = true ∧ s' = { s with
      scratch := s.scratch ++ (if s.firstPassthrough then seg else 38 :: seg)
      firstPassthrough := false }) ∨
    (recognised seg = true ∧ ∃ out, assignClickValue (matchClickQueryKey (segmentKey seg))
        (decodedValue seg) s.out = .ok out ∧
      s' = { s with scratch := s.scratch ++ decodedValue seg, out := out }) := by
  unfold clickSegment at h
  by_cases hempty : seg = []
  · rw [if_pos hempty] at h
    exact .inl ⟨hempty, (Except.ok.inj h).symm⟩
  rw [if_neg hempty] at h
  by_cases hlong : 2048 < (segmentValue seg).length
  · rw [if_pos hlong] at h
    cases h
  rw [if_neg hlong] at h
  by_cases hkey : matchClickQueryKey (segmentKey seg) = .unknown
  · rw [hkey] at h
    refine .inr (.inl ⟨decide_eq_true ⟨hempty, hkey⟩, ?_⟩)
    rw [← Except.ok.inj h]
    cases s.firstPassthrough with
    | true => rfl
    | false => simp
  · refine .inr (.inr ⟨decide_eq_true ⟨hempty, hkey⟩, ?_⟩)
    have hdec : (appendPctDecoded s.scratch (segmentValue seg)).drop s.scratch.length =
        decodedValue seg := by
      rw [appendPctDecoded_eq, drop_left]
      rfl
    have hscr : appendPctDecoded s.scratch (segmentValue seg) = s.scratch ++ decodedValue seg :=
      appendPctDecoded_eq _ _
    dsimp only at h
    rw [hdec, hscr] at h
    generalize matchClickQueryKey (segmentKey seg) = kid at h hkey ⊢
    cases kid with
    | unknown => exact absurd rfl hkey
    | _ =>
      dsimp only at h
      split at h
      · rename_i out hset
        exact ⟨out, hset, (Except.ok.inj h).symm⟩
      · cases h

/-- A step of the loop writes what the segment has to give. -/
theorem clickSegment_scratch (h : clickSegment s seg = .ok s') (rest : List (List UInt8)) :
    s'.scratch ++ mixedSegments s'.firstPassthrough rest =
      s.scratch ++ mixedSegments s.firstPassthrough (seg :: rest) := by
  rw [mixedSegments]
  rcases clickSegment_cases h with ⟨rfl, rfl⟩ | ⟨hunk, rfl⟩ | ⟨hknown, out, -, rfl⟩
  · rw [if_neg (by decide), if_neg (by decide)]
  · have hnot : ¬ recognised seg = true := fun hknown =>
      (of_decide_eq_true hknown).2 (of_decide_eq_true hunk).2
    rw [if_neg hnot, if_pos hunk, append_assoc]
  · rw [if_pos hknown, append_assoc]

/-- The values that the loop has assigned come from the scratch buffer, and an identifier comes from a
segment of the query. -/
structure Assigned (segs : List (List UInt8)) (s : ClickScan) : Prop where
  clickID : ∀ b ∈ s.out.clickID, b ∈ s.scratch
  userID : ∀ b ∈ s.out.userID, b ∈ s.scratch
  subs : ∀ (i : Fin 5), ∀ b ∈ s.out.subs.get i, b ∈ s.scratch
  campaignID : s.out.campaignID = uuidNil ∨ ∃ seg ∈ segs, recognised seg = true ∧
    matchClickQueryKey (segmentKey seg) = .campaignID ∧ decodedValue seg ≠ []

/-- A step of the loop keeps what was assigned. -/
theorem clickSegment_assigned {segs : List (List UInt8)} (hseg : seg ∈ segs) (hs : Assigned segs s)
    (h : clickSegment s seg = .ok s') : Assigned segs s' := by
  have hkept (more : List UInt8) (first : Bool) :
      Assigned segs { s with scratch := s.scratch ++ more, firstPassthrough := first } :=
    ⟨fun b hb => mem_append_left more (hs.clickID b hb), fun b hb => mem_append_left more (hs.userID b hb),
      fun i b hb => mem_append_left more (hs.subs i b hb), hs.campaignID⟩
  have hright : ∀ b ∈ decodedValue seg, b ∈ s.scratch ++ decodedValue seg :=
    fun b hb => mem_append_right s.scratch hb
  rcases clickSegment_cases h with ⟨-, rfl⟩ | ⟨-, rfl⟩ | ⟨hknown, out, hset, rfl⟩
  · exact hs
  · exact hkept _ _
  replace hkept := hkept (decodedValue seg) s.firstPassthrough
  unfold assignClickValue at hset
  generalize hkid : matchClickQueryKey (segmentKey seg) = kid at hset
  cases kid with
  | unknown =>
    cases hset
    exact hkept
  | campaignID =>
    dsimp only at hset
    split at hset
    · rename_i id hid
      cases hset
      refine ⟨hkept.clickID, hkept.userID, hkept.subs, .inr ⟨seg, hseg, hknown, hkid, ?_⟩⟩
      intro hnil
      rw [hnil] at hid
      cases hid
    · cases hset
    · cases hset
  | clickID =>
    cases hset
    exact { hkept with clickID := hright }
  | userID =>
    cases hset
    exact { hkept with userID := hright }
  | type | placementID =>
    cases hset
    exact { hkept with }
  | sub j =>
    cases hset
    refine { hkept with subs := fun i b hb => ?_ }
    by_cases hij : j = i
    · subst hij
      rw [show (s.out.subs.set j (decodedValue seg)).get j = decodedValue seg by
        simp [Domain.vector_get]] at hb
      exact hright b hb
    · have hne : (j : ℕ) ≠ i := fun heq => hij (Fin.ext heq)
      rw [show (s.out.subs.set j (decodedValue seg)).get i = s.out.subs.get i by
        simp [Domain.vector_get, Vector.getElem_set_ne, hne]] at hb
      exact hkept.subs i b hb

/-- The loop of `parseClickQuery` writes the mixed segments and assigns from them. -/
theorem foldlM_clickSegment {segs all : List (List UInt8)} (hsub : ∀ seg ∈ segs, seg ∈ all)
    (hs : Assigned all s) (h : segs.foldlM clickSegment s = .ok s') :
    s'.scratch = s.scratch ++ mixedSegments s.firstPassthrough segs ∧ Assigned all s' := by
  induction segs generalizing s with
  | nil =>
    cases h
    exact ⟨(append_nil _).symm, hs⟩
  | cons seg rest ih =>
    rw [foldlM_cons] at h
    cases hstep : clickSegment s seg with
    | error e =>
      rw [hstep] at h
      cases h
    | ok middle =>
      rw [hstep] at h
      have hmiddle := clickSegment_assigned (hsub seg mem_cons_self) hs hstep
      obtain ⟨hscr, hset⟩ :=
        ih (fun other hother => hsub other (mem_cons_of_mem seg hother)) hmiddle h
      exact ⟨hscr.trans (clickSegment_scratch hstep rest), hset⟩

/-- The state with which the loop goes on or returns. -/
def reached : Except ClickScan ClickScan → ClickScan
  | .ok s => s
  | .error s => s

/-- The loop does not say that it succeeded. -/
theorem foldlM_clickSegment_ok (segs : List (List UInt8)) (s : ClickScan) :
    (reached (segs.foldlM clickSegment s)).out.ok = s.out.ok := by
  have hset (kid : ClickQueryKeyID) (decoded : List UInt8) (out : ClickQueryParsed) :
      ∀ out', assignClickValue kid decoded out = .ok out' ∨ assignClickValue kid decoded out = .error out' →
        out'.ok = out.ok := by
    intro out' h
    unfold assignClickValue at h
    cases kid with
    | campaignID =>
      dsimp only at h
      generalize parseUUID decoded out.campaignID = parsed at h
      cases parsed <;> rcases h with h | h <;> cases h <;> rfl
    | _ =>
      rcases h with h | h
      · rw [← Except.ok.inj h]
      · cases h
  have hstep (s : ClickScan) (seg : List UInt8) : (reached (clickSegment s seg)).out.ok = s.out.ok := by
    unfold clickSegment
    split
    · rfl
    split
    · rfl
    split
    · rfl
    dsimp only
    generalize appendPctDecoded s.scratch (segmentValue seg) = scratch
    have hout := hset (matchClickQueryKey (segmentKey seg)) (scratch.drop s.scratch.length) s.out
    split
    · rename_i out hcase
      exact hout out (.inl hcase)
    · rename_i out hcase
      exact hout out (.inr hcase)
  induction segs generalizing s with
  | nil => rfl
  | cons seg rest ih =>
    rw [foldlM_cons]
    have hfirst := hstep s seg
    cases hseg : clickSegment s seg with
    | error e =>
      rw [hseg] at hfirst
      exact hfirst
    | ok middle =>
      rw [hseg] at hfirst
      exact (ih middle).trans hfirst

/-- What `parseClickQuery` gives where it succeeds. -/
theorem parseClickQuery_ok {path scratch : List UInt8} (h : (parseClickQuery path scratch).2.ok = true) :
    let parsed := (parseClickQuery path scratch).2
    parsed.passthrough = mixedSegments true (clickSegments path) ∧
      (∀ b ∈ parsed.clickID, b ∈ parsed.passthrough) ∧ (∀ b ∈ parsed.userID, b ∈ parsed.passthrough) ∧
      (∀ (i : Fin 5), ∀ b ∈ parsed.subs.get i, b ∈ parsed.passthrough) ∧
      ∃ seg ∈ clickSegments path, recognised seg = true ∧
        matchClickQueryKey (segmentKey seg) = .campaignID ∧ decodedValue seg ≠ [] := by
  intro parsed
  unfold clickSegments
  unfold parseClickQuery at h
  cases hquery : splitClickPathQuery path with
  | none =>
    rw [hquery] at h
    cases h
  | some query =>
    cases query with
    | nil =>
      rw [hquery] at h
      cases h
    | cons b rest =>
      have hstart : Assigned (querySegments [] (b :: rest)) ⟨[], true, .reset⟩ :=
        ⟨by simp [ClickQueryParsed.reset], by simp [ClickQueryParsed.reset],
          fun i => by simp [ClickQueryParsed.reset, Domain.vector_get], .inl rfl⟩
      have hflag := foldlM_clickSegment_ok (querySegments [] (b :: rest)) ⟨[], true, .reset⟩
      cases hfold : (querySegments [] (b :: rest)).foldlM clickSegment ⟨[], true, .reset⟩ with
      | error s =>
        rw [hquery] at h
        dsimp only at h
        rw [hfold] at h hflag
        rw [show s.out.ok = false from hflag] at h
        cases h
      | ok s =>
        obtain ⟨hscr, hset⟩ := foldlM_clickSegment (fun _ hseg => hseg) hstart hfold
        rw [hfold] at hflag
        rw [hquery] at h
        dsimp only at h
        rw [hfold] at h
        dsimp only at h
        by_cases hnil : s.out.campaignID = uuidNil
        · rw [if_pos hnil, show s.out.ok = false from hflag] at h
          cases h
        have hparsed : parsed = { s.out with
            eventType := if s.out.eventType = [] then bytesOf "click" else s.out.eventType
            passthrough := s.scratch
            ok := true } := by
          change (parseClickQuery path scratch).2 = _
          unfold parseClickQuery
          rw [hquery]
          dsimp only
          rw [hfold]
          dsimp only
          rw [if_neg hnil]
        rw [hparsed]
        exact ⟨hscr, hset.clickID, hset.userID, hset.subs, hset.campaignID.resolve_left hnil⟩

end

section

/-- A byte that ends a line or a text: carriage return, line feed and zero. -/
def breaking (b : UInt8) : Bool := b = 13 ∨ b = 10 ∨ b = 0

/-- A text without such bytes. -/
def clean (text : List UInt8) : Bool := text.all fun b => ¬ breaking b

theorem clean_iff {text : List UInt8} : clean text = true ↔ ∀ b ∈ text, breaking b = false := by
  simp [clean]

/-- The bytes of a segment are those of the query. -/
theorem mem_querySegments {seg acc query : List UInt8} {b : UInt8} (h : seg ∈ querySegments acc query)
    (hb : b ∈ seg) : b ∈ acc ∨ b ∈ query := by
  induction query generalizing acc with
  | nil =>
    rw [querySegments, mem_singleton] at h
    exact .inl (h ▸ hb)
  | cons c rest ih =>
    rw [querySegments] at h
    split at h
    · rcases mem_cons.mp h with rfl | h
      · exact .inl hb
      · exact .inr (mem_cons_of_mem c ((ih h).resolve_left (not_mem_nil)))
    rcases ih h with hacc | hrest
    · rcases mem_append.mp hacc with hacc | hc
      · exact .inl hacc
      · exact .inr (mem_singleton.mp hc ▸ mem_cons_self)
    · exact .inr (mem_cons_of_mem c hrest)

/-- The segments of a printable path are clean. -/
theorem clickSegments_clean {path seg : List UInt8} (hpath : httpPathValid path = true)
    (hseg : seg ∈ clickSegments path) : ∀ b ∈ seg, breaking b = false := by
  intro b hb
  have hprintable : ∀ b ∈ path, ¬ (b < 0x20 ∨ 0x7E < b) := by
    have hall := (of_decide_eq_true hpath).1
    simpa using hall
  have hmem : b ∈ path := by
    unfold clickSegments splitClickPathQuery at hseg
    split at hseg
    · cases hseg
    split at hseg
    · cases hseg
    split at hseg
    · rcases mem_querySegments hseg hb with hnone | hnone <;> cases hnone
    split at hseg
    · exact mem_of_mem_drop ((mem_querySegments hseg hb).resolve_left not_mem_nil)
    · cases hseg
  have hbyte : ∀ i : Fin 256, ¬ (UInt8.ofFin i < 0x20 ∨ 0x7E < UInt8.ofFin i) →
      breaking (UInt8.ofFin i) = false := by
    decide +kernel
  exact hbyte b.toFin (hprintable b hmem)

/-- The breaking bytes of the scratch buffer are those of the decoded values. -/
theorem mem_mixedSegments {segs : List (List UInt8)} {b : UInt8} (hb : breaking b = true)
    (hsegs : ∀ seg ∈ segs, ∀ b ∈ seg, breaking b = false) (first : Bool) :
    b ∈ mixedSegments first segs ↔ ∃ seg ∈ segs, recognised seg = true ∧ b ∈ decodedValue seg := by
  induction segs generalizing first with
  | nil => simp [mixedSegments]
  | cons seg rest ih =>
    have hrest := fun first => ih (fun other hother => hsegs other (mem_cons_of_mem seg hother)) first
    have hseg : b ∉ seg := fun hmem => by
      rw [hsegs seg mem_cons_self b hmem] at hb
      cases hb
    have hamp : b ≠ 38 := by
      rintro rfl
      cases hb
    rw [mixedSegments, exists_mem_cons_iff]
    by_cases hknown : recognised seg = true
    · rw [if_pos hknown, mem_append, hrest, and_iff_right hknown]
    rw [if_neg hknown]
    have hnot : ¬ (recognised seg = true ∧ b ∈ decodedValue seg) := fun h => hknown h.1
    rw [or_iff_right hnot]
    by_cases hunk : unrecognised seg = true
    · rw [if_pos hunk, mem_append, hrest]
      refine or_iff_right fun hmem => ?_
      split at hmem
      · exact hseg hmem
      · exact (mem_cons.mp hmem).elim hamp hseg
    · rw [if_neg hunk, hrest]

/-- A macro is some bytes that are not zero. -/
theorem dispatchRedirectMacro_some {base : List UInt8} {mid : RedirectMacroID} {size : ℕ}
    (h : dispatchRedirectMacro base = some (mid, size)) : 0 < size ∧ 0 ∉ base.take size := by
  unfold dispatchRedirectMacro at h
  split_ifs at h with h1 h2 h3 h4 h5 h6 h7
  all_goals
    obtain ⟨-, rfl⟩ := Prod.mk.inj (Option.some.inj h)
    refine ⟨by decide, ?_⟩
  · rw [h1]; decide
  · rw [h2]; decide
  · rw [h3]; decide
  · rw [h4]; decide
  · rw [h5]; decide
  · rw [h6]; decide
  · rw [h7]; decide

variable {clickID userID : List UInt8} {subs : Vector (List UInt8) 5} {fuel : ℕ} {base : List UInt8}

/-- The bytes of an expanded text are those of the text and of the values. -/
theorem mem_expandLoop {b : UInt8} (h : b ∈ expandLoop clickID userID subs fuel base) :
    b ∈ base ∨ ∃ mid, b ∈ macroValue clickID userID subs mid := by
  induction fuel generalizing base with
  | zero => cases h
  | succ fuel ih =>
    cases base with
    | nil => cases h
    | cons c rest =>
      have hcopy (hmem : b ∈ c :: expandLoop clickID userID subs fuel rest) :
          b ∈ c :: rest ∨ ∃ mid, b ∈ macroValue clickID userID subs mid := by
        rcases mem_cons.mp hmem with rfl | hmem
        · exact .inl mem_cons_self
        · exact (ih hmem).imp_left (mem_cons_of_mem c)
      rw [expandLoop] at h
      split at h
      · exact hcopy h
      split at h
      · rename_i mid size _
        rcases mem_append.mp h with hvalue | hmem
        · exact .inr ⟨mid, hvalue⟩
        · exact (ih hmem).imp_left mem_of_mem_drop
      · exact hcopy h

/-- A zero byte of a text stays. -/
theorem zero_mem_expandLoop (h : 0 ∈ base) (hfuel : base.length < fuel) :
    0 ∈ expandLoop clickID userID subs fuel base := by
  induction fuel generalizing base with
  | zero => omega
  | succ fuel ih =>
    cases base with
    | nil => cases h
    | cons c rest =>
      rw [length_cons] at hfuel
      have hcopy : 0 ∈ c :: expandLoop clickID userID subs fuel rest := by
        rcases mem_cons.mp h with rfl | hmem
        · exact mem_cons_self
        · exact mem_cons_of_mem c (ih hmem (by omega))
      rw [expandLoop]
      split
      · exact hcopy
      split
      · rename_i mid size hmacro
        obtain ⟨hsize, htake⟩ := dispatchRedirectMacro_some hmacro
        rw [← take_append_drop size (c :: rest)] at h
        refine mem_append_right _ (ih ((mem_append.mp h).resolve_left htake) ?_)
        rw [length_drop, length_cons]
        omega
      · exact hcopy

/-- The text of an identifier is clean. -/
theorem uuidText_clean (id : UUID) : ∀ b ∈ uuidText id, breaking b = false := by
  have hhigh (b : UInt8) : breaking (highDigit b) = false :=
    forall_byte (P := fun b => breaking (highDigit b) = false) (by decide +kernel) b
  have hlow (b : UInt8) : breaking (lowDigit b) = false :=
    forall_byte (P := fun b => breaking (lowDigit b) = false) (by decide +kernel) b
  unfold uuidText
  simp only [forall_mem_cons, hhigh, hlow, true_and, not_mem_nil, false_implies, implies_true, and_true]
  decide

end

section

/-- The decoded value of a recognised segment stands in the scratch buffer. -/
theorem decodedValue_inside {segs : List (List UInt8)} {seg : List UInt8} (hseg : seg ∈ segs)
    (hknown : recognised seg = true) (first : Bool) : decodedValue seg <:+: mixedSegments first segs := by
  induction segs generalizing first with
  | nil => cases hseg
  | cons other rest ih =>
    rw [mixedSegments]
    rcases mem_cons.mp hseg with rfl | hrest
    · rw [if_pos hknown]
      exact (prefix_append _ _).isInfix
    split
    · exact (ih hrest first).trans (suffix_append _ _).isInfix
    · split
      · exact (ih hrest false).trans (suffix_append _ _).isInfix
      · exact ih hrest first

/-- A location is the expanded landing page with the pass-through behind it. -/
theorem buildRedirectLocation_some {clickID userID landing passthrough location : List UInt8}
    {subs : Vector (List UInt8) 5} (hpass : passthrough ≠ [])
    (h : buildRedirectLocation clickID userID subs landing passthrough = some location) :
    ∃ sep : UInt8, breaking sep = false ∧
      location = expandRedirectMacros clickID userID subs landing ++ sep :: passthrough := by
  unfold buildRedirectLocation at h
  dsimp only at h
  split at h
  · cases h
  split at h
  · cases h
  split at h
  · cases h
  · refine ⟨_, ?_, (Option.some.inj h).symm⟩
    split <;> rfl

variable {path scratch landing location : List UInt8} {requestID : UUID}

/-- The location of a click, with the values that replace macros. -/
theorem clickLocation_some (h : clickLocation path scratch requestID landing = some location) :
    (parseClickQuery path scratch).2.ok = true ∧ ∃ clickID userID subs,
      (∀ mid, ∀ b ∈ macroValue clickID userID subs mid, b ∈ uuidText requestID ∨
        b ∈ mixedSegments true (clickSegments path)) ∧
      ∃ sep : UInt8, breaking sep = false ∧
        location = expandRedirectMacros clickID userID subs landing ++
          sep :: mixedSegments true (clickSegments path) := by
  unfold clickLocation at h
  dsimp only at h
  by_cases hok : (parseClickQuery path scratch).2.ok = true
  · obtain ⟨hpass, hclick, huser, hsubs, seg, hseg, hknown, -, hvalue⟩ := parseClickQuery_ok hok
    have hne : mixedSegments true (clickSegments path) ≠ [] := by
      intro hnone
      have hinfix := decodedValue_inside hseg hknown true
      rw [hnone, infix_nil] at hinfix
      exact hvalue hinfix
    rw [if_neg (not_not_intro hok)] at h
    split at h
    · cases h
    rw [hpass] at hclick huser hsubs h
    refine ⟨hok, _, _, _, fun mid b hb => ?_, buildRedirectLocation_some hne h⟩
    cases mid with
    | clickID =>
      split at hb
      · exact .inl hb
      · exact .inr (hclick b hb)
    | userID => exact .inr (huser b hb)
    | sub i => exact .inr (hsubs i b hb)
  · rw [if_pos hok] at h
    cases h

/-- A location is clean where the landing page and the decoded values are. -/
theorem clean_clickLocation (hpath : httpPathValid path = true) (hreturn : 13 ∉ landing)
    (hfeed : 10 ∉ landing) (h : clickLocation path scratch requestID landing = some location) :
    clean location = true ↔ 0 ∉ landing ∧
      ∀ seg ∈ clickSegments path, recognised seg = true → clean (decodedValue seg) = true := by
  obtain ⟨-, clickID, userID, subs, hvalues, sep, hsep, rfl⟩ := clickLocation_some h
  have hsegs := fun seg (hseg : seg ∈ clickSegments path) => clickSegments_clean hpath hseg
  constructor
  · intro hclean
    rw [clean_iff] at hclean
    constructor
    · intro hzero
      have hmem : 0 ∈ expandRedirectMacros clickID userID subs landing :=
        zero_mem_expandLoop hzero (by omega)
      have hnot := hclean 0 (mem_append_left _ hmem)
      cases hnot
    · intro seg hseg hknown
      rw [clean_iff]
      intro b hb
      have hmixed := (decodedValue_inside hseg hknown true).subset hb
      exact hclean b (mem_append_right _ (mem_cons_of_mem sep hmixed))
  · rintro ⟨hzero, hclean⟩
    rw [clean_iff]
    intro b hb
    by_contra hbreak
    rw [Bool.not_eq_false] at hbreak
    have hpass : b ∉ mixedSegments true (clickSegments path) := by
      intro hmem
      obtain ⟨seg, hseg, hknown, hvalue⟩ := (mem_mixedSegments hbreak hsegs true).mp hmem
      rw [clean_iff.mp (hclean seg hseg hknown) b hvalue] at hbreak
      cases hbreak
    rcases mem_append.mp hb with hexpanded | hpassed
    · rcases mem_expandLoop hexpanded with hland | ⟨mid, hvalue⟩
      · rcases of_decide_eq_true hbreak with rfl | rfl | rfl
        · exact hreturn hland
        · exact hfeed hland
        · exact hzero hland
      · rcases hvalues mid b hvalue with huuid | hmixed
        · rw [uuidText_clean requestID b huuid] at hbreak
          cases hbreak
        · exact hpass hmixed
    · rcases mem_cons.mp hpassed with rfl | hmixed
      · rw [hsep] at hbreak
        cases hbreak
      · exact hpass hmixed

/-- The lines of a text that ends its lines with carriage return and line feed. -/
def crlfLines : List UInt8 → List UInt8 → List (List UInt8)
  | line, [] => [line]
  | line, [b] => [line ++ [b]]
  | line, b :: c :: rest =>
    if b = 13 ∧ c = 10 then line :: crlfLines [] rest else crlfLines (line ++ [b]) (c :: rest)

/-- A text without a carriage return is one line. -/
theorem crlfLines_line {text : List UInt8} (h : 13 ∉ text) (line rest : List UInt8) :
    crlfLines line (text ++ 13 :: 10 :: rest) = (line ++ text) :: crlfLines [] rest := by
  induction text generalizing line with
  | nil =>
    rw [nil_append, crlfLines, if_pos ⟨rfl, rfl⟩, append_nil]
  | cons b text ih =>
    have hb : b ≠ 13 := fun heq => h (heq ▸ mem_cons_self)
    have htext : 13 ∉ text := fun hmem => h (mem_cons_of_mem b hmem)
    have hstep : crlfLines line (b :: (text ++ 13 :: 10 :: rest)) =
        crlfLines (line ++ [b]) (text ++ 13 :: 10 :: rest) := by
      cases text with
      | nil => rw [nil_append, crlfLines, if_neg fun h => hb h.1]
      | cons c text => rw [cons_append, crlfLines, if_neg fun h => hb h.1]
    rw [cons_append, hstep, ih htext, append_assoc]
    rfl

/-- The lines of the template. -/
def templateLines (location : List UInt8) : List (List UInt8) :=
  [bytesOf "HTTP/1.1 302 Found", bytesOf "Location: " ++ location, bytesOf "Cache-Control: no-store",
    bytesOf "Content-Length: 0", bytesOf "Connection: keep-alive", [], []]

/-- The response to a click has the lines of the template where its location is one line. -/
theorem redirectResponse_lines (h : 13 ∉ location) :
    crlfLines [] (redirectResponse location) = templateLines location := by
  have hstart : redirectHdrStart = bytesOf "HTTP/1.1 302 Found" ++ 13 :: 10 :: bytesOf "Location: " := by
    decide +kernel
  have hend : redirectHdrEnd = 13 :: 10 :: (bytesOf "Cache-Control: no-store" ++ 13 :: 10 ::
      (bytesOf "Content-Length: 0" ++ 13 :: 10 :: (bytesOf "Connection: keep-alive" ++ 13 :: 10 ::
        ([] ++ 13 :: 10 :: [])))) := by
    decide +kernel
  have hloc : 13 ∉ bytesOf "Location: " ++ location := by
    rw [mem_append]
    exact fun hmem => hmem.elim (by decide +kernel) h
  unfold redirectResponse
  rw [hstart, hend, append_assoc, append_assoc, cons_append, cons_append,
    ← append_assoc (bytesOf "Location: "), crlfLines_line (by decide +kernel),
    crlfLines_line hloc, crlfLines_line (by decide +kernel), crlfLines_line (by decide +kernel),
    crlfLines_line (by decide +kernel), crlfLines_line (by decide +kernel)]
  rfl

/-- A click redirect injects nothing exactly where no recognised parameter of its path has an encoded
carriage return, line feed or zero byte and the landing page has no zero byte. -/
theorem click_redirect_clean_iff (fuel : ℕ) (data scratch : List UInt8) (maxBody consumed : ℤ)
    (req : ParsedHTTPRequest) (hreq : parseHTTP1 fuel data maxBody scratch = .ok (consumed, req))
    (buffer landing : List UInt8) (hlanding : 13 ∉ landing ∧ 10 ∉ landing) (requestID : UUID)
    (location : List UInt8)
    (hlocation : clickLocation req.path buffer requestID landing = some location) :
    (clean location = true ∧ crlfLines [] (redirectResponse location) = templateLines location) ↔
      0 ∉ landing ∧
        ∀ seg ∈ clickSegments req.path, recognised seg = true → clean (decodedValue seg) = true := by
  rw [← clean_clickLocation (parseHTTP1_path hreq) hlanding.1 hlanding.2 hlocation]
  refine and_iff_left_of_imp fun hclean => redirectResponse_lines fun hmem => ?_
  have hnot := clean_iff.mp hclean 13 hmem
  cases hnot

/-- The path of a click with one more parameter. -/
def sampleClickPath (parameter : String) : List UInt8 :=
  bytesOf "/click?campaign_id=00112233-4455-6677-8899-aabbccddeeff&" ++ bytesOf parameter

/-- The bytes of a request with a path. -/
def sampleClickRequest (path : List UInt8) : List UInt8 :=
  bytesOf "GET " ++ path ++ bytesOf " HTTP/1.1\r\n\r\n"

/-- An encoded blank in a parameter injects nothing. -/
theorem click_redirect_clean_blank :
    let location := bytesOf "http://shop.test/?s=a b&00112233-4455-6677-8899-aabbccddeeffa b"
    clean location = true ∧ crlfLines [] (redirectResponse location) = templateLines location :=
  (click_redirect_clean_iff 1 (sampleClickRequest (sampleClickPath "sub1=a%20b")) [] 1024 83
      (ParsedHTTPRequest.ofLine (bytesOf "GET") (sampleClickPath "sub1=a%20b")) (by decide +kernel) []
      (bytesOf "http://shop.test/?s=\x7bsub1\x7d") (by decide +kernel) uuidNil _
      (by decide +kernel)).mpr
    ⟨by decide +kernel, by decide +kernel⟩

/-- An encoded line break in a parameter adds a header line to the response, whether or not the landing page
has a macro for it. -/
theorem click_redirect_injects :
    let path := sampleClickPath "sub1=%0d%0aSet-Cookie:%20a=b"
    let location := bytesOf "http://shop.test/?00112233-4455-6677-8899-aabbccddeeff\r\nSet-Cookie: a=b"
    parseHTTP1 1 (sampleClickRequest path) 1024 [] =
        .ok (101, ParsedHTTPRequest.ofLine (bytesOf "GET") path) ∧
      clickLocation path [] uuidNil (bytesOf "http://shop.test/") = some location ∧
      clean location = false ∧
      bytesOf "Set-Cookie: a=b" ∈ crlfLines [] (redirectResponse location) := by
  decide +kernel

/-- The unrecognised segments of a query, joined. -/
def joinedUnrecognised (segs : List (List UInt8)) : List UInt8 :=
  intercalate [38] (segs.filter unrecognised)

/-- Segments are joined by one `&` before each but the first. -/
theorem intercalate_cons (seg : List UInt8) (segs : List (List UInt8)) :
    intercalate [38] (seg :: segs) = seg ++ segs.flatMap (38 :: ·) := by
  induction segs generalizing seg with
  | nil => simp [intercalate]
  | cons next rest ih =>
    have hsplit : intercalate [38] (seg :: next :: rest) =
        seg ++ 38 :: intercalate [38] (next :: rest) := by
      simp [intercalate]
    rw [hsplit, ih, flatMap_cons]
    rfl

/-- The decoded values of recognised segments, one after the other. -/
def recognisedValues (segs : List (List UInt8)) : List UInt8 :=
  (segs.filter recognised).flatMap decodedValue

/-- The scratch buffer is longer than the joined segments by the decoded values; segments after a first
one have a separator. -/
theorem length_mixedSegments (first : Bool) (segs : List (List UInt8)) :
    (mixedSegments first segs).length =
      (if first then joinedUnrecognised segs else (segs.filter unrecognised).flatMap (38 :: ·)).length +
        (recognisedValues segs).length := by
  induction segs generalizing first with
  | nil => cases first <;> rfl
  | cons seg rest ih =>
    unfold joinedUnrecognised recognisedValues at ih ⊢
    rw [mixedSegments]
    by_cases hknown : recognised seg = true
    · have hnot : ¬ unrecognised seg = true := fun hunk =>
        (of_decide_eq_true hknown).2 (of_decide_eq_true hunk).2
      rw [if_pos hknown, filter_cons_of_pos hknown, filter_cons_of_neg hnot,
        flatMap_cons, length_append, length_append, ih]
      omega
    rw [if_neg hknown, filter_cons_of_neg hknown]
    by_cases hunk : unrecognised seg = true
    · rw [if_pos hunk, filter_cons_of_pos hunk, intercalate_cons, flatMap_cons,
        length_append, ih, if_neg Bool.false_ne_true]
      cases first <;> simp only [if_true, Bool.false_eq_true, if_false, length_append] <;> omega
    · rw [if_neg hunk, filter_cons_of_neg hunk, ih]

/-- Where `parseClickQuery` succeeds, the pass-through is never the unrecognised segments, joined; and
every location carries the value of a campaign parameter, for which there is no macro. -/
theorem click_passthrough_mixed (path scratch : List UInt8)
    (h : (parseClickQuery path scratch).2.ok = true) :
    (parseClickQuery path scratch).2.passthrough ≠ joinedUnrecognised (clickSegments path) ∧
      ∀ (requestID : UUID) (landing location : List UInt8),
        clickLocation path scratch requestID landing = some location →
          ∃ seg ∈ clickSegments path, matchClickQueryKey (segmentKey seg) = .campaignID ∧
            decodedValue seg ≠ [] ∧ decodedValue seg <:+: location := by
  obtain ⟨hpass, -, -, -, seg, hseg, hknown, hkey, hvalue⟩ := parseClickQuery_ok h
  constructor
  · intro hjoined
    have hlen := length_mixedSegments true (clickSegments path)
    rw [← hpass, hjoined, if_pos rfl] at hlen
    have hnone : recognisedValues (clickSegments path) = [] := length_eq_zero_iff.mp (by omega)
    have hmem := mem_filter.mpr ⟨hseg, hknown⟩
    exact hvalue (flatMap_eq_nil_iff.mp hnone seg hmem)
  · intro requestID landing location hloc
    obtain ⟨-, clickID, userID, subs, -, sep, -, rfl⟩ := clickLocation_some hloc
    refine ⟨seg, hseg, hkey, hvalue, (decodedValue_inside hseg hknown true).trans ?_⟩
    exact ((suffix_cons sep _).trans (suffix_append _ _)).isInfix

/-- The pass-through of a query with one unrecognised parameter holds the campaign beside it. -/
theorem click_passthrough_mixed_sample :
    (parseClickQuery (sampleClickPath "x=1") []).2.passthrough ≠
      joinedUnrecognised (clickSegments (sampleClickPath "x=1")) :=
  (click_passthrough_mixed (sampleClickPath "x=1") [] (by decide +kernel)).1

/-- The redirect of a query with one unrecognised parameter carries the campaign, which the landing page does
not ask for. -/
theorem click_passthrough_leaks :
    (parseClickQuery (sampleClickPath "x=1") []).2.ok = true ∧
      (parseClickQuery (sampleClickPath "x=1") []).2.passthrough =
        bytesOf "00112233-4455-6677-8899-aabbccddeeffx=1" ∧
      joinedUnrecognised (clickSegments (sampleClickPath "x=1")) = bytesOf "x=1" ∧
      clickLocation (sampleClickPath "x=1") [] uuidNil (bytesOf "http://shop.test/") =
        some (bytesOf "http://shop.test/?00112233-4455-6677-8899-aabbccddeeffx=1") := by
  decide +kernel

end

end Espx.Ingestion
