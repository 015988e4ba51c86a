import ModDup.Dup.Once

/-!
# The request that is handed over

The workers get the `RequestInfo` by reference, and the three filters keep theirs.  The output
filters are done by then; the input filter is not, and appends what it reads to a request that
may be on its way already.  What the headers filter collects depends on how often it was called.

## Main definitions

* `Event.Quiet` : an event that leaves the body of the request alone.
* `traverse` : a response that passes both output filters, brigade by brigade.

## Main results

* `handed_over_untouched_iff` : when the request is left alone once it was handed over.
* `handed_traverse` : what is handed over after a response in brigades.
* `handed_eq_iff` : when two ways to cut a response lead to the same duplicated request.
-/

namespace ModDup

open Bytes

/-! ### After the request was handed over -/

/-- What is sent of a request. -/
def sentParts (r : RequestInfo) : Bytes × Bytes × KeyValList × KeyValList × Bytes :=
  (r.mBody, r.mAnswer, r.mHeadersIn, r.mHeadersOut, r.mArgs)

/-- The event is no call of the input filter that has something to append to the body of the
request. -/
def Event.Quiet (s : DupState) : Event → Prop
  | .input success pB => s.inputCtx = .done ∨ success = false ∨ DupServer.readBody pB = []
  | _ => True

section HandOver

variable {srv : DupServer} {addr : ℕ} {req : RequestRec} {es : List Event} {s : DupState}

theorem duplicates_of_pushed (h : 0 < (srv.run req es).pushed) :
    ∃ addr, srv.conf = some addr ∧ srv.duplicates addr = true := by
  by_contra hno
  have hnot : ∀ addr, srv.conf = some addr → srv.duplicates addr = false := by
    intro addr haddr
    by_contra hdup
    exact hno ⟨addr, haddr, by simpa using hdup⟩
  have hzero : (srv.run req es).pushed = 0 :=
    List.foldlRecOn (motive := fun s => s.pushed = 0) es srv.step rfl fun s hs e _ =>
      (idle_step hnot s e).1.trans hs
  omega

/-- One call after the push: the request is left alone iff the call is a quiet one. -/
theorem call_untouched_iff (hpushed : 0 < (srv.run req es).pushed) {e : Event}
    (hcall : e.isCall = true) :
    (srv.step (srv.run req es) e).info.map sentParts = (srv.run req es).info.map sentParts ↔
      e.Quiet (srv.run req es) := by
  obtain ⟨addr, haddr, hdup⟩ := duplicates_of_pushed hpushed
  have hinv := inv_run haddr hdup req es
  set s := srv.run req es
  -- the output filters are done, and the info is there
  have hheaders : s.headersCtx = .done := hinv.pushed hpushed
  have hbody : s.bodyCtx = .done := hinv.bodyDone.2 (hinv.headersDone.1 hheaders).eos
  obtain ⟨r, hr⟩ : ∃ r, s.info = some r := by
    refine Option.ne_none_iff_exists'.1 fun hnone => ?_
    rw [(hinv.fresh hnone).1] at hbody
    cases hbody
  cases e with
  | body now bs =>
    refine iff_of_true ?_ trivial
    simp [DupServer.step, DupServer.outputBodyFilterHandler, haddr, hbody]
  | headers =>
    refine iff_of_true ?_ trivial
    simp [DupServer.step, DupServer.outputHeadersFilterHandler, hheaders]
  | input success pB =>
    have hactive : (srv.tConf addr).dirName.isNone = false := by
      rw [Option.isNone_eq_false_iff]
      exact (Bool.and_eq_true_iff.1 hdup).1
    -- the first call of the filter finds the info there
    have hopen : (srv.openInput addr s).info = some r ∧
        ((srv.openInput addr s).inputCtx = .done ↔ s.inputCtx = .done) := by
      unfold DupServer.openInput DupServer.ensureInfo
      split_ifs with hnull
      · simp [hr, hnull]
      · exact ⟨hr, Iff.rfl⟩
    simp only [DupServer.step, DupServer.inputFilterHandler, haddr, hactive, DupServer.readInput,
      Event.Quiet, hr]
    by_cases hdone : s.inputCtx = .done
    · simp [hdone, hopen]
    · rw [if_neg (by simp), if_neg (fun hd => hdone (hopen.2.1 hd))]
      cases success with
      | false => simp [hopen.1]
      | true =>
        simp [DupState.modifyInfo, hopen.1, hdone, sentParts]
  | server headersOut status => cases hcall
  | worker => cases hcall

/-- **When the hand-over is final.**  In a run no call of a handler touches what is sent of the
request once it was pushed, iff the input filter has nothing left to read then. -/
theorem handed_over_untouched_iff (srv : DupServer) (req : RequestRec) (es : List Event) :
    (∀ pre e post, es = pre ++ e :: post → 0 < (srv.run req pre).pushed → e.isCall = true →
        (srv.run req (pre ++ [e])).info.map sentParts = (srv.run req pre).info.map sentParts) ↔
      ∀ pre e post, es = pre ++ e :: post → 0 < (srv.run req pre).pushed →
        e.Quiet (srv.run req pre) := by
  have hstep : ∀ pre e, srv.run req (pre ++ [e]) = srv.step (srv.run req pre) e := by
    intro pre e
    rw [DupServer.run, List.foldl_append]
    rfl
  constructor
  · intro h pre e post hes hpushed
    cases hcall : e.isCall with
    | true =>
      have huntouched := h pre e post hes hpushed hcall
      rw [hstep] at huntouched
      exact (call_untouched_iff hpushed hcall).1 huntouched
    | false =>
      cases e with
      | input success pB => cases hcall
      | _ => trivial
  · intro h pre e post hes hpushed hcall
    rw [hstep]
    exact (call_untouched_iff hpushed hcall).2 (h pre e post hes hpushed)

end HandOver

/-- The whole response comes before the input filter is called: the body of the request is
appended to a request that the workers already have. -/
theorem body_appended_after_push :
    ¬ ∀ pre e post, [Event.body 0 [.eos], .headers, .input true [.data (str "x"), .eos]] =
        pre ++ e :: post → 0 < (answerServer.run {} pre).pushed → e.isCall = true →
      (answerServer.run {} (pre ++ [e])).info.map sentParts =
        (answerServer.run {} pre).info.map sentParts := by
  intro h
  have := h [.body 0 [.eos], .headers] (.input true [.data (str "x"), .eos]) [] rfl
    (by decide +kernel) rfl
  have hbody := congrArg (Option.map Prod.fst) this
  revert hbody
  decide +kernel

/-! ### Two ways to cut a response -/

/-- Brigades that each pass the body filter and then the headers filter. -/
def traverse (now : ℤ) (bs : List Brigade) : List Event :=
  bs.flatMap fun b => [.body now b, .headers]

/-- The event comes before the response. -/
def Event.isBefore : Event → Bool
  | .input _ _ => true
  | .server _ _ => true
  | _ => false

/-- The info after `n` brigades with the given data: each of them brings the headers again. -/
def DupServer.collected (srv : DupServer) (addr : ℕ) (req : RequestRec) (r : RequestInfo) (n : ℕ)
    (data : Bytes) : RequestInfo :=
  { r with
    mAnswer := if (srv.tConf addr).mHighestDuplicationType = .requestWithAnswer then
      r.mAnswer ++ data else r.mAnswer
    mHeadersOut := r.mHeadersOut ++ (List.replicate n req.headersOut).flatten }

section Cut

variable {srv : DupServer} {addr : ℕ} {s : DupState} {r : RequestInfo}

/-- The request is waiting for its response. -/
structure Waiting (s : DupState) (r : RequestInfo) : Prop where
  info : s.info = some r
  eos : r.mEOS = false
  body : s.bodyCtx ≠ .done
  headers : s.headersCtx ≠ .done

theorem step_body_of_waiting (haddr : srv.conf = some addr) (hdup : srv.duplicates addr = true)
    (hinfo : s.info = some r) (hbody : s.bodyCtx ≠ .done) (now : ℤ) (b : Brigade) :
    srv.step s (.body now b) = srv.bodyLoop addr now b s := by
  simp [DupServer.step, DupServer.outputBodyFilterHandler, haddr, hdup, hbody, DupServer.openBody,
    hinfo]

theorem step_headers_of_waiting (haddr : srv.conf = some addr) (hdup : srv.duplicates addr = true)
    (s : DupState) (hinfo : s.info = some r) (hheaders : s.headersCtx ≠ .done) :
    srv.step s .headers = srv.headersSeen addr s := by
  simp [DupServer.step, DupServer.outputHeadersFilterHandler, haddr, hdup, hheaders, hinfo]

theorem step_brigade (haddr : srv.conf = some addr) (hdup : srv.duplicates addr = true)
    (h : Waiting s r) (now : ℤ) {b : Brigade} (hb : .eos ∉ b) :
    srv.step (srv.step s (.body now b)) .headers =
      { s with info := some (srv.collected addr s.req r 1 (answerOf b)) } := by
  rw [step_body_of_waiting haddr hdup h.info h.body, bodyLoop_eq, if_neg hb,
    addAnswer_eq srv _ h.info, step_headers_of_waiting haddr hdup { s with info := some _ } rfl
    h.headers, DupServer.headersSeen, captureHeaders_eq rfl]
  simp [h.eos, DupServer.collected]

theorem waiting_collected (srv : DupServer) (addr : ℕ) (h : Waiting s r) (n : ℕ) (data : Bytes) :
    Waiting { s with info := some (srv.collected addr s.req r n data) }
      (srv.collected addr s.req r n data) :=
  ⟨rfl, h.eos, h.body, h.headers⟩

theorem collected_collected (req : RequestRec) (r : RequestInfo) (n m : ℕ) (a b : Bytes) :
    srv.collected addr req (srv.collected addr req r n a) m b =
      srv.collected addr req r (n + m) (a ++ b) := by
  simp only [DupServer.collected, List.append_assoc, ← List.flatten_append, List.replicate_add]
  split_ifs <;> simp

theorem foldl_traverse (haddr : srv.conf = some addr) (hdup : srv.duplicates addr = true)
    (h : Waiting s r) (now : ℤ) {bs : List Brigade} (hbs : .eos ∉ bs.flatten) :
    (traverse now bs).foldl srv.step s =
      { s with info := some (srv.collected addr s.req r bs.length (answerOf bs.flatten)) } := by
  induction bs generalizing s r with
  | nil =>
    cases s
    cases h.info
    simp [traverse, DupServer.collected, answerOf]
  | cons b bs ih =>
    rw [List.flatten_cons, List.mem_append, not_or] at hbs
    rw [traverse, List.flatMap_cons, List.foldl_append, List.foldl_cons, List.foldl_cons,
      List.foldl_nil, step_brigade haddr hdup h now hbs.1]
    have hnext := ih (waiting_collected srv addr h 1 (answerOf b)) hbs.2
    rw [traverse] at hnext
    rw [hnext, collected_collected, List.length_cons, Nat.add_comm 1, List.flatten_cons,
      answerOf_append, if_neg hbs.1]

/-- The brigade with the end of the stream: whichever filter hands the request over, it has the
headers once more. -/
theorem handed_last (haddr : srv.conf = some addr) (hdup : srv.duplicates addr = true)
    (h : Waiting s r) (now : ℤ) {b : Brigade} (hb : .eos ∉ b) :
    (srv.step (srv.step s (.body now (b ++ [.eos]))) .headers).handed =
      if refused s.req then s.handed
      else s.handed ++ [(prepareRequestInfo addr s.req
        ((srv.collected addr s.req r 1 (answerOf b)).eosSeen now true)).2] := by
  have hanswer : answerOf (b ++ [.eos]) = answerOf b := by
    rw [answerOf_append, if_neg hb]
    exact List.append_nil _
  rw [step_body_of_waiting haddr hdup h.info h.body, bodyLoop_eq, if_pos (by simp), hanswer,
    addAnswer_eq srv _ h.info]
  unfold DupServer.endOfStream DupState.modifyInfo
  simp only [Option.map_some]
  set r₁ : RequestInfo := RequestInfo.eosSeen { r with
    mAnswer := if (srv.tConf addr).mHighestDuplicationType = .requestWithAnswer then
      r.mAnswer ++ answerOf b else r.mAnswer } now true with hr₁
  set r₂ : RequestInfo := { r₁ with mHeadersOut := r₁.mHeadersOut ++ s.req.headersOut } with hr₂
  have hlast : r₂ = (srv.collected addr s.req r 1 (answerOf b)).eosSeen now true := by
    simp [hr₂, hr₁, DupServer.collected, RequestInfo.eosSeen]
  rw [← hlast]
  obtain ⟨ri, req', pushed', hs, -, -, hreq, -⟩ :=
    initiateDuplication_spec srv addr (s := { s with info := some r₂ }) rfl
  by_cases hlog : hasDupLog s.req = true
  · -- the body filter hands the request over, and the headers filter adds nothing to that
    rw [if_pos hlog, captureHeaders_eq (r := r₁) rfl]
    set t : DupState := { srv.initiateDuplication addr { s with info := some r₂ } with
      bodyCtx := .done } with ht
    have htinfo : t.info = some ri := by rw [ht, hs]
    have htctx : t.headersCtx ≠ .done := by rw [ht, hs]; exact h.headers
    have htlog : hasDupLog t.req = true := by rw [ht, hs, hasDupLog, hreq]; exact hlog
    have hthanded : t.handed = if refused s.req then s.handed
        else s.handed ++ [(prepareRequestInfo addr s.req r₂).2] := by rw [ht, hs]
    rw [← hthanded, step_headers_of_waiting haddr hdup t htinfo htctx, DupServer.headersSeen,
      captureHeaders_eq htinfo]
    simp only [htlog, ↓reduceIte]
    split_ifs <;> rfl
  · -- the headers filter does, after it has collected the headers
    rw [if_neg hlog, step_headers_of_waiting haddr hdup { s with info := some r₁, bodyCtx := .done }
      rfl h.headers, DupServer.headersSeen, captureHeaders_eq (r := r₁) rfl]
    obtain ⟨ri, req', pushed', hs, -⟩ :=
      initiateDuplication_spec srv addr (s := { s with info := some r₂, bodyCtx := .done }) rfl
    have hseen : r₁.mEOS = true := rfl
    simp only [Option.any_some, if_neg hlog]
    rw [if_neg (by simp [hseen]), hs]

/-- What is handed over after a response in brigades: the answer once, the headers as often as
there are brigades. -/
theorem handed_traverse (haddr : srv.conf = some addr) (hdup : srv.duplicates addr = true)
    (h : Waiting s r) (now : ℤ) {data : Bytes} {bs : List Brigade} (hcut : CutOf data bs) :
    ((traverse now bs).foldl srv.step s).handed =
      if refused s.req then s.handed
      else s.handed ++ [(prepareRequestInfo addr s.req
        ((srv.collected addr s.req r bs.length data).eosSeen now true)).2] := by
  obtain ⟨init, last, rfl, heos, rfl⟩ := hcut
  rw [List.mem_append, not_or] at heos
  have hdata : answerOf init.flatten ++ answerOf last =
      (init.flatten ++ last).flatMap Bucket.content := by
    have hall : ∀ bs : Brigade, .eos ∉ bs → answerOf bs = bs.flatMap Bucket.content := by
      intro bs hbs
      rw [answerOf, List.takeWhile_eq_self_iff.2]
      intro b hb
      simpa using ne_of_mem_of_not_mem hb hbs
    rw [List.flatMap_append, hall _ heos.1, hall _ heos.2]
  rw [traverse, List.flatMap_append, List.foldl_append]
  have hinit := foldl_traverse haddr hdup h now heos.1
  rw [traverse] at hinit
  rw [hinit, List.flatMap_singleton, List.foldl_cons, List.foldl_cons, List.foldl_nil,
    handed_last haddr hdup (waiting_collected srv addr h _ _) now heos.2, collected_collected,
    hdata, List.length_append, List.length_singleton]

/-- Nothing of the response was collected or handed over so far. -/
structure BeforeResponse (s : DupState) : Prop where
  handed : s.handed = []
  headersOut : ∀ r, s.info = some r → r.mHeadersOut = []

theorem BeforeResponse.step (h : BeforeResponse s) {e : Event} (he : e.isBefore = true) :
    BeforeResponse (srv.step s e) := by
  cases e with
  | input success pB =>
    simp only [DupServer.step, DupServer.inputFilterHandler]
    cases srv.conf with
    | none => exact h
    | some addr =>
      have hopen : BeforeResponse (srv.openInput addr s) := by
        obtain ⟨r, req', hs, -, hr⟩ := ensureInfo_spec srv addr s
        unfold DupServer.openInput
        split_ifs
        · refine ⟨by rw [hs]; exact h.handed, ?_⟩
          rw [hs]
          rintro _ ⟨⟩
          rcases hr with hr | ⟨-, -, -, hnil⟩
          · exact h.headersOut r hr
          · exact hnil
        · exact h
      simp only [DupServer.readInput]
      split_ifs
      · exact h
      · exact hopen
      · exact ⟨hopen.handed, hopen.headersOut⟩
      · refine ⟨hopen.handed, fun r hr => ?_⟩
        obtain ⟨r', hr', rfl⟩ := Option.map_eq_some_iff.1 hr
        exact hopen.headersOut r' hr'
  | server headersOut status => exact ⟨h.handed, h.headersOut⟩
  | body now bs => cases he
  | headers => cases he
  | worker => cases he

theorem beforeResponse_run (srv : DupServer) (req : RequestRec) {before : List Event}
    (hbefore : ∀ e ∈ before, e.isBefore = true) : BeforeResponse (srv.run req before) :=
  List.foldlRecOn (motive := BeforeResponse) before srv.step ⟨rfl, by simp⟩
    fun _ hs e he => hs.step (hbefore e he)

/-- Before the response both output filters wait, from the first brigade on with the info. -/
theorem waiting_before (haddr : srv.conf = some addr) (hdup : srv.duplicates addr = true)
    (req : RequestRec) {before : List Event} (hbefore : ∀ e ∈ before, e.isBefore = true) :
    (∃ r, r.mHeadersOut = [] ∧ Waiting (srv.openBody addr (srv.run req before)) r) ∧
      (srv.openBody addr (srv.run req before)).handed = [] ∧
      ∀ (now : ℤ) (b : Brigade), srv.step (srv.run req before) (.body now b) =
        srv.step (srv.openBody addr (srv.run req before)) (.body now b) := by
  have hinv := inv_run haddr hdup req before
  have hbef := beforeResponse_run srv req hbefore
  set s := srv.run req before
  have hbuckets : responseBuckets before = [] := by
    refine List.flatMap_eq_nil_iff.2 fun e he => ?_
    have := hbefore e he
    cases e with
    | body now bs => cases this
    | _ => rfl
  have heos : .eos ∉ responseBuckets before := by simp [hbuckets]
  have hbody : s.bodyCtx ≠ .done := fun hd => heos (hinv.bodyDone.1 hd)
  have hheaders : s.headersCtx ≠ .done := fun hd => heos (hinv.headersDone.1 hd).eos
  cases hinfo : s.info with
  | some r =>
    have hopen : srv.openBody addr s = s := by simp [DupServer.openBody, hinfo]
    rw [hopen]
    refine ⟨⟨r, hbef.headersOut r hinfo, hinfo, ?_, hbody, hheaders⟩, hbef.handed, fun now b => rfl⟩
    exact Bool.eq_false_iff.2 fun he => heos ((hinv.eos r hinfo).1 he)
  | none =>
    obtain ⟨r, req', hs, -, hr⟩ := ensureInfo_spec srv addr s
    obtain ⟨-, hnew, -, hout⟩ := hr.resolve_left (by simp [hinfo])
    have hopen : srv.openBody addr s =
        { s with req := req', info := some r, bodyCtx := .info } := by
      simp [DupServer.openBody, hinfo, hs]
    refine ⟨⟨r, hout, ?_⟩, by rw [hopen]; exact hbef.handed, fun now b => ?_⟩
    · rw [hopen]
      exact ⟨rfl, hnew, by simp, hheaders⟩
    · have hright := step_body_of_waiting haddr hdup (s := srv.openBody addr s) (r := r)
        (by rw [hopen]) (by rw [hopen]; simp) now b
      rw [hright]
      simp [DupServer.step, DupServer.outputBodyFilterHandler, haddr, hdup, hinfo,
        (hinv.fresh hinfo).1]

theorem CutOf.ne_nil {data : Bytes} {bs : List Brigade} (h : CutOf data bs) : bs ≠ [] := by
  obtain ⟨init, last, rfl, -⟩ := h
  simp

theorem handed_run (haddr : srv.conf = some addr) (hdup : srv.duplicates addr = true)
    (req : RequestRec) {before : List Event} (hbefore : ∀ e ∈ before, e.isBefore = true) :
    ∃ r, r.mHeadersOut = [] ∧ ∀ (now : ℤ) (data : Bytes) (bs : List Brigade), CutOf data bs →
      (srv.run req (before ++ traverse now bs)).handed =
        if refused (srv.run req before).req then []
        else [(prepareRequestInfo addr (srv.openBody addr (srv.run req before)).req
          ((srv.collected addr (srv.openBody addr (srv.run req before)).req r bs.length
            data).eosSeen now true)).2] := by
  obtain ⟨⟨r, hout, hwait⟩, hnil, hfirst⟩ := waiting_before haddr hdup req hbefore
  refine ⟨r, hout, fun now data bs hcut => ?_⟩
  obtain ⟨b, bs', hbs⟩ := List.exists_cons_of_ne_nil hcut.ne_nil
  have hhanded := handed_traverse haddr hdup hwait now hcut
  rw [hnil, List.nil_append, refused_openBody] at hhanded
  rw [← hhanded, DupServer.run, List.foldl_append, hbs, traverse, List.flatMap_cons,
    List.cons_append, List.foldl_cons, List.foldl_cons]
  exact congrArg (fun s => (List.foldl srv.step s _).handed) (hfirst now b)

/-- The headers of the response when its first brigade comes, with the id of the request. -/
def DupServer.responseHeaders (srv : DupServer) (addr : ℕ) (s : DupState) : AprTable :=
  (srv.openBody addr s).req.headersOut

theorem map_mHeadersOut_handed (haddr : srv.conf = some addr) (hdup : srv.duplicates addr = true)
    (req : RequestRec) {before : List Event} (hbefore : ∀ e ∈ before, e.isBefore = true) (now : ℤ)
    {data : Bytes} {bs : List Brigade} (hcut : CutOf data bs) :
    (srv.run req (before ++ traverse now bs)).handed.map RequestInfo.mHeadersOut =
      if refused (srv.run req before).req then []
      else [(List.replicate bs.length
        (srv.responseHeaders addr (srv.run req before))).flatten] := by
  obtain ⟨r, hout, hhanded⟩ := handed_run haddr hdup req hbefore
  rw [hhanded now data bs hcut]
  by_cases hrefused : refused (srv.run req before).req = true
  · simp [hrefused]
  · simp [hrefused, prepareRequestInfo, refused_openBody, RequestInfo.eosSeen,
      DupServer.collected, hout, DupServer.responseHeaders]

/-- The headers of the response are in the request once iff there was one brigade, or nothing to
collect. -/
theorem headers_once_iff (haddr : srv.conf = some addr) (hdup : srv.duplicates addr = true)
    (req : RequestRec) {before : List Event} (hbefore : ∀ e ∈ before, e.isBefore = true) (now : ℤ)
    {data : Bytes} {bs : List Brigade} (hcut : CutOf data bs) :
    (∀ r ∈ (srv.run req (before ++ traverse now bs)).handed,
        r.mHeadersOut = srv.responseHeaders addr (srv.run req before)) ↔
      bs.length = 1 ∨ srv.responseHeaders addr (srv.run req before) = [] ∨
        refused (srv.run req before).req = true := by
  have hmap := map_mHeadersOut_handed haddr hdup req hbefore now hcut
  set h := srv.responseHeaders addr (srv.run req before)
  rw [← List.forall_mem_map (f := RequestInfo.mHeadersOut) (P := fun l => l = h), hmap]
  by_cases hrefused : refused (srv.run req before).req = true
  · simp [hrefused]
  · rw [if_neg hrefused, List.forall_mem_singleton]
    simp only [hrefused, Bool.false_eq_true, or_false]
    constructor
    · intro heq
      have hlen := congrArg List.length heq
      simpa [mul_left_eq_self₀] using hlen
    · rintro (hone | hnil)
      · simp [hone]
      · simp [hnil]

/-- Two ways to cut a response lead to the same request iff they have as many brigades, or there
is nothing to collect. -/
theorem handed_eq_iff_length (haddr : srv.conf = some addr) (hdup : srv.duplicates addr = true)
    (req : RequestRec) {before : List Event} (hbefore : ∀ e ∈ before, e.isBefore = true) (now : ℤ)
    {data : Bytes} {bs₁ bs₂ : List Brigade} (h₁ : CutOf data bs₁) (h₂ : CutOf data bs₂) :
    (srv.run req (before ++ traverse now bs₁)).handed =
        (srv.run req (before ++ traverse now bs₂)).handed ↔
      bs₁.length = bs₂.length ∨ srv.responseHeaders addr (srv.run req before) = [] ∨
        refused (srv.run req before).req = true := by
  constructor
  · intro heq
    -- the headers of the response are there once for each brigade
    have hout := congrArg (List.map RequestInfo.mHeadersOut) heq
    rw [map_mHeadersOut_handed haddr hdup req hbefore now h₁,
      map_mHeadersOut_handed haddr hdup req hbefore now h₂] at hout
    by_cases hrefused : refused (srv.run req before).req = true
    · exact .inr (.inr hrefused)
    · rw [if_neg hrefused, if_neg hrefused, List.singleton_inj] at hout
      have hlen := congrArg List.length hout
      simpa [hrefused] using hlen
  · obtain ⟨r, -, hhanded⟩ := handed_run haddr hdup req hbefore
    rw [hhanded now data bs₁ h₁, hhanded now data bs₂ h₂]
    rintro (hlen | hnil | hrefused)
    · rw [hlen]
    · rw [DupServer.responseHeaders] at hnil
      simp [DupServer.collected, hnil]
    · rw [if_pos hrefused, if_pos hrefused]

end Cut

/-- **When two ways to cut a response lead to the same duplicated request.**  The headers are
collected again with each brigade, so there have to be as many brigades, and a single one for
each header to be there once, unless there are no headers or the request is not duplicated at
all. -/
theorem handed_eq_iff (srv : DupServer) (addr : ℕ) (req : RequestRec) (before : List Event)
    (now : ℤ) (data : Bytes) (bs₁ bs₂ : List Brigade) (haddr : srv.conf = some addr)
    (hactive : (srv.tConf addr).dirName ≠ none)
    (hhighest : (srv.tConf addr).mHighestDuplicationType ≠ .none)
    (hbefore : ∀ e ∈ before, e.isBefore = true) (h₁ : CutOf data bs₁) (h₂ : CutOf data bs₂) :
    ((srv.run req (before ++ traverse now bs₁)).handed =
          (srv.run req (before ++ traverse now bs₂)).handed ↔
        bs₁.length = bs₂.length ∨
          ((srv.run req before).info ≠ none ∧ (srv.run req before).req.headersOut = []) ∨
          refused (srv.run req before).req = true) ∧
      ((srv.run req (before ++ traverse now bs₁)).handed =
            (srv.run req (before ++ traverse now bs₂)).handed ∧
          (∀ r ∈ (srv.run req (before ++ traverse now bs₁)).handed,
            r.mHeadersOut = srv.responseHeaders addr (srv.run req before)) ↔
        (bs₁.length = 1 ∧ bs₂.length = 1) ∨
          ((srv.run req before).info ≠ none ∧ (srv.run req before).req.headersOut = []) ∨
          refused (srv.run req before).req = true) := by
  have hdup := duplicates_of_active hactive hhighest
  rw [handed_eq_iff_length haddr hdup req hbefore now h₁ h₂,
    headers_once_iff haddr hdup req hbefore now h₁, DupServer.responseHeaders,
    headersOut_openBody_eq_nil]
  refine ⟨Iff.rfl, ?_⟩
  constructor
  · rintro ⟨hlen | hnone, hone | hnone'⟩
    · exact .inl ⟨hone, hlen ▸ hone⟩
    · exact .inr hnone'
    · exact .inr hnone
    · exact .inr hnone
  · rintro (⟨hone, hone'⟩ | hnone)
    · exact ⟨.inl (hone.trans hone'.symm), .inl hone⟩
    · exact ⟨.inr hnone, .inr hnone⟩

/-- One brigade or two, the second case with the headers twice. -/
theorem handed_headers_twice :
    ¬ ((answerServer.run {} (traverse 0 [[.data (str "ab"), .eos]])).handed =
      (answerServer.run {} (traverse 0 [[.data (str "a")], [.data (str "b"), .eos]])).handed) := by
  intro h
  have hlen := congrArg (List.map fun r => r.mHeadersOut.length) h
  revert hlen
  decide +kernel

/-- Two brigades in both cases, cut at different places. -/
theorem handed_eq_same_length :
    (answerServer.run {} (traverse 0 [[.data (str "a")], [.data (str "bc"), .eos]])).handed =
      (answerServer.run {} (traverse 0 [[.data (str "ab")], [.data (str "c"), .eos]])).handed :=
  (handed_eq_iff answerServer 1 {} [] 0 (str "abc") [[.data (str "a")], [.data (str "bc"), .eos]]
    [[.data (str "ab")], [.data (str "c"), .eos]] rfl (by decide) (by decide) (by simp)
    ⟨[[.data (str "a")]], [.data (str "bc")], rfl, by decide, by decide⟩
    ⟨[[.data (str "ab")]], [.data (str "c")], rfl, by decide, by decide⟩).1.2 (.inl rfl)

end ModDup
