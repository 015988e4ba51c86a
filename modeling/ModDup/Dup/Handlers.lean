import ModDup.Apache
import ModDup.Dup.Send

/-!
# The filters of `mod_dup`

Three filters see one request: the input filter collects the body of the request, the body
filter collects the body of the response, and the headers filter collects its headers and hands
the request over, once the end of the response was seen (`src/filters_dup.cc`).  With the header
`X_DUP_LOG` the body filter hands it over itself.  Each filter has its context, and all three
share the `RequestInfo`, which the first of them that runs creates.  The server calls them in
any order.

## Main definitions

* `DupState`, `DupServer` : one request, and what does not change while it is served.
* `inputFilterHandler`, `outputBodyFilterHandler`, `outputHeadersFilterHandler`.
* `Event`, `DupServer.run` : any sequence of calls, with what happens in between.
* `responseBuckets`, `answerOf`, `HeadersAfterEos` : what the output filters have seen of a
  response.

## Main results

* `initiateDuplication_spec`, `ensureInfo_spec`, `bodyLoop_eq` : what the pieces of a handler do.
-/

namespace ModDup

open Bytes

/-! ### The state of a request -/

/-- The context of a filter: `NULL`, the pointer to the `RequestInfo`, or `-1`. -/
inductive FilterCtx where
  | null
  | info
  | done
  deriving DecidableEq, Repr

/-- The state of one request. -/
structure DupState where
  req : RequestRec
  /-- The object in the request configuration, which the contexts and the queue point to. -/
  info : Option RequestInfo := none
  inputCtx : FilterCtx := .null
  bodyCtx : FilterCtx := .null
  headersCtx : FilterCtx := .null
  /-- The info at each call of `initiateDuplication`. -/
  initiated : List RequestInfo := []
  /-- The info each time it was handed to the processor. -/
  handed : List RequestInfo := []
  /-- How often the info was pushed to the thread pool. -/
  pushed : ℕ := 0
  /-- How often a worker took it from there. -/
  popped : ℕ := 0

/-- What does not change while a request is served. -/
structure DupServer where
  /-- The configuration phase. -/
  ops : List ConfOp
  /-- The address of the configuration object of the location, `none` if there is none. -/
  conf : Option ℕ
  env : Env
  nextReqId : ℕ
  /-- `curl_easy_strerror`. -/
  strerror : ℤ → Bytes

/-- The configuration object at an address. -/
def DupServer.tConf (srv : DupServer) (addr : ℕ) : DupConf := (ConfState.run srv.ops).confs addr

/-- `gProcessor`. -/
def DupServer.gProcessor (srv : DupServer) : RequestProcessor := (ConfState.run srv.ops).proc

/-- Change the info of the request. -/
def DupState.modifyInfo (s : DupState) (f : RequestInfo → RequestInfo) : DupState :=
  { s with info := s.info.map f }

/-- The headers of the response are appended to those collected so far. -/
def DupState.captureHeaders (s : DupState) : DupState :=
  s.modifyInfo fun r => { r with mHeadersOut := r.mHeadersOut ++ s.req.headersOut }

/-- The request asks for the log of its duplication. -/
def hasDupLog (req : RequestRec) : Bool := (aprTableGet req.headersIn (str "X_DUP_LOG")).isSome

/-! ### Handing a request over -/

/-- `strtol` in base 10, for a `long` of 64 bits: white space, a sign and digits; beyond the range
it gives the nearest bound. -/
def strtol (s : Bytes) : ℤ :=
  let digits (t : Bytes) : ℤ := ((ofDecimal 0 (t.takeWhile fun c => (digit? c).isSome)).getD 0 : ℕ)
  let n := match s.dropWhile isSpace with
    | 45 :: t => -digits t
    | 43 :: t => digits t
    | t => digits t
  max (-2 ^ 63) (min n (2 ^ 63 - 1))

/-- `atoi`, which casts what `strtol` gives to `int`. -/
def atoi (s : Bytes) : ℤ := (strtol s).bmod (2 ^ 32)

/-- The number of duplications the request has behind it. -/
def dupCount (req : RequestRec) : ℤ :=
  ((aprTableGet req.headersIn (str "X-DUP-COUNT")).map atoi).getD 0

/-- A request duplicated four times is not duplicated again. -/
def refused (req : RequestRec) : Bool := dupCount req ≥ 4

/-- The headers `prepareRequestInfo` puts in front before it looks at the count, in the order
they have then. -/
def dupHeaders (req : RequestRec) : KeyValList :=
  let method := (aprTableGet req.headersIn (str "X-HTTP-METHOD-OVERRIDE")).getD req.method
  ((aprTableGet req.headersIn (str "Content-Type")).map
    fun contentType => (str "X_DUP_CONTENT_TYPE", contentType)).toList ++
  [(str "X-HTTP-METHOD-OVERRIDE", method), (str "X_DUP_METHOD", method),
    (str "X_DUP_HTTP_STATUS", decimalInt req.status)]

/-- `prepareRequestInfo`, for the configuration object at `addr`; the first component is false
when the request is refused. -/
def prepareRequestInfo (addr : ℕ) (req : RequestRec) (r : RequestInfo) : Bool × RequestInfo :=
  let r := { r with mHeadersIn := dupHeaders req ++ r.mHeadersIn }
  if refused req then (false, r)
  else
    (true, { r with
      mHeadersIn := (str "X-DUP-COUNT", decimalInt (dupCount req + 1)) :: r.mHeadersIn ++
        req.headersIn
      mValidationHeaderDup := r.mValidationHeaderDup || hasDupLog req
      mPoison := false
      mConf := addr
      mMethod := req.method
      mPath := req.uri
      mArgs := req.args.getD [] })

/-- `checkAdditionalHeaders`. -/
def checkAdditionalHeaders (r : RequestInfo) (req : RequestRec) : RequestRec :=
  if !r.mValidationHeaderDup && !r.mValidationHeaderComp then req
  else
    { req with
      headersOut := r.mHeadersOut.foldl (fun t header =>
        if header.1 = str "X_DUP_LOG" then aprTableSet t (str "X_DUP_LOG") (cstr header.2)
        else if header.1 = str "X_COMP_LOG" then aprTableSet t (str "X_COMP_LOG") (cstr header.2)
        else t) req.headersOut }

/-- `checkCurlResponseCompareStatus`. -/
def checkCurlResponseCompareStatus (strerror : ℤ → Bytes) (ri : RequestInfo) (req : RequestRec) :
    RequestRec :=
  if !hasDupLog req then req
  else
    { req with
      headersOut := match ri.mCurlCompResponseHeader.get? (str "X-COMP-STATUS") with
        | some status => aprTableSet req.headersOut (str "X-COMP-STATUS") (cstr status)
        | none =>
          aprTableSet req.headersOut (str "X-COMPARE-STATUS")
            (if ri.mCurlCompResponseStatus = -1 then str "No Duplication, No Comparison"
            else if ri.mCurlCompResponseStatus ≠ 0 then
              cstr (str "NOT REACHED - curl status " ++ strerror ri.mCurlCompResponseStatus)
            else str "Reached Destination - No Comparison") }

namespace DupServer

variable (srv : DupServer)

/-- The info after `runOne`, which does not throw in a configured server. -/
def runOne (ri : RequestInfo) : RequestInfo :=
  ((srv.gProcessor.runOne srv.env ri).map RunState.reqInfo).getD ri

/-- `initiateDuplication`: the processor runs on the request, or it is pushed to the pool. -/
def initiateDuplication (addr : ℕ) (s : DupState) : DupState :=
  match s.info with
  | none => s
  | some ri =>
    let s := { s with initiated := s.initiated ++ [ri] }
    match prepareRequestInfo addr s.req ri with
    -- refused, but the headers put in front so far stay
    | (false, ri) => { s with info := some ri }
    | (true, ri) =>
      let s := { s with handed := s.handed ++ [ri] }
      -- the log can only be given back if the duplication is waited for
      let sync := (srv.tConf addr).synchronous || hasDupLog s.req
      let ri' := if sync then srv.runOne ri else ri
      { s with
        info := some ri'
        pushed := if sync then s.pushed else s.pushed + 1
        req := checkCurlResponseCompareStatus srv.strerror ri' (checkAdditionalHeaders ri' s.req) }

/-! ### The handlers -/

/-- The info is made by the first handler that needs it. -/
def ensureInfo (addr : ℕ) (s : DupState) : DupState :=
  match s.info with
  | some _ => s
  | none =>
    let (r, req) := makeRequestInfo srv.nextReqId s.req
    { s with req := req, info := some { r with mConf := addr, mArgs := req.args.getD [] } }

/-- The loop of `inputFilterHandler`: what it appends to the body.  It stops at the end of the
stream, and at a bucket that cannot be read. -/
def readBody : Brigade → Bytes
  | [] => []
  | .eos :: _ => []
  | .unreadable :: _ => []
  | .metadata :: bs => readBody bs
  | .data content :: bs => content ++ readBody bs

/-- The first call of the input filter takes the info. -/
def openInput (addr : ℕ) (s : DupState) : DupState :=
  if s.inputCtx = .null then { srv.ensureInfo addr s with inputCtx := .info } else s

/-- What `inputFilterHandler` does with what `ap_get_brigade` gives. -/
def readInput (s : DupState) (success : Bool) (pB : Brigade) : DupState :=
  if s.inputCtx = .done then s
  else if !success then { s with inputCtx := .done }
  -- the context stays open, also after the end of the stream
  else s.modifyInfo fun r => { r with mBody := r.mBody ++ readBody pB }

/-- `inputFilterHandler`, where `ap_get_brigade` gives the status and the brigade. -/
def inputFilterHandler (s : DupState) (success : Bool) (pB : Brigade) : DupState :=
  match srv.conf with
  | none => s
  | some addr =>
    if (srv.tConf addr).dirName.isNone then s
    else readInput (srv.openInput addr s) success pB

/-- A location where requests are duplicated. -/
def duplicates (addr : ℕ) : Bool :=
  (srv.tConf addr).dirName.isSome && (srv.tConf addr).mHighestDuplicationType ≠ .none

/-- What `outputBodyFilterHandler` does at the end of the stream: a request with `X_DUP_LOG` is
handed over here. -/
def endOfStream (addr : ℕ) (now : ℤ) (s : DupState) : DupState :=
  let s := s.modifyInfo fun r => r.eosSeen now true
  { (if hasDupLog s.req then srv.initiateDuplication addr s.captureHeaders else s) with
    bodyCtx := .done }

/-- A part of the answer, kept only where some filter asks for the answer. -/
def addAnswer (addr : ℕ) (content : Bytes) (s : DupState) : DupState :=
  if (srv.tConf addr).mHighestDuplicationType = .requestWithAnswer then
    s.modifyInfo fun r => { r with mAnswer := r.mAnswer ++ content }
  else s

/-- The loop of `outputBodyFilterHandler`, which stops at the end of the stream. -/
def bodyLoop (addr : ℕ) (now : ℤ) : Brigade → DupState → DupState
  | [], s => s
  | .eos :: _, s => srv.endOfStream addr now s
  | .metadata :: bs, s => bodyLoop addr now bs s
  | b :: bs, s => bodyLoop addr now bs (srv.addAnswer addr b.content s)

/-- An output filter that comes first makes the info; the body filter keeps it then. -/
def openBody (addr : ℕ) (s : DupState) : DupState :=
  if s.info.isNone then { srv.ensureInfo addr s with bodyCtx := .info } else s

/-- `outputBodyFilterHandler`, called at time `now`. -/
def outputBodyFilterHandler (s : DupState) (now : ℤ) (pBrigade : Brigade) : DupState :=
  match srv.conf with
  | none => s
  | some addr =>
    if s.bodyCtx = .done || !srv.duplicates addr then s
    -- a context without the info it came with
    else if s.info.isNone && s.bodyCtx ≠ .null then { s with bodyCtx := .done }
    else srv.bodyLoop addr now pBrigade (srv.openBody addr s)

/-- What `outputHeadersFilterHandler` does once it has the info. -/
def headersSeen (addr : ℕ) (s : DupState) : DupState :=
  -- before the end of the stream is looked at, so on every call
  let s := s.captureHeaders
  if !s.info.any RequestInfo.mEOS then s
  else { (if hasDupLog s.req then s else srv.initiateDuplication addr s) with headersCtx := .done }

/-- `outputHeadersFilterHandler`, which does not look at its brigade. -/
def outputHeadersFilterHandler (s : DupState) : DupState :=
  if s.headersCtx = .done then s
  else match srv.conf with
    | none => { s with headersCtx := .done }
    | some addr =>
      if !srv.duplicates addr then { s with headersCtx := .done }
      else if s.info.isNone && s.headersCtx ≠ .null then { s with headersCtx := .done }
      else
        srv.headersSeen addr
          (if s.info.isNone then { srv.ensureInfo addr s with headersCtx := .info } else s)

end DupServer

/-! ### Runs -/

/-- What can happen to a request: calls of the three handlers, a change of the response by the
server, and a worker that takes the request from the queue. -/
inductive Event where
  | input (success : Bool) (pB : Brigade)
  | body (now : ℤ) (pBrigade : Brigade)
  | headers
  | server (headersOut : AprTable) (status : ℤ)
  | worker

/-- A call of one of the handlers. -/
def Event.isCall : Event → Bool
  | .input _ _ => true
  | .body _ _ => true
  | .headers => true
  | _ => false

namespace DupServer

variable (srv : DupServer)

/-- One event. -/
def step (s : DupState) : Event → DupState
  | .input success pB => srv.inputFilterHandler s success pB
  | .body now pBrigade => srv.outputBodyFilterHandler s now pBrigade
  | .headers => srv.outputHeadersFilterHandler s
  | .server headersOut status =>
    { s with req := { s.req with headersOut := headersOut, status := status } }
  | .worker =>
    if s.popped < s.pushed then { s.modifyInfo srv.runOne with popped := s.popped + 1 } else s

/-- The state after a sequence of events. -/
def run (req : RequestRec) (es : List Event) : DupState := es.foldl srv.step { req := req }

end DupServer

/-! ### What the body filter has received -/

/-- The buckets an event brings to the body filter. -/
def Event.buckets : Event → Brigade
  | .body _ pBrigade => pBrigade
  | _ => []

/-- All buckets the body filter has received. -/
def responseBuckets (es : List Event) : Brigade := es.flatMap Event.buckets

/-- The answer of a response: its data up to the first end of stream. -/
def answerOf (bs : Brigade) : Bytes := (bs.takeWhile (· ≠ .eos)).flatMap Bucket.content

/-- The headers filter was called after the end of the stream had reached the body filter. -/
def HeadersAfterEos (es : List Event) : Prop :=
  ∃ pre post, es = pre ++ post ∧ .eos ∈ responseBuckets pre ∧ .headers ∈ post

theorem responseBuckets_snoc (es : List Event) (e : Event) :
    responseBuckets (es ++ [e]) = responseBuckets es ++ e.buckets := by
  simp [responseBuckets]

theorem responseBuckets_snoc_of_nil (es : List Event) {e : Event} (he : e.buckets = []) :
    responseBuckets (es ++ [e]) = responseBuckets es := by
  rw [responseBuckets_snoc, he, List.append_nil]

theorem answerOf_append (as bs : Brigade) :
    answerOf (as ++ bs) = if .eos ∈ as then answerOf as else answerOf as ++ answerOf bs := by
  induction as with
  | nil => simp [answerOf]
  | cons a as ih =>
    by_cases ha : a = .eos
    · simp [answerOf, ha]
    · have hcons : ∀ l : Brigade, answerOf (a :: l) = a.content ++ answerOf l := fun l => by
        simp [answerOf, ha]
      rw [List.cons_append, hcons, hcons, ih]
      simp only [List.mem_cons, Ne.symm ha, false_or]
      split_ifs <;> simp

theorem answerOf_snoc_body {es : List Event} (heos : .eos ∉ responseBuckets es) (now : ℤ)
    (bs : Brigade) :
    answerOf (responseBuckets (es ++ [.body now bs])) =
      answerOf (responseBuckets es) ++ answerOf bs := by
  rw [responseBuckets_snoc, answerOf_append, if_neg heos]
  rfl

theorem headersAfterEos_snoc (es : List Event) (e : Event) :
    HeadersAfterEos (es ++ [e]) ↔
      HeadersAfterEos es ∨ (.eos ∈ responseBuckets es ∧ e = .headers) := by
  constructor
  · rintro ⟨pre, post, hes, heos, hmem⟩
    -- the call of the headers filter is the new event, or one before it
    obtain rfl | ⟨post', e', rfl⟩ := post.eq_nil_or_concat'
    · simp at hmem
    · rw [← List.append_assoc] at hes
      obtain ⟨rfl, hlast⟩ := List.append_inj' hes rfl
      obtain rfl : e = e' := by simpa using hlast
      rcases List.mem_append.1 hmem with hmem | hmem
      · exact .inl ⟨pre, post', rfl, heos, hmem⟩
      · refine .inr ⟨?_, (List.mem_singleton.1 hmem).symm⟩
        rw [responseBuckets, List.flatMap_append]
        exact List.mem_append_left _ heos
  · rintro (⟨pre, post, rfl, heos, hmem⟩ | ⟨heos, rfl⟩)
    · exact ⟨pre, post ++ [e], by simp, heos, List.mem_append_left _ hmem⟩
    · exact ⟨es, [.headers], rfl, heos, List.mem_singleton_self _⟩

theorem HeadersAfterEos.eos {es : List Event} (h : HeadersAfterEos es) :
    .eos ∈ responseBuckets es := by
  obtain ⟨pre, post, rfl, heos, -⟩ := h
  rw [responseBuckets, List.flatMap_append]
  exact List.mem_append_left _ heos

/-! ### What each piece of a handler does -/

section Pieces

variable (srv : DupServer) {addr : ℕ} {s : DupState} {r : RequestInfo}

theorem runOne_frame (ri : RequestInfo) :
    (srv.runOne ri).mEOS = ri.mEOS ∧ (srv.runOne ri).mAnswer = ri.mAnswer := by
  obtain ⟨w, hw, hinv⟩ := sendInv_runOne srv.ops srv.env ri
  obtain ⟨comp, hdr, st, hshared⟩ := hinv.shared
  have hrun : srv.runOne ri = w.reqInfo := by
    rw [DupServer.runOne, DupServer.gProcessor, hw]
    rfl
  rw [hrun, hshared]
  exact ⟨rfl, rfl⟩

theorem prepareRequestInfo_fst (addr : ℕ) (req : RequestRec) (r : RequestInfo) :
    (prepareRequestInfo addr req r).1 = !refused req := by
  unfold prepareRequestInfo
  dsimp only
  split_ifs with h <;> simp [h]

theorem prepareRequestInfo_frame (addr : ℕ) (req : RequestRec) (r : RequestInfo) :
    (prepareRequestInfo addr req r).2.mEOS = r.mEOS ∧
      (prepareRequestInfo addr req r).2.mAnswer = r.mAnswer := by
  unfold prepareRequestInfo
  dsimp only
  split_ifs <;> exact ⟨rfl, rfl⟩

theorem check_headersIn (strerror : ℤ → Bytes) (ri : RequestInfo) (req : RequestRec) :
    (checkCurlResponseCompareStatus strerror ri (checkAdditionalHeaders ri req)).headersIn =
      req.headersIn := by
  have hadd : (checkAdditionalHeaders ri req).headersIn = req.headersIn := by
    unfold checkAdditionalHeaders
    split_ifs <;> rfl
  rw [checkCurlResponseCompareStatus, apply_ite RequestRec.headersIn, ite_self, hadd]

/-- What `initiateDuplication` changes: the call is recorded, the info is handed over unless it
is refused, and the contexts stay. -/
theorem initiateDuplication_spec (addr : ℕ) (hr : s.info = some r) :
    ∃ ri' req' pushed', srv.initiateDuplication addr s =
        { s with
          initiated := s.initiated ++ [r]
          handed := if refused s.req then s.handed
            else s.handed ++ [(prepareRequestInfo addr s.req r).2]
          info := some ri', req := req', pushed := pushed' } ∧
      ri'.mEOS = r.mEOS ∧ ri'.mAnswer = r.mAnswer ∧ req'.headersIn = s.req.headersIn ∧
      (hasDupLog s.req = true → pushed' = s.pushed) := by
  have hframe := prepareRequestInfo_frame addr s.req r
  have hfst := prepareRequestInfo_fst addr s.req r
  obtain ⟨ok, ri, hprep⟩ : ∃ ok ri, prepareRequestInfo addr s.req r = (ok, ri) := ⟨_, _, rfl⟩
  rw [hprep] at hframe hfst
  simp only [DupServer.initiateDuplication, hr, hprep]
  cases ok with
  | false =>
    have hrefused : refused s.req = true := by simpa using hfst
    refine ⟨ri, s.req, s.pushed, ?_, hframe.1, hframe.2, rfl, fun _ => rfl⟩
    simp [hrefused]
  | true =>
    have hrefused : refused s.req = false := by simpa using hfst
    have hrun := runOne_frame srv ri
    set sync := (srv.tConf addr).synchronous || hasDupLog s.req with hsync
    set ri' := if sync then srv.runOne ri else ri with hri'
    have hri : ri'.mEOS = ri.mEOS ∧ ri'.mAnswer = ri.mAnswer := by
      rw [hri']
      split_ifs
      · exact hrun
      · exact ⟨rfl, rfl⟩
    refine ⟨ri', checkCurlResponseCompareStatus srv.strerror ri' (checkAdditionalHeaders ri' s.req),
      if sync then s.pushed else s.pushed + 1, ?_, hri.1.trans hframe.1, hri.2.trans hframe.2,
      check_headersIn _ _ _, fun hlog => ?_⟩
    · simp only [hrefused, Bool.false_eq_true, ↓reduceIte]
      rfl
    · simp [hsync, hlog]

theorem addAnswer_addAnswer (a b : Bytes) :
    srv.addAnswer addr b (srv.addAnswer addr a s) = srv.addAnswer addr (a ++ b) s := by
  unfold DupServer.addAnswer DupState.modifyInfo
  split_ifs
  · cases s.info <;> simp
  · rfl

theorem bodyLoop_eq (addr : ℕ) (now : ℤ) (bs : Brigade) (s : DupState) :
    srv.bodyLoop addr now bs s =
      if .eos ∈ bs then srv.endOfStream addr now (srv.addAnswer addr (answerOf bs) s)
      else srv.addAnswer addr (answerOf bs) s := by
  have hnil : ∀ s, srv.addAnswer addr [] s = s := by
    intro s
    unfold DupServer.addAnswer DupState.modifyInfo
    cases h : s.info <;> simp [← h]
  have hread : ∀ (b : Bucket) (bs : Brigade) (s : DupState), b ≠ .eos →
      srv.addAnswer addr (answerOf bs) (srv.addAnswer addr b.content s) =
        srv.addAnswer addr (answerOf (b :: bs)) s := by
    intro b bs s hb
    rw [addAnswer_addAnswer]
    simp [answerOf, hb]
  induction bs generalizing s with
  | nil => simp [DupServer.bodyLoop, answerOf, hnil]
  | cons b bs ih =>
    cases b with
    | eos => simp [DupServer.bodyLoop, answerOf, hnil]
    | metadata =>
      have hcontent : Bucket.content .metadata = [] := rfl
      rw [DupServer.bodyLoop, ih, ← hread _ _ _ (by simp), hcontent, hnil]
      simp
    | data content =>
      rw [DupServer.bodyLoop, ih, hread _ _ _ (by simp)]
      · simp
      · simp
      · simp
    | unreadable =>
      rw [DupServer.bodyLoop, ih, hread _ _ _ (by simp)]
      · simp
      · simp
      · simp

theorem addAnswer_eq (content : Bytes) (hr : s.info = some r) :
    srv.addAnswer addr content s = { s with
      info := some { r with
        mAnswer := if (srv.tConf addr).mHighestDuplicationType = .requestWithAnswer then
          r.mAnswer ++ content else r.mAnswer } } := by
  unfold DupServer.addAnswer DupState.modifyInfo
  split_ifs
  · simp [hr]
  · cases s
    cases hr
    rfl

theorem captureHeaders_eq (hr : s.info = some r) :
    s.captureHeaders =
      { s with info := some { r with mHeadersOut := r.mHeadersOut ++ s.req.headersOut } } := by
  simp [DupState.captureHeaders, DupState.modifyInfo, hr]

theorem ensureInfo_spec (addr : ℕ) (s : DupState) :
    ∃ r req', srv.ensureInfo addr s = { s with req := req', info := some r } ∧
      hasDupLog req' = hasDupLog s.req ∧
      (s.info = some r ∨
        s.info = none ∧ r.mEOS = false ∧ r.mAnswer = [] ∧ r.mHeadersOut = []) := by
  unfold DupServer.ensureInfo
  cases hinfo : s.info with
  | some r =>
    refine ⟨r, s.req, ?_, rfl, .inl rfl⟩
    cases s
    cases hinfo
    rfl
  | none =>
    refine ⟨_, _, rfl, ?_, .inr ⟨rfl, rfl, rfl, rfl⟩⟩
    change hasDupLog (getOrSetUniqueID srv.nextReqId s.req).2 = _
    rw [hasDupLog, aprTableGet_getOrSetUniqueID _ _ (by decide), hasDupLog]

/-- An output filter that makes the info does not change the count of duplications. -/
theorem refused_openBody (addr : ℕ) (s : DupState) :
    refused (srv.openBody addr s).req = refused s.req := by
  unfold DupServer.openBody
  split_ifs with hnone
  · rw [DupServer.ensureInfo, Option.isNone_iff_eq_none.1 hnone]
    change refused (getOrSetUniqueID srv.nextReqId s.req).2 = _
    rw [refused, dupCount, aprTableGet_getOrSetUniqueID _ _ (by decide), refused, dupCount]
  · rfl

/-- It adds the id to the headers of the response, so these are empty only if it finds both the
info and an empty table. -/
theorem headersOut_openBody_eq_nil (addr : ℕ) (s : DupState) :
    (srv.openBody addr s).req.headersOut = [] ↔ s.info ≠ none ∧ s.req.headersOut = [] := by
  unfold DupServer.openBody
  split_ifs with hnone
  · rw [Option.isNone_iff_eq_none] at hnone
    refine iff_of_false ?_ fun h => h.1 hnone
    rw [DupServer.ensureInfo, hnone]
    exact headersOut_getOrSetUniqueID_ne_nil srv.nextReqId s.req
  · rw [Option.isNone_iff_eq_none] at hnone
    simp [hnone]

end Pieces

end ModDup
