import ModDup.Wire
import ModDup.Compare.Input

/-!
# From one server to the other

A request that was duplicated with its answer reaches a server that answers it the same way.
`mod_compare` should have nothing to report then.  But `mod_dup` appends headers of its own to
the answer before it sends it, and `mod_compare` adds one to the local response before it
compares the two.

## Main definitions

* `Exchange` : a duplicated request and the local response to it.
* `Exchange.SameAnswer` : the local response is the original one.
* `Exchange.NoDifference` : nothing is reported.

## Main results

* `noDifference_iff` : what has to cancel out.
* `no_false_positive_iff` : when equal answers are found equal.
-/

namespace ModDup

open Bytes RequestInfo

/-! ### The other side -/

/-- A duplicated request on the comparing server, and its response. -/
structure Exchange where
  env : CompareEnv
  conf : CompareConf
  world : World
  nextReqId : ℕ
  /-- The translate hook is called, the path being no alias. -/
  translated : Bool
  /-- The sizes in which the application reads the request. -/
  reads : List ℕ
  request : RequestRec
  /-- The body of the request. -/
  payload : List Brigade
  /-- The headers and the status of the local response. -/
  headersOut : AprTable
  status : ℤ
  /-- The body of the local response. -/
  response : List Brigade

namespace Exchange

variable (x : Exchange)

/-- The request once it was read. -/
def received : CompareState :=
  receive x.nextReqId x.conf x.translated x.env.now x.reads x.request x.payload

/-- The local response is on its way. -/
def answered : CompareState :=
  { x.received with req := { x.received.req with headersOut := x.headersOut, status := x.status } }

/-- The response went through the output filters. -/
def result : Bool × CompareState × World :=
  respond x.env (some x.conf) x.response x.answered x.world

/-- The request came with `content`, in a location that compares without rules; the local
response is the answer of `orig`, and the application reports nothing either. -/
structure SameAnswer (content : Bytes) (orig : RequestInfo) : Prop where
  payload : CutOf content x.payload
  readable : .unreadable ∉ x.payload.flatten
  reads : x.reads ≠ []
  dup : isDupResponse x.request = true
  uri : find (str "comp_truncate") x.request.uri = none
  noHeaderRules : x.conf.mCompHeader = {}
  noBodyRules : x.conf.mCompBody = {}
  enabled : x.conf.mCompareDisabled = false
  headers : (OrdMap.empty : MapStr).setAll x.headersOut = OrdMap.empty.setAll orig.mHeadersOut
  body : CutOf orig.mAnswer x.response
  status : ∀ r, x.received.info = some r → r.mReqHttpStatus = x.status
  noEntry : ∀ r, x.received.info = some r → checkCassandraDiff x.world r.mId = false

/-- Nothing is reported: no header difference, no body difference, and the log stays. -/
def NoDifference : Prop :=
  ∃ r, x.result.2.1.info = some r ∧
    x.conf.mCompHeader.diffs? r.mResponseHeader r.mDupResponseHeader = some [] ∧
    x.conf.mCompBody.output x.env.dtl r.mResponseBody r.mDupResponseBody = [] ∧
    x.result.2.2.file = x.world.file ∧ x.result.2.2.syslog = x.world.syslog

/-- The headers the local response is compared with: the first output filter adds one. -/
def localHeaders : AprTable :=
  if hasCompLog x.request then
    aprTableSet x.headersOut (str "X-COMP-STATUS") (compStatus x.world x.conf)
  else x.headersOut

end Exchange

theorem mapCompare_empty (m m' : MapStr) :
    ({} : MapCompare).diffs? m m' = some (MapCompare.headerDiffs m m') := by
  have hstop : ∀ m : MapStr, ({} : MapCompare).checkStop m = false := by
    intro m
    simp [MapCompare.checkStop]
  have hignore : ∀ m : MapStr, ({} : MapCompare).applyIgnoreRegex m = m := by
    intro m
    obtain ⟨l, hl⟩ := m
    simp [MapCompare.applyIgnoreRegex, OrdMap.filterMap]
  simp only [MapCompare.diffs?, hstop, hignore, Bool.or_self, Bool.false_eq_true, ↓reduceIte]

theorem outputFilterHandler2_info {env : CompareEnv} {conf : CompareConf} {w : World}
    {s : CompareState} {r : RequestInfo} (hdone : s.done2 = false) (hinfo : s.info = some r)
    (heos : r.mEOS = true) (henabled : conf.mCompareDisabled = false) :
    (outputFilterHandler2 env (some conf) w s).2.1.info = some (fillResponse s.req r) := by
  simp only [outputFilterHandler2, hdone, hinfo, heos, henabled, Bool.not_true, Bool.false_eq_true,
    ↓reduceIte]

/-- What the second output filter finds of an exchange: the state `s` with the info `r`, whose
headers of the original answer are the block `h` and whose other parts are the same on both
sides. -/
structure Exchange.Compared (x : Exchange) (h : Bytes) (s : CompareState) (r : RequestInfo) :
    Prop where
  notDone : s.done2 = false
  info : s.info = some r
  complete : r.mEOS = true
  result : x.result = outputFilterHandler2 x.env (some x.conf) x.world s
  original : (fillResponse s.req r).mResponseHeader = (deserializeHeader .empty h).2
  localHeader : (fillResponse s.req r).mDupResponseHeader =
    (OrdMap.empty : MapStr).setAll x.localHeaders
  body : (fillResponse s.req r).mResponseBody = (fillResponse s.req r).mDupResponseBody
  status : statusDiffers (fillResponse s.req r) = false
  noEntry : checkCassandraDiff x.world r.mId = false

theorem exists_compared {x : Exchange} {orig : RequestInfo} {b h : Bytes}
    (hx : x.SameAnswer (serialize b ++ serialize h ++ serialize orig.mAnswer) orig)
    (hb : b.length < 10 ^ 8) (hh : h.length < 10 ^ 8) (ha : orig.mAnswer.length < 10 ^ 8) :
    ∃ s r, x.Compared h s r := by
  obtain ⟨r, hr⟩ := payloadRead_receive x.nextReqId x.conf x.translated x.env.now hx.reads hx.dup
    hx.payload hx.readable hb hh ha
  change PayloadRead x.request h orig.mAnswer x.received r at hr
  have hlog : hasCompLog x.answered.req = hasCompLog x.request := hr.request.log
  have huri : find (str "comp_truncate") x.answered.req.uri = none :=
    (congrArg (find (str "comp_truncate")) hr.request.uri).trans hx.uri
  -- the request as the second output filter finds it
  set r₁ : RequestInfo :=
    eosSeen { r with mDupResponseBody := r.mDupResponseBody ++ orig.mAnswer } x.env.now true
  set s : CompareState :=
    { x.answered with req := compMark x.world x.conf x.answered.req, info := some r₁ } with hs
  have hout : s.req.headersOut = x.localHeaders := by
    simp only [hs, compMark, Exchange.localHeaders, hlog]
    split_ifs <;> rfl
  have hstatus : s.req.status = x.status := compMark_status x.world x.conf x.answered.req
  refine ⟨s, r₁, hr.done2, rfl, rfl, ?_, hr.original, ?_, ?_, ?_, hx.noEntry r hr.info⟩
  · exact respond_eq (s := x.answered) hr.info hr.eos hr.done1 huri
      (hr.request.dup.trans hx.dup) hx.body
  · rw [← hout, ← hr.header]
    rfl
  · have hlocal : (fillResponse s.req r₁).mDupResponseBody =
        r.mDupResponseBody ++ orig.mAnswer := rfl
    rw [hlocal, hr.body, List.nil_append]
    exact hr.answer
  · have heq : (fillResponse s.req r₁).mReqHttpStatus =
        (fillResponse s.req r₁).mDupResponseHttpStatus := (hx.status r hr.info).trans hstatus.symm
    simp [statusDiffers, heq]

/-- **What has to cancel out.**  Nothing is reported iff the header block of the payload reads as
the headers of the local response, with what the first output filter adds to them. -/
theorem noDifference_iff {x : Exchange} {orig : RequestInfo} {b h : Bytes}
    (hx : x.SameAnswer (serialize b ++ serialize h ++ serialize orig.mAnswer) orig)
    (hb : b.length < 10 ^ 8) (hh : h.length < 10 ^ 8) (ha : orig.mAnswer.length < 10 ^ 8) :
    x.NoDifference ↔
      (deserializeHeader .empty h).2 = (OrdMap.empty : MapStr).setAll x.localHeaders := by
  obtain ⟨s, r, hc⟩ := exists_compared hx hb hh ha
  set r₂ := fillResponse s.req r with hr₂
  have hinfo : x.result.2.1.info = some r₂ := by
    rw [hc.result]
    exact outputFilterHandler2_info hc.notDone hc.info hc.complete hx.enabled
  have hdiffs : x.conf.mCompHeader.diffs? r₂.mResponseHeader r₂.mDupResponseHeader =
      some (MapCompare.headerDiffs (deserializeHeader .empty h).2
        ((OrdMap.empty : MapStr).setAll x.localHeaders)) := by
    rw [hx.noHeaderRules, mapCompare_empty, hc.original, hc.localHeader]
  constructor
  · rintro ⟨r', hr', hnil, -⟩
    obtain rfl : r₂ = r' := Option.some.inj (hinfo.symm.trans hr')
    rw [hdiffs, Option.some.injEq] at hnil
    exact MapCompare.headerDiffs_eq_nil.1 hnil
  · intro heq
    have hstop : NoStop x.conf r₂ := by
      simp [NoStop, hx.noHeaderRules, hx.noBodyRules, MapCompare.checkStop,
        StringCompareBody.checkStopRegex]
    have hsame : ¬ ResponsesDiffer x.conf r₂ := by
      rintro (hne | hne)
      · exact hne (by rw [hc.original, hc.localHeader, heq])
      · exact hne (by rw [hc.body])
    have hworld : x.result.2.2 = x.world := by
      have hflag := (compareResponses_spec x.env hstop).2
      rw [iff_false_right hsame, Bool.not_eq_true] at hflag
      rw [hc.result, outputFilterHandler2_eq hc.notDone hc.info hc.complete hx.enabled hstop,
        ← hr₂, hflag, hc.status, hc.noEntry]
      rfl
    refine ⟨r₂, hinfo, ?_, ?_, by rw [hworld], by rw [hworld]⟩
    · rw [hdiffs, MapCompare.headerDiffs_eq_nil.2 heq]
    · rw [StringCompareBody.output_eq_nil x.env.dtl hstop.2.2.1 hstop.2.2.2, hc.body]

/-! ### What the validation headers change -/

/-- The validation headers of a request that is duplicated; the numbers of destinations and of
attempts are only mentioned for one that is not. -/
theorem validationHeadersDup_matched {fs : List TFilter} (hfs : fs ≠ []) (n m : ℕ) :
    validationHeadersDup fs n m = validationHeadersDup fs 0 0 := by
  simp [validationHeadersDup, xDupLog, hfs]

theorem substituteRequest_mAnswer (u : UrlCodec) (r : RequestInfo) (c : Commands) :
    (substituteRequest u r c).2.mAnswer = r.mAnswer :=
  List.foldlRecOn (motive := fun r' : RequestInfo => r'.mAnswer = r.mAnswer) c.mRawSubstitutions
    rawSubstitute rfl fun _ hr _ _ => hr

/-- What the validation headers write into a header map: the log, and the text that the last
filter matched. -/
theorem get?_setAll_validation (m : MapStr) (fs : List TFilter) (f : TFilter) (k : Bytes) :
    (m.setAll (validationHeadersDup (fs ++ [f]) 0 0)).get? k =
      if k = str "X_DUP_LOG" then some (xDupLog (fs ++ [f]) 0 0)
      else if k = str "X-MATCHED-PATTERN" then some f.mMatch else m.get? k := by
  have hset : m.setAll (validationHeadersDup (fs ++ [f]) 0 0) =
      ((m.setAll (fs.map fun f => (str "X-MATCHED-PATTERN", f.mMatch))).set
        (str "X-MATCHED-PATTERN") f.mMatch).set (str "X_DUP_LOG") (xDupLog (fs ++ [f]) 0 0) := by
    rw [validationHeadersDup, OrdMap.setAll_append, List.map_append, OrdMap.setAll_append]
    rfl
  rw [hset, OrdMap.get?_set, OrdMap.get?_set]
  split_ifs with hlog hpat
  · rfl
  · rfl
  · refine OrdMap.get?_setAll_of_ne m fun e he => ?_
    obtain ⟨g, -, rfl⟩ := List.mem_map.1 he
    exact hpat

/-- The map `m` of an answer absorbs the headers `mod_dup` adds, and the local headers are its
own: it binds the pattern header to the text the last filter matched, the log header to the log,
and the header of the comparing side adds nothing. -/
def Absorbs (m : MapStr) (fs : List TFilter) (localHeaders : AprTable) : Prop :=
  m.get? (str "X-MATCHED-PATTERN") = fs.getLast?.map TFilter.mMatch ∧
    m.get? (str "X_DUP_LOG") = some (xDupLog fs 0 0) ∧
    (OrdMap.empty : MapStr).setAll localHeaders = m

theorem absorbs_iff {x : Exchange} {m : MapStr} (fs : List TFilter) (hfs : fs ≠ [])
    (hm : (OrdMap.empty : MapStr).setAll x.headersOut = m) :
    m.setAll (validationHeadersDup fs 0 0) = (OrdMap.empty : MapStr).setAll x.localHeaders ↔
      Absorbs m fs x.localHeaders := by
  obtain ⟨init, f, rfl⟩ := List.eq_nil_or_concat' fs |>.resolve_left hfs
  -- the header of the comparing side is none of those `mod_dup` adds
  have hlocal : ∀ k, sameName k (str "X-COMP-STATUS") = false →
      ((OrdMap.empty : MapStr).setAll x.localHeaders).get? k = m.get? k := by
    intro k hk
    rw [← hm, Exchange.localHeaders]
    split_ifs
    · exact get?_setAll_set _ _ hk
    · rfl
  have hpat := hlocal (str "X-MATCHED-PATTERN") (by decide)
  have hlog := hlocal (str "X_DUP_LOG") (by decide)
  rw [Absorbs, List.getLast?_concat, Option.map_some]
  constructor
  · intro heq
    rw [← heq, get?_setAll_validation, if_neg (by decide), if_pos rfl] at hpat
    rw [← heq, get?_setAll_validation, if_pos rfl] at hlog
    refine ⟨hpat.symm, hlog.symm, ?_⟩
    rw [← heq]
    refine OrdMap.ext_get? fun k => ?_
    rw [get?_setAll_validation]
    split_ifs with h1 h2
    · rw [h1, ← hlog]
    · rw [h2, ← hpat]
    · rfl
  · rintro ⟨hpat, hlog, heq⟩
    rw [heq]
    refine OrdMap.ext_get? fun k => ?_
    rw [get?_setAll_validation]
    split_ifs with h1 h2
    · rw [h1, hlog]
    · rw [h2, hpat]
    · rfl

/-- The headers that both sides add cancel out: reading those of `mod_dup` into the headers of
the answer gives the headers of the local response, with the one of `mod_compare`. -/
def Cancels (H : KeyValList) (fs : List TFilter) (localHeaders : AprTable) : Prop :=
  (deserializeHeader ((OrdMap.empty : MapStr).setAll H)
    (answerHeaders (validationHeadersDup fs 0 0))).2 = OrdMap.empty.setAll localHeaders

/-- **When equal answers are found equal.**  A request is duplicated with its answer, and the
destination answers the same.  Nothing is reported iff the headers both sides add cancel out; if
the texts in them have no line feed, this is iff the answer had these headers, with the same
values, before. -/
theorem no_false_positive_iff (ops : List ConfOp) (env : Env) (r : RequestInfo)
    (hheaders : ∀ v ∈ r.mHeadersOut, HeaderOk v) :
    ∃ w, (ConfState.run ops).proc.runOne env r = some w ∧
      ∀ call ∈ w.calls, call.matchedFilter.mDuplicationType = .requestWithAnswer →
        ∃ c content,
          (ConfState.run ops).proc.commands? r.mConf call.matchedFilter.mDestination = some c ∧
          call.postFields = some content ∧
          (((ConfState.run ops).proc.sent r c).mBody.length < 10 ^ 8 →
            (answerHeaders ((ConfState.run ops).proc.sent r c).mHeadersOut).length < 10 ^ 8 →
            r.mAnswer.length < 10 ^ 8 →
            ∀ x : Exchange, x.SameAnswer content r →
              (x.NoDifference ↔
                Cancels r.mHeadersOut ((ConfState.run ops).proc.processRequest
                  (r.parsed (ConfState.run ops).proc.mUrlCodec)).1 x.localHeaders) ∧
              ((∀ v ∈ validationHeadersDup ((ConfState.run ops).proc.processRequest
                  (r.parsed (ConfState.run ops).proc.mUrlCodec)).1 0 0, nl ∉ v.2) →
                (x.NoDifference ↔
                  Absorbs (OrdMap.empty.setAll r.mHeadersOut)
                    ((ConfState.run ops).proc.processRequest
                      (r.parsed (ConfState.run ops).proc.mUrlCodec)).1 x.localHeaders))) := by
  obtain ⟨w, hw, hcalls⟩ := runOne_spec ops env r
  refine ⟨w, hw, fun call hcall htype => ?_⟩
  obtain ⟨hmem, c, hc, heq⟩ := hcalls call hcall
  set p := (ConfState.run ops).proc
  set fs := (p.processRequest (r.parsed p.mUrlCodec)).1
  have hfs : fs ≠ [] := List.ne_nil_of_mem hmem
  have hpost : call.postFields = some (dupFormat (p.sent r c)) := by
    rw [heq, curlCall, if_pos htype]
    rfl
  refine ⟨c, dupFormat (p.sent r c), hc, hpost, fun hbody hblock hanswer x hx => ?_⟩
  have hsent : (p.sent r c).mAnswer = r.mAnswer := substituteRequest_mAnswer _ _ _
  have hout : (p.sent r c).mHeadersOut = r.mHeadersOut ++ validationHeadersDup fs 0 0 := by
    obtain ⟨n, m, hsnd⟩ := processRequest_snd p (r.parsed p.mUrlCodec)
    rw [← validationHeadersDup_matched hfs n m]
    exact congrArg RequestInfo.mHeadersOut hsnd
  rw [dupFormat, hsent] at hx
  have hiff := noDifference_iff hx hbody hblock hanswer
  rw [hout, deserializeHeader_append _ hheaders] at hiff
  refine ⟨hiff, fun hnl => ?_⟩
  have hval : ∀ v ∈ validationHeadersDup fs 0 0, HeaderOk v := by
    intro v hv
    have hname : v.1 = str "X-MATCHED-PATTERN" ∨ v.1 = str "X_DUP_LOG" := by
      rcases List.mem_append.1 hv with hv | hv
      · obtain ⟨f, -, rfl⟩ := List.mem_map.1 hv
        exact .inl rfl
      · rw [List.mem_singleton.1 hv]
        exact .inr rfl
    rcases hname with hname | hname <;>
      exact ⟨by rw [hname]; decide, by rw [hname]; decide, hnl v hv⟩
  -- without line feed the validation headers are read as they were written
  rw [deserializeHeader_answerHeaders _ hval] at hiff
  rw [hiff, absorbs_iff fs hfs hx.headers]

/-- A destination that answers as the original server did. -/
def sameServer (content : Bytes) (orig : RequestInfo) : Exchange where
  env := plainEnv
  conf := plainConf
  world := {}
  nextReqId := 7
  translated := true
  reads := [100]
  request :=
    { method := str "POST", uri := str "/p", unparsedUri := str "/p"
      headersIn := [(str "Duplication-Type", str "Response"), (str "X_DUP_HTTP_STATUS", str "200"),
        (str "UNIQUE_ID", str "1")] }
  payload := [[.data content, .eos]]
  headersOut := orig.mHeadersOut
  status := 200
  response := [[.data orig.mAnswer, .eos]]

theorem sameServer_sameAnswer (content : Bytes) (orig : RequestInfo)
    (hstatus : (sameServer content orig).received.info.map RequestInfo.mReqHttpStatus = some 200) :
    (sameServer content orig).SameAnswer content orig where
  payload := ⟨[], [.data content], rfl, by simp, by simp [Bucket.content]⟩
  readable := by simp [sameServer]
  reads := by simp [sameServer]
  dup := rfl
  uri := rfl
  noHeaderRules := rfl
  noBodyRules := rfl
  enabled := rfl
  headers := rfl
  body := ⟨[], [.data orig.mAnswer], rfl, by simp, by simp [Bucket.content]⟩
  status := by
    intro r hr
    rw [hr, Option.map_some, Option.some.injEq] at hstatus
    exact hstatus
  noEntry := fun _ _ => rfl

/-- What is sent for a request of the location `answerOps`. -/
def sentContent (orig : RequestInfo) : Bytes :=
  (((ConfState.run (answerOps (.literal (str "ab")))).proc.runOne quietEnv orig).bind fun w =>
    w.calls.head?.bind CurlCall.postFields).getD []

/-- An answer that carries what `mod_dup` is going to say about it. -/
def annotatedRequest : RequestInfo :=
  { answeredRequest (str "xab") with
    mHeadersOut := [(str "Server", str "a"), (str "X-MATCHED-PATTERN", str "ab"),
      (str "X_DUP_LOG", str "The request is duplicated, " ++
        str "BODY filter: \"ab\" matched: \"ab\" Destination: host")] }

theorem no_false_positive_annotated :
    ∃ w call content,
      (ConfState.run (answerOps (.literal (str "ab")))).proc.runOne quietEnv annotatedRequest =
        some w ∧ call ∈ w.calls ∧ call.postFields = some content ∧
      (sameServer content annotatedRequest).NoDifference := by
  obtain ⟨w, hw, hcalls⟩ := no_false_positive_iff (answerOps (.literal (str "ab"))) quietEnv
    annotatedRequest (by unfold HeaderOk; decide +kernel)
  have hmade : ((ConfState.run (answerOps (.literal (str "ab")))).proc.runOne quietEnv
      annotatedRequest).map (fun w => w.calls.map fun call =>
        (call.matchedFilter.mDuplicationType, call.matchedFilter.mDestination, call.postFields)) =
      some [(.requestWithAnswer, str "host", some (sentContent annotatedRequest))] := by
    decide +kernel
  rw [hw, Option.map_some, Option.some.injEq] at hmade
  obtain ⟨call, hcall, hkind⟩ := List.mem_map.1 (hmade ▸ List.mem_singleton_self _)
  obtain ⟨htype, hdest, hpost⟩ : _ ∧ _ ∧ _ :=
    ⟨(Prod.mk.inj hkind).1, (Prod.mk.inj (Prod.mk.inj hkind).2).1,
      (Prod.mk.inj (Prod.mk.inj hkind).2).2⟩
  obtain ⟨c, content, hc, hpost', hiff⟩ := hcalls call hcall htype
  obtain rfl : sentContent annotatedRequest = content :=
    Option.some.inj (hpost.symm.trans hpost')
  have hsizes : ((ConfState.run (answerOps (.literal (str "ab")))).proc.commands? 1
      (str "host")).all (fun c =>
        let sent := (ConfState.run (answerOps (.literal (str "ab")))).proc.sent annotatedRequest c
        sent.mBody.length < 10 ^ 8 ∧ (answerHeaders sent.mHeadersOut).length < 10 ^ 8) = true := by
    decide +kernel
  rw [← hdest, show (1 : ℕ) = annotatedRequest.mConf from rfl, hc, Option.all_some,
    decide_eq_true_eq] at hsizes
  have hsame := sameServer_sameAnswer (sentContent annotatedRequest) annotatedRequest
    (by decide +kernel)
  have hplain := (hiff hsizes.1 hsizes.2 (by decide) _ hsame).2 (by decide +kernel)
  exact ⟨w, call, sentContent annotatedRequest, hw, hcall, hpost,
    hplain.2 ⟨by decide +kernel, by decide +kernel, rfl⟩⟩

/-- An ordinary answer: `mod_compare` reports the two headers `mod_dup` added. -/
theorem validation_headers_reported :
    ∃ w call content,
      (ConfState.run (answerOps (.literal (str "ab")))).proc.runOne quietEnv
        (answeredRequest (str "xab")) = some w ∧ call ∈ w.calls ∧
      call.matchedFilter.mDuplicationType = .requestWithAnswer ∧ call.postFields = some content ∧
      (sameServer content (answeredRequest (str "xab"))).SameAnswer content
        (answeredRequest (str "xab")) ∧
      ¬ (sameServer content (answeredRequest (str "xab"))).NoDifference := by
  set orig := answeredRequest (str "xab") with horig
  have hmade : ((ConfState.run (answerOps (.literal (str "ab")))).proc.runOne quietEnv orig).map
      (fun w => w.calls.map fun call =>
        (call.matchedFilter.mDuplicationType, call.postFields)) =
      some [(.requestWithAnswer, some (sentContent orig))] := by decide +kernel
  obtain ⟨w, hw, hcalls⟩ := Option.map_eq_some_iff.1 hmade
  obtain ⟨call, hcall, hkind⟩ := List.mem_map.1 (hcalls ▸ List.mem_singleton_self _)
  obtain ⟨htype, hpost⟩ := Prod.mk.inj hkind
  refine ⟨w, call, sentContent orig, hw, hcall, htype, hpost,
    sameServer_sameAnswer _ _ (by decide +kernel), ?_⟩
  rintro ⟨r, hr, hdiff, -⟩
  have hcount : ((sameServer (sentContent orig) orig).result.2.1.info.map fun r =>
      (plainConf.mCompHeader.diffs? r.mResponseHeader r.mDupResponseHeader).map List.length) =
      some (some 2) := by decide +kernel
  rw [hr, Option.map_some, Option.some.injEq] at hcount
  rw [show plainConf = (sameServer (sentContent orig) orig).conf from rfl, hdiff] at hcount
  simp at hcount

end ModDup
