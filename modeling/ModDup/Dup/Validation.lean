import ModDup.Dup.Counts
import ModDup.Dup.Once

/-!
# What a synchronous duplication reports

With the header `X_DUP_LOG` a request is duplicated while the client waits, and the answer says how
it went: `performCurlCall` writes the status and the response headers of the destination into the
`RequestInfo` it works on, and `checkCurlResponseCompareStatus` reads them from the one of the
request (`src/RequestProcessor.cc`, `src/filters_dup.cc`).  With substitutions a copy is between the
two.

## Main definitions

* `reported` : status and headers left in the request by the calls made so far.
* `receivedHeaders` : the headers of all responses.
* `Truthful` : what is reported is what happened.

## Main results

* `runOne_reported` : the calls on copies are left out.
* `validation_truthful_iff` : for which configurations and requests the report is true.
* `fresh_run` : in every run a duplication starts with an empty report.
-/

namespace ModDup

open Bytes

/-! ### What is left in the request -/

/-- The destination has substitutions, so its calls work on a copy. -/
def Commands.substitutes (c : Commands) : Bool :=
  c.mSubstitutions.entries ≠ [] || c.mRawSubstitutions ≠ []

/-- The response headers and the status in the request, after calls for the filters `fs`: those on
copies leave nothing. -/
def reported (perform : ℕ → List Bytes × ℤ) (copies : TFilter → Bool) (init : MapStr × ℤ)
    (fs : List TFilter) : MapStr × ℤ :=
  fs.zipIdx.foldl (fun acc call =>
    if copies call.1 then acc
    else ((perform call.2).1.foldl getCurlResponseHeaderCallback acc.1, (perform call.2).2)) init

theorem reported_snoc (perform : ℕ → List Bytes × ℤ) (copies : TFilter → Bool)
    (init : MapStr × ℤ) (fs : List TFilter) (f : TFilter) :
    reported perform copies init (fs ++ [f]) =
      if copies f then reported perform copies init fs
      else ((perform fs.length).1.foldl getCurlResponseHeaderCallback
        (reported perform copies init fs).1, (perform fs.length).2) := by
  rw [reported, List.zipIdx_append, List.foldl_append]
  simp only [List.zipIdx_singleton, List.foldl_cons, List.foldl_nil, Nat.zero_add]
  rfl

/-- The response headers and the status in the request of a run. -/
def RunState.report (w : RunState) : MapStr × ℤ :=
  (w.reqInfo.mCurlCompResponseHeader, w.reqInfo.mCurlCompResponseStatus)

/-- One call more: on a copy it leaves nothing. -/
theorem report_duplicate (w : RunState) (env : Env) (f : TFilter) (c : Commands) :
    (w.duplicate env f c).report = if c.substitutes then w.report
      else ((env.perform w.calls.length).1.foldl getCurlResponseHeaderCallback w.report.1,
        (env.perform w.calls.length).2) := by
  unfold RunState.duplicate Commands.substitutes
  simp only [Bool.or_eq_true, decide_eq_true_eq]
  split_ifs
  · rfl
  · rfl

/-- **What the calls leave in the request.** -/
theorem runOne_reported (ops : List ConfOp) (env : Env) (r : RequestInfo) :
    let p := (ConfState.run ops).proc
    ∃ w, p.runOne env r = some w ∧
      w.report = reported env.perform (fun f => (p.commandsOf r f).substitutes)
        (r.mCurlCompResponseHeader, r.mCurlCompResponseStatus) w.filters := by
  intro p
  set orig := r.parsed p.mUrlCodec
  have hstart : RunState.report { reqInfo := (p.processRequest orig).2, proc := p } =
      (r.mCurlCompResponseHeader, r.mCurlCompResponseStatus) := by
    obtain ⟨n, m, hsnd⟩ := processRequest_snd p orig
    rw [RunState.report, hsnd]
    rfl
  obtain ⟨w, hw, -, hrep⟩ := runOne_invariant (P := fun w =>
    w.report = reported env.perform (fun f => (p.commandsOf r f).substitutes)
      (r.mCurlCompResponseHeader, r.mCurlCompResponseStatus) w.filters) ops env r
    (fun _ _ _ h => h) (fun w f c _ hc _ h => by
      have hcmd : p.commandsOf r f = c := by
        rw [RequestProcessor.commandsOf, hc]
        rfl
      have hlen : w.filters.length = w.calls.length := List.length_map _
      rw [report_duplicate, (RunState.duplicate_spec w env f c).1, reported_snoc, hcmd, ← h, hlen])
    hstart
  exact ⟨w, hw, hrep⟩

/-! ### What is true -/

/-- The headers of the responses to the first `n` calls. -/
def receivedHeaders (perform : ℕ → List Bytes × ℤ) (n : ℕ) : MapStr :=
  ((List.range n).flatMap fun i => (perform i).1).foldl getCurlResponseHeaderCallback .empty

theorem receivedHeaders_succ (perform : ℕ → List Bytes × ℤ) (n : ℕ) :
    receivedHeaders perform (n + 1) =
      (perform n).1.foldl getCurlResponseHeaderCallback (receivedHeaders perform n) := by
  rw [receivedHeaders, List.range_succ, List.flatMap_append, List.foldl_append,
    List.flatMap_singleton]
  rfl

/-- The header `checkCurlResponseCompareStatus` sets. -/
def compareStatus (strerror : ℤ → Bytes) (ri : RequestInfo) : KeyVal :=
  match ri.mCurlCompResponseHeader.get? (str "X-COMP-STATUS") with
  | some status => (str "X-COMP-STATUS", cstr status)
  | none => (str "X-COMPARE-STATUS",
      if ri.mCurlCompResponseStatus = -1 then str "No Duplication, No Comparison"
      else if ri.mCurlCompResponseStatus ≠ 0 then
        cstr (str "NOT REACHED - curl status " ++ strerror ri.mCurlCompResponseStatus)
      else str "Reached Destination - No Comparison")

theorem checkCurlResponseCompareStatus_eq (strerror : ℤ → Bytes) (ri : RequestInfo)
    {req : RequestRec} (h : hasDupLog req = true) :
    checkCurlResponseCompareStatus strerror ri req = { req with
      headersOut := aprTableSet req.headersOut (compareStatus strerror ri).1
        (compareStatus strerror ri).2 } := by
  unfold checkCurlResponseCompareStatus compareStatus
  cases ri.mCurlCompResponseHeader.get? (str "X-COMP-STATUS") with
  | some status => simp [h]
  | none => simp [h]

/-- The report on `n` calls is true: the status is the one of the last call, `-1` only if there is
none; the headers are those received; and so is the header that is set. -/
structure Truthful (strerror : ℤ → Bytes) (perform : ℕ → List Bytes × ℤ) (n : ℕ)
    (ri : RequestInfo) : Prop where
  none : ri.mCurlCompResponseStatus = -1 ↔ n = 0
  last : 0 < n → ri.mCurlCompResponseStatus = (perform (n - 1)).2
  headers : ri.mCurlCompResponseHeader = receivedHeaders perform n
  noDuplication : compareStatus strerror ri =
    (str "X-COMPARE-STATUS", str "No Duplication, No Comparison") ↔ n = 0
  compStatus : ∀ status, (receivedHeaders perform n).get? (str "X-COMP-STATUS") = some status →
    compareStatus strerror ri = (str "X-COMP-STATUS", cstr status)

theorem reported_of_shared (perform : ℕ → List Bytes × ℤ) (copies : TFilter → Bool)
    {fs : List TFilter} (h : ∀ f ∈ fs, copies f = false) :
    (reported perform copies (.empty, -1) fs).1 = receivedHeaders perform fs.length ∧
      (reported perform copies (.empty, -1) fs).2 =
        if fs.length = 0 then -1 else (perform (fs.length - 1)).2 := by
  induction fs using List.reverseRecOn with
  | nil => exact ⟨rfl, rfl⟩
  | append_singleton fs f ih =>
    have hf : copies f = false := h f (by simp)
    obtain ⟨ih1, -⟩ := ih fun g hg => h g (List.mem_append_left _ hg)
    rw [reported_snoc, hf, List.length_append, List.length_singleton, receivedHeaders_succ, ← ih1]
    refine ⟨rfl, ?_⟩
    simp

theorem notReached_ne (text : Bytes) :
    cstr (str "NOT REACHED - curl status " ++ text) ≠ str "No Duplication, No Comparison" := by
  -- they differ in the second byte
  have herror : str "NOT REACHED - curl status " = 78 :: 79 :: str "T REACHED - curl status " := by
    decide +kernel
  have hnone : str "No Duplication, No Comparison" =
      78 :: 111 :: str " Duplication, No Comparison" := by decide +kernel
  rw [herror, hnone]
  simp [cstr]

/-- The header that is set follows from the status and the headers. -/
theorem truthful_of_report {strerror : ℤ → Bytes} {perform : ℕ → List Bytes × ℤ} {n : ℕ}
    {ri : RequestInfo} (hpos : ∀ k, 0 ≤ (perform k).2)
    (hheaders : ri.mCurlCompResponseHeader = receivedHeaders perform n)
    (hstatus : ri.mCurlCompResponseStatus = if n = 0 then -1 else (perform (n - 1)).2) :
    Truthful strerror perform n ri := by
  have hnone : ri.mCurlCompResponseStatus = -1 ↔ n = 0 := by
    rw [hstatus]
    split_ifs with hn
    · simp [hn]
    · have := hpos (n - 1)
      exact ⟨fun h => by omega, fun h => absurd h hn⟩
  refine ⟨hnone, fun hn => ?_, hheaders, ?_, fun status hget => ?_⟩
  · rw [hstatus, if_neg (by omega)]
  · have hname : str "X-COMP-STATUS" ≠ str "X-COMPARE-STATUS" := by decide
    have hreached :
        str "Reached Destination - No Comparison" ≠ str "No Duplication, No Comparison" := by decide
    unfold compareStatus
    cases hget : ri.mCurlCompResponseHeader.get? (str "X-COMP-STATUS") with
    | some status =>
      -- a response was received, so there was a call
      have hn : n ≠ 0 := by
        rintro rfl
        rw [hheaders] at hget
        cases hget
      simp [hname, hn]
    | none =>
      simp only [Prod.mk.injEq, true_and, ← hnone]
      split_ifs with h1 h2
      · simp [h1]
      · simp [h1, notReached_ne]
      · simp [h1, hreached]
  · rw [compareStatus, hheaders, hget]

/-! ### When it is reported -/

/-- The server, with other outcomes of its calls. -/
def DupServer.withOutcomes (srv : DupServer) (perform : ℕ → List Bytes × ℤ) : DupServer :=
  { srv with env := { srv.env with perform := perform } }

theorem initiateDuplication_report (srv : DupServer) (addr : ℕ) {s : DupState} {ri₀ : RequestInfo}
    (hinfo : s.info = some ri₀) (hlog : hasDupLog s.req = true) (hok : refused s.req = false)
    {w : RunState}
    (hw : srv.gProcessor.runOne srv.env (prepareRequestInfo addr s.req ri₀).2 = some w) :
    (srv.initiateDuplication addr s).info = some w.reqInfo ∧
      (srv.initiateDuplication addr s).req.headersOut =
        aprTableSet (checkAdditionalHeaders w.reqInfo s.req).headersOut
          (compareStatus srv.strerror w.reqInfo).1 (compareStatus srv.strerror w.reqInfo).2 := by
  have hfst := prepareRequestInfo_fst addr s.req ri₀
  obtain ⟨ok, ri, hprep⟩ : ∃ ok ri, prepareRequestInfo addr s.req ri₀ = (ok, ri) := ⟨_, _, rfl⟩
  rw [hprep] at hw hfst
  rw [hok] at hfst
  have hrun : srv.runOne ri = w.reqInfo := by
    rw [DupServer.runOne, hw]
    rfl
  have hadd : hasDupLog (checkAdditionalHeaders w.reqInfo s.req) = true := by
    unfold checkAdditionalHeaders
    split_ifs
    · exact hlog
    · exact hlog
  simp only [DupServer.initiateDuplication, hinfo, hprep]
  cases ok with
  | false => cases hfst
  | true =>
    simp only [hlog, Bool.or_true, ↓reduceIte, hrun]
    rw [checkCurlResponseCompareStatus_eq _ _ hadd]
    exact ⟨trivial, rfl⟩

/-- An answer that shows whether it was kept. -/
def compStatusLine : Bytes := str "X-COMP-STATUS: OK"

/-- Only call `i` gets an answer. -/
def answerAt (i : ℕ) (k : ℕ) : List Bytes × ℤ := (if k = i then [compStatusLine] else [], 0)

theorem get?_compStatusLine (m : MapStr) :
    (getCurlResponseHeaderCallback m compStatusLine).get? (str "X-COMP-STATUS") =
      some (str "OK") := by
  have hset : getCurlResponseHeaderCallback m compStatusLine =
      m.set (str "X-COMP-STATUS") (str "OK") := by
    have hline : (cstr compStatusLine).filter (· ≠ 13) = compStatusLine := by decide +kernel
    have hfind : find [58] compStatusLine = some 13 := by decide +kernel
    have hkey : trim (compStatusLine.take 13) = str "X-COMP-STATUS" := by decide +kernel
    have hval : trim (compStatusLine.drop 14) = str "OK" := by decide +kernel
    simp only [getCurlResponseHeaderCallback, hline, hfind, hkey, hval]
  rw [hset, OrdMap.get?_set, if_pos rfl]

theorem get?_receivedHeaders_answerAt {i n : ℕ} (h : i < n) :
    (receivedHeaders (answerAt i) n).get? (str "X-COMP-STATUS") = some (str "OK") := by
  induction n with
  | zero => omega
  | succ n ih =>
    rw [receivedHeaders_succ]
    by_cases hi : n = i
    · subst hi
      simp [answerAt, get?_compStatusLine]
    · simp [answerAt, hi, ih (by omega)]

/-- A call on a copy, and no other, gets an answer: nothing of it is in the request. -/
theorem reported_answerAt (copies : TFilter → Bool) {fs : List TFilter} {i : ℕ} {f : TFilter}
    (hi : fs[i]? = some f) (hf : copies f = true) :
    (reported (answerAt i) copies (.empty, -1) fs).1 = .empty := by
  have hempty : ∀ call ∈ fs.zipIdx, copies call.1 = false → (answerAt i call.2).1 = [] := by
    intro call hcall hshared
    have hget := List.mem_zipIdx_iff_getElem?.1 hcall
    refine if_neg fun hk => ?_
    rw [hk, hi] at hget
    rw [← Option.some.inj hget, hf] at hshared
    cases hshared
  unfold reported
  refine List.foldlRecOn (motive := fun acc : MapStr × ℤ => acc.1 = .empty) _ _ rfl
    fun acc hacc call hcall => ?_
  split_ifs with hcopy
  · exact hacc
  · rw [hempty call hcall (by simpa using hcopy)]
    exact hacc

theorem prepareRequestInfo_report (addr : ℕ) (req : RequestRec) (r : RequestInfo) :
    (prepareRequestInfo addr req r).2.mCurlCompResponseHeader = r.mCurlCompResponseHeader ∧
      (prepareRequestInfo addr req r).2.mCurlCompResponseStatus = r.mCurlCompResponseStatus := by
  unfold prepareRequestInfo
  dsimp only
  split_ifs
  · exact ⟨rfl, rfl⟩
  · exact ⟨rfl, rfl⟩

/-- The calls do not depend on their outcomes, and what they leave in the request is known. -/
theorem runOne_perform (ops : List ConfOp) {env : Env} (hrun : env.StopsAt none)
    {ri : RequestInfo} (hnone : ri.mCurlCompResponseHeader = .empty)
    (hfresh : ri.mCurlCompResponseStatus = -1) (perform : ℕ → List Bytes × ℤ) :
    let p := (ConfState.run ops).proc
    ∃ w, p.runOne { env with perform := perform } ri = some w ∧
      w.filters = planned (p.commandsOf ri) env 0 (p.processRequest (ri.parsed p.mUrlCodec)).1 ∧
      w.report =
        reported perform (fun f => (p.commandsOf ri f).substitutes) (.empty, -1) w.filters := by
  intro p
  have hstop : Env.StopsAt { env with perform := perform } none := hrun
  obtain ⟨w, hw, hfilters, -⟩ := runOne_filters ops hstop ri
  obtain ⟨w', hw', hrep⟩ := runOne_reported ops { env with perform := perform } ri
  obtain rfl : w = w' := Option.some.inj (hw.symm.trans hw')
  rw [hnone, hfresh] at hrep
  refine ⟨w, hw, ?_, hrep⟩
  rw [hfilters, upTo_none]
  apply planned_congr
  rfl

theorem report_lost {w : RunState} {copies : TFilter → Bool} {fs : List TFilter} {i : ℕ}
    {f : TFilter} (hi : fs[i]? = some f) (hcopy : copies f = true) (hfilters : w.filters = fs)
    (hrep : w.report = reported (answerAt i) copies (.empty, -1) w.filters) :
    i < w.calls.length ∧ w.reqInfo.mCurlCompResponseHeader = .empty := by
  constructor
  · rw [← List.length_map CurlCall.matchedFilter]
    change i < w.filters.length
    rw [hfilters]
    exact (List.getElem?_eq_some_iff.1 hi).1
  · have hlost := reported_answerAt copies hi hcopy
    rw [← hfilters, ← hrep] at hlost
    exact hlost

/-- **When a synchronous duplication reports the truth**, whatever the destinations answer: iff no
call is made to a destination with substitutions. -/
theorem validation_truthful_iff (srv : DupServer) (addr : ℕ) (s : DupState) (ri₀ : RequestInfo)
    (hinfo : s.info = some ri₀) (hfresh : ri₀.mCurlCompResponseStatus = -1)
    (hnone : ri₀.mCurlCompResponseHeader = .empty) (hlog : hasDupLog s.req = true)
    (hok : refused s.req = false) (hrun : srv.env.StopsAt none) :
    let p := srv.gProcessor
    let ri := (prepareRequestInfo addr s.req ri₀).2
    (∀ perform : ℕ → List Bytes × ℤ, (∀ k, 0 ≤ (perform k).2) →
      ∃ w, p.runOne { srv.env with perform := perform } ri = some w ∧
        ((srv.withOutcomes perform).initiateDuplication addr s).info = some w.reqInfo ∧
        ((srv.withOutcomes perform).initiateDuplication addr s).req.headersOut =
          aprTableSet (checkAdditionalHeaders w.reqInfo s.req).headersOut
            (compareStatus srv.strerror w.reqInfo).1 (compareStatus srv.strerror w.reqInfo).2 ∧
        Truthful srv.strerror perform w.calls.length w.reqInfo) ↔
      ∀ f ∈ planned (p.commandsOf ri) srv.env 0 (p.processRequest (ri.parsed p.mUrlCodec)).1,
        (p.commandsOf ri f).substitutes = false := by
  intro p ri
  obtain ⟨hheader, hstatus⟩ := prepareRequestInfo_report addr s.req ri₀
  have hcalls : ∀ perform, ∃ w, p.runOne { srv.env with perform := perform } ri = some w ∧
      w.filters =
        planned (p.commandsOf ri) srv.env 0 (p.processRequest (ri.parsed p.mUrlCodec)).1 ∧
      w.report = reported perform (fun f => (p.commandsOf ri f).substitutes) (.empty, -1)
        w.filters := runOne_perform srv.ops hrun (hheader.trans hnone) (hstatus.trans hfresh)
  constructor
  · intro h f hf
    by_contra hcopy
    obtain ⟨i, hi⟩ := List.getElem?_of_mem hf
    obtain ⟨w, hw, -, -, htrue⟩ := h (answerAt i) fun k => le_rfl
    obtain ⟨w', hw', hfilters, hrep⟩ := hcalls (answerAt i)
    obtain rfl : w = w' := Option.some.inj (hw.symm.trans hw')
    obtain ⟨hlen, hlost⟩ := report_lost hi (by simpa using hcopy) hfilters hrep
    have hget := get?_receivedHeaders_answerAt hlen
    rw [← htrue.headers, hlost] at hget
    cases hget
  · intro hshared perform hpos
    obtain ⟨w, hw, hfilters, hrep⟩ := hcalls perform
    obtain ⟨hinfo', hout⟩ := initiateDuplication_report (srv.withOutcomes perform) addr hinfo hlog
      hok hw
    refine ⟨w, hw, hinfo', hout, ?_⟩
    have hlen : w.calls.length = w.filters.length := (List.length_map _).symm
    obtain ⟨hheaders, hstatus⟩ := reported_of_shared perform
      (fun f => (p.commandsOf ri f).substitutes) (by rwa [← hfilters] at hshared)
    rw [← hrep] at hheaders hstatus
    rw [hlen]
    exact truthful_of_report hpos hheaders hstatus

/-- A location with a raw substitution, which is synchronous for a request with `X_DUP_LOG`. -/
def substOps : List ConfOp :=
  [.setCurrentDupDestination 1 (str "host"), .setCurrentDuplicationType 1 .completeRequest,
    .addRawFilter 1 (.literal (str "go")) .regular,
    .addRawSubstitution 1 (.literal (str "go")) (str "went")]

/-- A server whose destination compares, and says so. -/
def comparingServer (ops : List ConfOp) : DupServer where
  ops := ops
  conf := some 1
  env := ⟨fun _ => none, fun _ => true, fun _ => ([compStatusLine], 0)⟩
  nextReqId := 1
  strerror _ := []

/-- A request with `X_DUP_LOG`, before its duplication. -/
def loggedState : DupState where
  req := { headersIn := [(str "X_DUP_LOG", str "on")], args := some (str "q=go") }
  info := some (RequestInfo.make (str "1") 0)

/-- The destination has compared the request, but the client is told that there was neither a
duplication nor a comparison. -/
theorem validation_of_copy_is_lost :
    let srv := comparingServer substOps
    let s := srv.initiateDuplication 1 loggedState
    hasDupLog loggedState.req = true ∧ refused loggedState.req = false ∧
      ((srv.gProcessor.runOne srv.env (prepareRequestInfo 1 loggedState.req
        (RequestInfo.make (str "1") 0)).2).map fun w => w.calls.length) = some 1 ∧
      s.info.map RequestInfo.mCurlCompResponseStatus = some (-1) ∧
      aprTableGet s.req.headersOut (str "X-COMP-STATUS") = none ∧
      aprTableGet s.req.headersOut (str "X-COMPARE-STATUS") =
        some (str "No Duplication, No Comparison") := by
  refine ⟨?_, ?_, ?_, ?_, ?_, ?_⟩
  all_goals decide +kernel

/-- Without the substitution the client gets the answer of the comparison. -/
theorem validation_truthful_shared :
    ∃ w, (comparingServer sampleOps).gProcessor.runOne
        { (comparingServer sampleOps).env with perform := fun _ => ([compStatusLine], 0) }
        (prepareRequestInfo 1 loggedState.req (RequestInfo.make (str "1") 0)).2 = some w ∧
      Truthful (fun _ => []) (fun _ => ([compStatusLine], 0)) w.calls.length w.reqInfo := by
  have hiff := validation_truthful_iff (comparingServer sampleOps) 1 loggedState
    (RequestInfo.make (str "1") 0) rfl rfl rfl (by decide +kernel) (by decide +kernel)
    fun _ => rfl
  have hshared : ∀ b ∈ (planned ((comparingServer sampleOps).gProcessor.commandsOf
        (prepareRequestInfo 1 loggedState.req (RequestInfo.make (str "1") 0)).2)
      (comparingServer sampleOps).env 0 ((comparingServer sampleOps).gProcessor.processRequest
        ((prepareRequestInfo 1 loggedState.req (RequestInfo.make (str "1") 0)).2.parsed
          (comparingServer sampleOps).gProcessor.mUrlCodec)).1).map
        fun f => ((comparingServer sampleOps).gProcessor.commandsOf
          (prepareRequestInfo 1 loggedState.req (RequestInfo.make (str "1") 0)).2 f).substitutes,
      b = false := by
    decide +kernel
  obtain ⟨w, hw, -, -, htrue⟩ := hiff.2 (fun f hf => hshared _ (List.mem_map_of_mem hf))
    (fun _ => ([compStatusLine], 0)) fun _ => le_rfl
  exact ⟨w, hw, htrue⟩

/-! ### Every duplication starts with an empty report -/

/-- No call has reported anything. -/
def RequestInfo.Fresh (r : RequestInfo) : Prop :=
  r.mCurlCompResponseStatus = -1 ∧ r.mCurlCompResponseHeader = .empty

/-- As long as no duplication was started the info is fresh, and so was each info a duplication
was started with. -/
structure FreshInv (s : DupState) : Prop where
  waiting : s.initiated = [] → ∀ r, s.info = some r → r.Fresh
  started : ∀ r ∈ s.initiated, r.Fresh

section Fresh

variable {srv : DupServer} {addr : ℕ} {s : DupState}

theorem FreshInv.modifyInfo (h : FreshInv s) {f : RequestInfo → RequestInfo}
    (hf : ∀ r : RequestInfo, r.Fresh → (f r).Fresh) : FreshInv (s.modifyInfo f) := by
  refine ⟨fun hnil r hr => ?_, h.started⟩
  obtain ⟨r₀, hr₀, rfl⟩ := Option.map_eq_some_iff.1 hr
  exact hf r₀ (h.waiting hnil r₀ hr₀)

theorem FreshInv.ensureInfo (h : FreshInv s) : FreshInv (srv.ensureInfo addr s) := by
  unfold DupServer.ensureInfo
  cases hinfo : s.info with
  | some r => exact h
  | none =>
    refine ⟨fun _ r hr => ?_, h.started⟩
    obtain rfl := Option.some.inj hr
    exact ⟨rfl, rfl⟩

theorem FreshInv.captureHeaders (h : FreshInv s) : FreshInv s.captureHeaders :=
  h.modifyInfo fun _ hr => hr

/-- The first duplication of a request is started with the info it has, which is fresh. -/
theorem FreshInv.initiateDuplication (h : FreshInv s)
    (hone : (srv.initiateDuplication addr s).initiated.length ≤ 1) :
    FreshInv (srv.initiateDuplication addr s) := by
  cases hinfo : s.info with
  | none =>
    rw [DupServer.initiateDuplication, hinfo]
    exact h
  | some r =>
    obtain ⟨ri', req', pushed', hspec, -⟩ := initiateDuplication_spec srv addr hinfo
    rw [hspec] at hone ⊢
    have hnil : s.initiated = [] := by
      rw [List.length_append, List.length_singleton] at hone
      exact List.length_eq_zero_iff.1 (by omega)
    have hr : r.Fresh := h.waiting hnil r hinfo
    refine ⟨fun hne => ?_, fun r' hr' => ?_⟩
    · simp at hne
    · rw [hnil] at hr'
      obtain rfl : r' = r := by simpa using hr'
      exact hr

theorem FreshInv.headersSeen (h : FreshInv s)
    (hone : (srv.headersSeen addr s).initiated.length ≤ 1) : FreshInv (srv.headersSeen addr s) := by
  have hseen := h.captureHeaders
  simp only [DupServer.headersSeen] at hone ⊢
  split_ifs at hone ⊢
  · exact hseen
  · exact ⟨hseen.waiting, hseen.started⟩
  · have hinit := FreshInv.initiateDuplication hseen hone
    exact ⟨hinit.waiting, hinit.started⟩

theorem FreshInv.openInput (h : FreshInv s) : FreshInv (srv.openInput addr s) := by
  unfold DupServer.openInput
  split_ifs
  · exact ⟨h.ensureInfo.waiting, h.ensureInfo.started⟩
  · exact h

theorem FreshInv.inputFilterHandler (h : FreshInv s) (success : Bool) (pB : Brigade) :
    FreshInv (srv.inputFilterHandler s success pB) := by
  simp only [DupServer.inputFilterHandler]
  cases srv.conf with
  | none => exact h
  | some addr =>
    have hopen : FreshInv (srv.openInput addr s) := h.openInput
    simp only [DupServer.readInput]
    split_ifs
    · exact h
    · exact hopen
    · exact ⟨hopen.waiting, hopen.started⟩
    · exact hopen.modifyInfo fun _ hr => hr

theorem FreshInv.openBody (h : FreshInv s) : FreshInv (srv.openBody addr s) := by
  unfold DupServer.openBody
  split_ifs
  · exact ⟨h.ensureInfo.waiting, h.ensureInfo.started⟩
  · exact h

theorem FreshInv.addAnswer (h : FreshInv s) (content : Bytes) :
    FreshInv (srv.addAnswer addr content s) := by
  unfold DupServer.addAnswer
  split_ifs
  · exact h.modifyInfo fun _ hr => hr
  · exact h

theorem FreshInv.endOfStream (h : FreshInv s) {now : ℤ}
    (hone : (srv.endOfStream addr now s).initiated.length ≤ 1) :
    FreshInv (srv.endOfStream addr now s) := by
  have hseen := h.modifyInfo (f := fun r => r.eosSeen now true) fun _ hr => hr
  simp only [DupServer.endOfStream] at hone ⊢
  split_ifs at hone ⊢
  · have hinit := hseen.captureHeaders.initiateDuplication hone
    exact ⟨hinit.waiting, hinit.started⟩
  · exact ⟨hseen.waiting, hseen.started⟩

theorem FreshInv.outputBodyFilterHandler (h : FreshInv s) {now : ℤ} {bs : Brigade}
    (hone : (srv.outputBodyFilterHandler s now bs).initiated.length ≤ 1) :
    FreshInv (srv.outputBodyFilterHandler s now bs) := by
  simp only [DupServer.outputBodyFilterHandler] at hone ⊢
  cases hconf : srv.conf with
  | none => exact h
  | some addr =>
    have hanswer : FreshInv (srv.addAnswer addr (answerOf bs) (srv.openBody addr s)) :=
      h.openBody.addAnswer _
    simp only [hconf, bodyLoop_eq] at hone ⊢
    split_ifs at hone ⊢
    · exact h
    · exact ⟨h.waiting, h.started⟩
    · exact hanswer.endOfStream hone
    · exact hanswer

theorem FreshInv.outputHeadersFilterHandler (h : FreshInv s)
    (hone : (srv.outputHeadersFilterHandler s).initiated.length ≤ 1) :
    FreshInv (srv.outputHeadersFilterHandler s) := by
  have hdone : FreshInv { s with headersCtx := .done } := ⟨h.waiting, h.started⟩
  simp only [DupServer.outputHeadersFilterHandler] at hone ⊢
  by_cases hctx : s.headersCtx = .done
  · rw [if_pos hctx]
    exact h
  rw [if_neg hctx] at hone ⊢
  cases hconf : srv.conf with
  | none => exact hdone
  | some addr =>
    simp only [hconf] at hone ⊢
    by_cases hdup : (!srv.duplicates addr) = true
    · rw [if_pos hdup]
      exact hdone
    rw [if_neg hdup] at hone ⊢
    by_cases hlost : (s.info.isNone && decide (s.headersCtx ≠ .null)) = true
    · rw [if_pos hlost]
      exact hdone
    rw [if_neg hlost] at hone ⊢
    have hopen : FreshInv (if s.info.isNone then
        { srv.ensureInfo addr s with headersCtx := .info } else s) := by
      split_ifs
      · exact ⟨h.ensureInfo.waiting, h.ensureInfo.started⟩
      · exact h
    exact hopen.headersSeen hone

theorem FreshInv.step (h : FreshInv s) (hpushed : s.initiated = [] → s.pushed = 0) (e : Event)
    (hone : (srv.step s e).initiated.length ≤ 1) : FreshInv (srv.step s e) := by
  cases e with
  | input success pB => exact h.inputFilterHandler success pB
  | body now bs => exact h.outputBodyFilterHandler hone
  | headers => exact h.outputHeadersFilterHandler hone
  | server headersOut status => exact ⟨h.waiting, h.started⟩
  | worker =>
    simp only [DupServer.step] at hone ⊢
    split_ifs at hone ⊢ with hpop
    · -- something was pushed, so a duplication was started
      refine ⟨fun hnil => ?_, h.started⟩
      have := hpushed hnil
      omega
    · exact h

/-- **In every run a duplication starts with an empty report.** -/
theorem fresh_run {req : RequestRec} (haddr : srv.conf = some addr)
    (hdup : srv.duplicates addr = true) (es : List Event) : FreshInv (srv.run req es) := by
  induction es using List.reverseRecOn with
  | nil =>
    refine ⟨fun _ r hr => ?_, fun r hr => ?_⟩
    · cases hr
    · cases hr
  | append_singleton es e ih =>
    have hinv := inv_run haddr hdup req es
    have hone : (srv.run req (es ++ [e])).initiated.length ≤ 1 := by
      obtain ⟨-, hnil, -⟩ | ⟨-, r, hr, -⟩ := (inv_run haddr hdup req (es ++ [e])).started
      · simp [hnil]
      · simp [hr]
    have hpushed : (srv.run req es).initiated = [] → (srv.run req es).pushed = 0 := by
      intro hnil
      by_contra hne
      have hafter := hinv.headersDone.1 (hinv.pushed (Nat.pos_of_ne_zero hne))
      obtain ⟨hnot, -, -⟩ | ⟨-, r, hr, -⟩ := hinv.started
      · exact hnot ⟨hafter.eos, .inr hafter⟩
      · rw [hnil] at hr
        cases hr
    rw [DupServer.run, List.foldl_append] at hone ⊢
    exact ih.step hpushed e hone

end Fresh

end ModDup
