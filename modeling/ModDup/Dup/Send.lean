import ModDup.Dup.Substitute

/-!
# Sending the duplicated requests

`runOne` is what a worker does with one request: it parses the query string, decides which
destinations match, and for each of them makes as many curl calls as the percentage of the
destination asks for, on a copy of the request when the destination has substitutions and on
the request itself otherwise (`src/RequestProcessor.cc`).

A curl call is recorded by the options it sets.  What the server, the random generator and the
queue do is given by an `Env`.

## Main definitions

* `dupFormat` : the payload of a request sent with its answer.
* `curlCall`, `performCurlCall` : one call.
* `RequestProcessor.runOne` : all calls for one request.

## Main results

* `sendInv_runOne` : in a configured server `runOne` does not throw, and leaves the request as
  it was up to its frame.
* `runOne_spec` : every call is made with the original request after the substitutions of its
  destination.
* `destinations_do_not_interfere` : what is sent to a destination does not depend on the others.
-/

namespace ModDup

open Bytes

/-- What is outside the worker: the numbers drawn, the state of the queue each time it is read,
and the outcome of each curl call. -/
structure Env where
  /-- `random_r`: the number drawn, `none` if the call fails. -/
  draw : ℕ → Option ℕ
  /-- `stillRunning`. -/
  stillRunning : ℕ → Bool
  /-- `curl_easy_perform`: the header lines handed to the callback, and the code returned. -/
  perform : ℕ → List Bytes × ℤ

/-- `Commands::toDuplicate`, given the draw. -/
def Commands.toDuplicate (c : Commands) (draw : Option ℕ) : Bool :=
  match draw with
  | none => false
  | some randNum => randNum % 100 < c.mDuplicationPercentage % 100

/-- `Commands::toDuplicateInt`: the number of duplications and the number of draws made so far;
a multiple of 100 draws nothing. -/
def Commands.toDuplicateInt (c : Commands) (env : Env) (draws : ℕ) : ℕ × ℕ :=
  let numDups := (c.mDuplicationPercentage - c.mDuplicationPercentage % 100) / 100
  if c.mDuplicationPercentage % 100 ≠ 0 then
    (if c.toDuplicate (env.draw draws) then numDups + 1 else numDups, draws + 1)
  else (numDups, draws)

/-! ### The headers of a call -/

/-- A header line. -/
def headerLine (v : KeyVal) : Bytes := v.1 ++ str ": " ++ v.2

/-- The name in a line of the curl list, if it has a colon. -/
def headerName (data : Bytes) : Option Bytes := (find [58] data).map fun pos => data.take pos

/-- The headers `addOrigHeaders` never copies. -/
def neverCopied : List Bytes :=
  [str "Host", str "Transfer-Encoding", str "Content-Length", str "Duplication-Type"]

/-- The loop of `addOrigHeaders`: a header is copied when its name is not in the set, which it
then joins. -/
def copyHeaders : List Bytes → KeyValList → List Bytes
  | _, [] => []
  | headers, v :: l =>
    if v.1 ∉ headers ∧ v.1 ∉ neverCopied then
      cstr (headerLine v) :: copyHeaders (v.1 :: headers) l
    else copyHeaders headers l

/-- `RequestProcessor::addOrigHeaders`: the headers it appends to `slist`. -/
def addOrigHeaders (rInfo : RequestInfo) (slist : List Bytes) : List Bytes :=
  copyHeaders (slist.filterMap headerName) rInfo.mHeadersIn

/-- `RequestProcessor::addCommonHeaders`. -/
def addCommonHeaders (rInfo : RequestInfo) : List Bytes :=
  [cstr (str "ELAPSED_TIME_BY_DUP: " ++ decimalInt rInfo.mElapsedTime), str "Expect:",
    str "X-DUPLICATED-REQUEST: 1", str "User-RealAgent: mod-dup"]

/-- `RequestProcessor::addValidationHeadersCompare`. -/
def addValidationHeadersCompare (rInfo : RequestInfo) (matchedFilter : TFilter) : List Bytes :=
  if matchedFilter.mDuplicationType = .requestWithAnswer ∧ rInfo.mValidationHeaderDup then
    [str "X_COMP_LOG: ON"]
  else []

/-- The `Content-Length` line of `sendInBody`. -/
def contentLength (toSend : Bytes) : Bytes :=
  str "Content-Length: " ++ decimal toSend.length

/-- The header block of the dup format. -/
def answerHeaders (headersOut : KeyValList) : Bytes :=
  headersOut.flatMap fun v => headerLine v ++ [nl]

/-- The content `sendDupFormat` builds: request body, answer headers and answer body. -/
def dupFormat (rInfo : RequestInfo) : Bytes :=
  RequestInfo.serialize rInfo.mBody ++ RequestInfo.serialize (answerHeaders rInfo.mHeadersOut) ++
    RequestInfo.serialize rInfo.mAnswer

/-- The lines `sendDupFormat` adds before it sends the body. -/
def dupFormatHeaders (rInfo : RequestInfo) : List Bytes :=
  [str "Content-Type: application/x-dup-serialized", str "Duplication-Type: Response"] ++
    (rInfo.mHeadersOut.filter fun v => v.1 = str "X-MATCHED-PATTERN").map
      fun v => cstr (headerLine v)

/-! ### One call -/

/-- The options of one curl call. -/
structure CurlCall where
  /-- The filter the call is made for. -/
  matchedFilter : TFilter
  /-- `CURLOPT_URL`. -/
  url : Bytes
  /-- The headers of the call before those of the request are copied. -/
  slist : List Bytes
  /-- The headers copied from the request, which come after. -/
  origHeaders : List Bytes
  /-- `CURLOPT_POSTFIELDS`; without it the call is a GET. -/
  postFields : Option Bytes

/-- What `performCurlCall` asks curl to send. -/
def curlCall (matchedFilter : TFilter) (rInfo : RequestInfo) : CurlCall :=
  let uri := matchedFilter.mDestination ++ rInfo.mPath ++ str "?" ++ rInfo.mArgs
  let slist := addCommonHeaders rInfo ++ addValidationHeadersCompare rInfo matchedFilter
  if matchedFilter.mDuplicationType = .requestWithAnswer then
    let content := dupFormat rInfo
    let slist := slist ++ dupFormatHeaders rInfo ++ [contentLength content]
    ⟨matchedFilter, cstr uri, slist, addOrigHeaders rInfo slist, some content⟩
  else if matchedFilter.mDuplicationType = .completeRequest ∧ rInfo.hasBody then
    let slist := slist ++ [contentLength rInfo.mBody]
    ⟨matchedFilter, cstr uri, slist, addOrigHeaders rInfo slist, some rInfo.mBody⟩
  else ⟨matchedFilter, cstr uri, slist, addOrigHeaders rInfo slist, none⟩

/-- `getCurlResponseHeaderCallback`: a line without colon is its own key and value. -/
def getCurlResponseHeaderCallback (lresponseHeader : MapStr) (buffer : Bytes) : MapStr :=
  let lheaderLine := (cstr buffer).filter (· ≠ 13)
  match find [58] lheaderLine with
  | none => lresponseHeader.set (trim lheaderLine) (trim lheaderLine)
  | some pos =>
    lresponseHeader.set (trim (lheaderLine.take pos)) (trim (lheaderLine.drop (pos + 1)))

/-- `CURLE_OPERATION_TIMEDOUT`. -/
def curleOperationTimedout : ℤ := 28

/-- What `performCurlCall` does to the request it is given: the flag set by
`addValidationHeadersCompare`, and the answer of the destination. -/
def afterCurlCall (env : Env) (n : ℕ) (matchedFilter : TFilter) (rInfo : RequestInfo) :
    RequestInfo :=
  { rInfo with
    mValidationHeaderComp := rInfo.mValidationHeaderComp ||
      (matchedFilter.mDuplicationType = .requestWithAnswer && rInfo.mValidationHeaderDup)
    mCurlCompResponseHeader :=
      (env.perform n).1.foldl getCurlResponseHeaderCallback rInfo.mCurlCompResponseHeader
    mCurlCompResponseStatus := (env.perform n).2 }

/-! ### All calls of a request -/

/-- The state of `runOne`. -/
structure RunState where
  /-- The request, shared by all calls. -/
  reqInfo : RequestInfo
  /-- The processor, for its counters. -/
  proc : RequestProcessor
  /-- Draws made so far. -/
  draws : ℕ := 0
  /-- How often the state of the queue was read. -/
  polls : ℕ := 0
  /-- The calls made so far. -/
  calls : List CurlCall := []

namespace RunState

/-- `performCurlCall` on `rInfo`: the call is recorded, and counted if it timed out. -/
def performCurlCall (w : RunState) (env : Env) (matchedFilter : TFilter) (rInfo : RequestInfo) :
    RunState :=
  { w with
    calls := w.calls ++ [curlCall matchedFilter rInfo]
    proc := { w.proc with
      mTimeoutCount :=
        if (env.perform w.calls.length).2 = curleOperationTimedout then w.proc.mTimeoutCount + 1
        else w.proc.mTimeoutCount } }

/-- One turn of the inner loop of `runOne`.  Without substitutions no copy is made: the call
works on the shared request. -/
def duplicate (w : RunState) (env : Env) (f : TFilter) (c : Commands) : RunState :=
  let w' := if c.mSubstitutions.entries ≠ [] ∨ c.mRawSubstitutions ≠ [] then
      -- the answer of the destination goes into the copy and is lost with it
      w.performCurlCall env f (substituteRequest w.proc.mUrlCodec w.reqInfo c).2
    else
      { w.performCurlCall env f w.reqInfo with
        reqInfo := afterCurlCall env w.calls.length f w.reqInfo }
  { w' with proc := { w'.proc with mDuplicatedCount := w'.proc.mDuplicatedCount + 1 } }

/-- The inner loop of `runOne`, left as soon as the queue is stopped. -/
def duplicateLoop (env : Env) (f : TFilter) (c : Commands) : ℕ → RunState → RunState
  | 0, w => w
  | n + 1, w =>
    if env.stillRunning w.polls then
      duplicateLoop env f c n ({ w with polls := w.polls + 1 }.duplicate env f c)
    else { w with polls := w.polls + 1 }

/-- The body of the outer loop of `runOne`; `none` when `at` throws. -/
def sendFor (env : Env) (w : RunState) (it : TFilter) : Option RunState :=
  (w.proc.commands? w.reqInfo.mConf it.mDestination).map fun c =>
    let (numDups, draws) := c.toDuplicateInt env w.draws
    duplicateLoop env it c numDups { w with draws := draws }

end RunState

/-- The request once `runOne` has parsed its query string. -/
def RequestInfo.parsed (r : RequestInfo) (u : UrlCodec) : RequestInfo :=
  { r with mParsedArgs := r.mParsedArgs ++ parseArgs u r.mArgs }

/-- `RequestProcessor::runOne`. -/
def RequestProcessor.runOne (p : RequestProcessor) (env : Env) (reqInfo : RequestInfo) :
    Option RunState :=
  let (matchedFilters, reqInfo) := p.processRequest (reqInfo.parsed p.mUrlCodec)
  matchedFilters.foldlM (RunState.sendFor env) { reqInfo := reqInfo, proc := p }

/-! ### What the calls leave alone -/

/-- A request with other answer headers and another outcome of the calls: the fields that
`processRequest` and `performCurlCall` write. -/
def RequestInfo.frame (r : RequestInfo) (headersOut : KeyValList) (comp : Bool) (hdr : MapStr)
    (status : ℤ) : RequestInfo :=
  { r with
    mHeadersOut := headersOut, mValidationHeaderComp := comp, mCurlCompResponseHeader := hdr
    mCurlCompResponseStatus := status }

theorem rawSubstitute_frame (l : List TSubstitute) (r : RequestInfo) (H : KeyValList) (comp : Bool)
    (hdr : MapStr) (st : ℤ) :
    l.foldl rawSubstitute (r.frame H comp hdr st) =
      (l.foldl rawSubstitute r).frame H comp hdr st := by
  induction l generalizing r with
  | nil => rfl
  | cons s l ih => exact ih (rawSubstitute r s)

/-- Substitutions neither read nor write the frame. -/
theorem substituteRequest_frame (u : UrlCodec) (r : RequestInfo) (c : Commands) (H : KeyValList)
    (comp : Bool) (hdr : MapStr) (st : ℤ) :
    (substituteRequest u (r.frame H comp hdr st) c).2 =
      ((substituteRequest u r c).2).frame H comp hdr st :=
  rawSubstitute_frame c.mRawSubstitutions (keySubstituteRequest u r c.mSubstitutions).2 H comp hdr
    st

/-- Nor does a call read the outcome of the calls before it. -/
theorem curlCall_frame (f : TFilter) (r : RequestInfo) (H : KeyValList) (comp : Bool)
    (hdr : MapStr) (st : ℤ) :
    curlCall f (r.frame H comp hdr st) = curlCall f { r with mHeadersOut := H } := rfl

theorem substituteRequest_of_empty {u : UrlCodec} {r : RequestInfo} {c : Commands}
    (h1 : c.mSubstitutions.entries = []) (h2 : c.mRawSubstitutions = []) :
    (substituteRequest u r c).2 = r := by
  simp [substituteRequest, keySubstituteRequest, keySubOn, h1, h2]

section Run

variable {p : RequestProcessor} {orig : RequestInfo} {H : KeyValList} {fs : List TFilter}

/-- A call made as it should: for one of the matched filters, with the original request after
the substitutions of the destination and with the validation headers. -/
def CallOk (p : RequestProcessor) (orig : RequestInfo) (H : KeyValList) (fs : List TFilter)
    (call : CurlCall) : Prop :=
  call.matchedFilter ∈ fs ∧
    ∃ c, p.commands? orig.mConf call.matchedFilter.mDestination = some c ∧
      call = curlCall call.matchedFilter
        { (substituteRequest p.mUrlCodec orig c).2 with mHeadersOut := H }

/-- The invariant of `runOne`: the shared request is the original one up to its frame, and all
calls so far are as they should be. -/
structure SendInv (p : RequestProcessor) (orig : RequestInfo) (H : KeyValList) (fs : List TFilter)
    (w : RunState) : Prop where
  commands : w.proc.mCommands = p.mCommands
  codec : w.proc.mUrlCodec = p.mUrlCodec
  shared : ∃ comp hdr st, w.reqInfo = orig.frame H comp hdr st
  calls : ∀ call ∈ w.calls, CallOk p orig H fs call

theorem curlCall_matchedFilter (f : TFilter) (r : RequestInfo) :
    (curlCall f r).matchedFilter = f := by
  unfold curlCall
  split_ifs <;> rfl

theorem duplicate_calls (w : RunState) (env : Env) (f : TFilter) (c : Commands) :
    (w.duplicate env f c).calls =
      w.calls ++ [curlCall f (substituteRequest w.proc.mUrlCodec w.reqInfo c).2] := by
  unfold RunState.duplicate
  split_ifs with h
  · rfl
  · rw [not_or, not_not, not_not] at h
    rw [substituteRequest_of_empty h.1 h.2]
    rfl

theorem sendInv_duplicate {w : RunState} (hw : SendInv p orig H fs w) (env : Env) {f : TFilter}
    (hf : f ∈ fs) {c : Commands} (hc : p.commands? orig.mConf f.mDestination = some c) :
    SendInv p orig H fs (w.duplicate env f c) := by
  obtain ⟨comp, hdr, st, hshared⟩ := hw.shared
  refine ⟨?_, ?_, ?_, fun call hcall => ?_⟩
  · unfold RunState.duplicate; split_ifs <;> exact hw.commands
  · unfold RunState.duplicate; split_ifs <;> exact hw.codec
  · unfold RunState.duplicate
    split_ifs
    · exact ⟨comp, hdr, st, hshared⟩
    · simp only [hshared]
      exact ⟨_, _, _, rfl⟩
  · rw [duplicate_calls, List.mem_append, List.mem_singleton] at hcall
    rcases hcall with hcall | rfl
    · exact hw.calls call hcall
    · rw [CallOk, curlCall_matchedFilter]
      refine ⟨hf, c, hc, ?_⟩
      rw [hw.codec, hshared, substituteRequest_frame, curlCall_frame]

theorem sendInv_duplicateLoop (env : Env) {f : TFilter} (hf : f ∈ fs) {c : Commands}
    (hc : p.commands? orig.mConf f.mDestination = some c) (n : ℕ) {w : RunState}
    (hw : SendInv p orig H fs w) : SendInv p orig H fs (RunState.duplicateLoop env f c n w) := by
  induction n generalizing w with
  | zero => exact hw
  | succ n ih =>
    -- the queue is read before every turn
    have hw' : SendInv p orig H fs { w with polls := w.polls + 1 } :=
      ⟨hw.commands, hw.codec, hw.shared, hw.calls⟩
    simp only [RunState.duplicateLoop]
    split_ifs
    · exact ih (sendInv_duplicate hw' env hf hc)
    · exact hw'

theorem sendFor_eq (env : Env) {f : TFilter} {c : Commands}
    (hc : p.commands? orig.mConf f.mDestination = some c) {w : RunState}
    (hw : SendInv p orig H fs w) :
    RunState.sendFor env w f = some (RunState.duplicateLoop env f c (c.toDuplicateInt env w.draws).1
      { w with draws := (c.toDuplicateInt env w.draws).2 }) := by
  obtain ⟨comp, hdr, st, hshared⟩ := hw.shared
  have hcmd : w.proc.commands? w.reqInfo.mConf f.mDestination = some c := by
    rw [← hc, hshared, RequestProcessor.commands?, hw.commands]
    rfl
  rw [RunState.sendFor, hcmd, Option.map_some]

/-- **The rule for `runOne`**: what every call keeps, and what does not depend on the draws and
the reads of the queue, is kept by the loops; the invariant may be used on the way. -/
theorem foldlM_invariant {P : RunState → Prop} (env : Env)
    (hread : ∀ w polls draws, P w → P { w with polls := polls, draws := draws })
    (hcall : ∀ w f c, f ∈ fs → p.commands? orig.mConf f.mDestination = some c →
      SendInv p orig H fs w → P w → P (w.duplicate env f c))
    (hfs : ∀ f ∈ fs, (p.commands? orig.mConf f.mDestination).isSome) {l : List TFilter}
    (hl : l ⊆ fs) {w : RunState} (hw : SendInv p orig H fs w) (hP : P w) :
    ∃ w', l.foldlM (RunState.sendFor env) w = some w' ∧ SendInv p orig H fs w' ∧ P w' := by
  -- the inner loop first
  have hloop : ∀ f ∈ fs, ∀ c, p.commands? orig.mConf f.mDestination = some c → ∀ n w,
      SendInv p orig H fs w → P w → P (RunState.duplicateLoop env f c n w) := by
    intro f hf c hc n
    induction n with
    | zero => exact fun w _ hP => hP
    | succ n ih =>
      intro w hw hP
      have hw' : SendInv p orig H fs { w with polls := w.polls + 1 } :=
        ⟨hw.commands, hw.codec, hw.shared, hw.calls⟩
      have hP' : P { w with polls := w.polls + 1 } := hread w (w.polls + 1) w.draws hP
      simp only [RunState.duplicateLoop]
      split_ifs
      · exact ih _ (sendInv_duplicate hw' env hf hc) (hcall _ f c hf hc hw' hP')
      · exact hP'
  induction l generalizing w with
  | nil => exact ⟨w, rfl, hw, hP⟩
  | cons f l ih =>
    obtain ⟨hf, hl⟩ := List.cons_subset.1 hl
    obtain ⟨c, hc⟩ := Option.isSome_iff_exists.1 (hfs f hf)
    have hw' : SendInv p orig H fs { w with draws := (c.toDuplicateInt env w.draws).2 } :=
      ⟨hw.commands, hw.codec, hw.shared, hw.calls⟩
    obtain ⟨w', hrun, hinv, hP'⟩ := ih hl (sendInv_duplicateLoop env hf hc _ hw')
      (hloop f hf c hc _ _ hw' (hread w w.polls _ hP))
    refine ⟨w', ?_, hinv, hP'⟩
    rw [List.foldlM_cons, sendFor_eq env hc hw]
    exact hrun

end Run

theorem mem_processRequest {ops : List ConfOp} {r : RequestInfo} {f : TFilter}
    (h : f ∈ ((ConfState.run ops).proc.processRequest r).1) :
    ∃ c, (ConfState.run ops).proc.commands? r.mConf f.mDestination = some c ∧
      matchesFilter (ConfState.run ops).proc.mUrlCodec r c = some f := by
  rw [RequestProcessor.processRequest_fst, List.mem_filterMap] at h
  obtain ⟨d, -, hd⟩ := h
  obtain ⟨c, hc, hf⟩ := Option.bind_eq_some_iff.1 hd
  rw [(RequestProcessor.matched?_run hd).1]
  exact ⟨c, hc, hf⟩

theorem processRequest_snd (p : RequestProcessor) (r : RequestInfo) :
    ∃ n m, (p.processRequest r).2 = { r with
      mHeadersOut := r.mHeadersOut ++ validationHeadersDup (p.processRequest r).1 n m } := by
  unfold RequestProcessor.processRequest
  cases p.mCommands.get? r.mConf with
  | none => exact ⟨0, 0, rfl⟩
  | some cbd => exact ⟨_, _, rfl⟩

theorem sendInv_start (p : RequestProcessor) (orig : RequestInfo) :
    SendInv p orig (p.processRequest orig).2.mHeadersOut (p.processRequest orig).1
      { reqInfo := (p.processRequest orig).2, proc := p } := by
  obtain ⟨n, m, hsnd⟩ := processRequest_snd p orig
  exact ⟨rfl, rfl, ⟨_, _, _, by rw [hsnd]; rfl⟩, by simp⟩

/-- The rule for `runOne` of a configured server, which does not throw. -/
theorem runOne_invariant {P : RunState → Prop} (ops : List ConfOp) (env : Env) (r : RequestInfo) :
    let p := (ConfState.run ops).proc
    let orig := r.parsed p.mUrlCodec
    let Inv := SendInv p orig (p.processRequest orig).2.mHeadersOut (p.processRequest orig).1
    (∀ w polls draws, P w → P { w with polls := polls, draws := draws }) →
    (∀ w f c, f ∈ (p.processRequest orig).1 → p.commands? r.mConf f.mDestination = some c →
      Inv w → P w → P (w.duplicate env f c)) →
    P { reqInfo := (p.processRequest orig).2, proc := p } →
      ∃ w, p.runOne env r = some w ∧ Inv w ∧ P w := by
  intro p orig Inv hread hcall hstart
  have hfs : ∀ f ∈ (p.processRequest orig).1, (p.commands? orig.mConf f.mDestination).isSome := by
    intro f hf
    obtain ⟨c, hc, -⟩ := mem_processRequest hf
    rw [hc]
    rfl
  exact foldlM_invariant env hread hcall hfs (List.Subset.refl _) (sendInv_start p orig) hstart

theorem sendInv_runOne (ops : List ConfOp) (env : Env) (r : RequestInfo) :
    ∃ w, (ConfState.run ops).proc.runOne env r = some w ∧
      SendInv (ConfState.run ops).proc (r.parsed (ConfState.run ops).proc.mUrlCodec)
        ((ConfState.run ops).proc.processRequest
          (r.parsed (ConfState.run ops).proc.mUrlCodec)).2.mHeadersOut
        ((ConfState.run ops).proc.processRequest
          (r.parsed (ConfState.run ops).proc.mUrlCodec)).1 w := by
  obtain ⟨w, hw, hinv, -⟩ := runOne_invariant (P := fun _ => True) ops env r
    (fun _ _ _ _ => trivial) (fun _ _ _ _ _ _ _ => trivial) trivial
  exact ⟨w, hw, hinv⟩

/-- Every call is made for a matched filter, with the original request after the substitutions
of its destination. -/
theorem runOne_spec (ops : List ConfOp) (env : Env) (r : RequestInfo) :
    ∃ w, (ConfState.run ops).proc.runOne env r = some w ∧
      ∀ call ∈ w.calls,
        CallOk (ConfState.run ops).proc (r.parsed (ConfState.run ops).proc.mUrlCodec)
          ((ConfState.run ops).proc.processRequest
            (r.parsed (ConfState.run ops).proc.mUrlCodec)).2.mHeadersOut
          ((ConfState.run ops).proc.processRequest
            (r.parsed (ConfState.run ops).proc.mUrlCodec)).1 call := by
  obtain ⟨w, hw, hinv⟩ := sendInv_runOne ops env r
  exact ⟨w, hw, hinv.calls⟩

/-! ### The headers copied from the request -/

theorem copyHeaders_congr {hs hs' : List Bytes} (h : ∀ x, x ∈ hs ↔ x ∈ hs') (l : KeyValList) :
    copyHeaders hs l = copyHeaders hs' l := by
  induction l generalizing hs hs' with
  | nil => rfl
  | cons v l ih =>
    simp only [copyHeaders, h v.1]
    split_ifs
    · have hcons : ∀ x, x ∈ v.1 :: hs ↔ x ∈ v.1 :: hs' := fun x => by simp [h x]
      rw [ih hcons]
    · exact ih h

theorem headerName_line (name : Bytes) (hcolon : 58 ∉ name) (hnul : 0 ∉ name) (s : Bytes) :
    headerName (cstr (name ++ 58 :: s)) = some name := by
  have hcstr : cstr (name ++ 58 :: s) = name ++ 58 :: cstr s := by
    unfold cstr
    rw [List.takeWhile_append_of_pos fun c hc => by simpa using ne_of_mem_of_not_mem hc hnul]
    rfl
  rw [headerName, hcstr, find_singleton _ hcolon]
  simp

/-- The names of the headers a call sets itself. -/
def ownNames (t : DuplicationType) (validation : Bool) (body : Bytes) : List Bytes :=
  [str "ELAPSED_TIME_BY_DUP", str "Expect", str "X-DUPLICATED-REQUEST", str "User-RealAgent"] ++
    match t with
    | .requestWithAnswer =>
      (if validation then [str "X_COMP_LOG"] else []) ++ [str "Content-Type",
        str "Duplication-Type", str "X-MATCHED-PATTERN", str "Content-Length"]
    | .completeRequest => if body ≠ [] then [str "Content-Length"] else []
    | _ => []

theorem names_addCommonHeaders (r : RequestInfo) :
    (addCommonHeaders r).filterMap headerName =
      [str "ELAPSED_TIME_BY_DUP", str "Expect", str "X-DUPLICATED-REQUEST",
        str "User-RealAgent"] := by
  -- the literal is taken apart by evaluation: unification would compare the two as strings
  have htext : str "ELAPSED_TIME_BY_DUP: " = str "ELAPSED_TIME_BY_DUP" ++ 58 :: str " " := by
    decide +kernel
  have h : headerName (cstr (str "ELAPSED_TIME_BY_DUP: " ++ decimalInt r.mElapsedTime)) =
      some (str "ELAPSED_TIME_BY_DUP") := by
    rw [htext, List.append_assoc]
    exact headerName_line (str "ELAPSED_TIME_BY_DUP") (by decide) (by decide) _
  simp only [addCommonHeaders, List.filterMap_cons, h]
  rfl

theorem headerName_contentLength (s : Bytes) :
    headerName (contentLength s) = some (str "Content-Length") := by
  have htext : str "Content-Length: " = str "Content-Length" ++ 58 :: str " " := by decide +kernel
  rw [headerName, contentLength, htext, List.append_assoc, List.cons_append,
    find_singleton _ (by decide)]
  simp

/-- The pattern headers give one name, when there is such a header. -/
theorem mem_names_dupFormatHeaders {r : RequestInfo}
    (h : str "X-MATCHED-PATTERN" ∈ r.mHeadersOut.map Prod.fst) (x : Bytes) :
    x ∈ (dupFormatHeaders r).filterMap headerName ↔
      x ∈ [str "Content-Type", str "Duplication-Type", str "X-MATCHED-PATTERN"] := by
  have hname : ∀ v : KeyVal, v.1 = str "X-MATCHED-PATTERN" →
      headerName (cstr (headerLine v)) = some (str "X-MATCHED-PATTERN") := by
    rintro ⟨k, v⟩ rfl
    exact headerName_line (str "X-MATCHED-PATTERN") (by decide) (by decide) (str " " ++ v)
  have hpat : x ∈ ((r.mHeadersOut.filter fun v => v.1 = str "X-MATCHED-PATTERN").map
      fun v => cstr (headerLine v)).filterMap headerName ↔ x = str "X-MATCHED-PATTERN" := by
    simp only [List.filterMap_map, List.mem_filterMap, List.mem_filter, decide_eq_true_eq,
      Function.comp]
    constructor
    · rintro ⟨v, ⟨-, hv⟩, hx⟩
      rw [hname v hv] at hx
      exact (Option.some.inj hx).symm
    · rintro rfl
      obtain ⟨v, hv, hk⟩ := List.mem_map.1 h
      exact ⟨v, ⟨hv, hk⟩, hname v hk⟩
  rw [dupFormatHeaders, List.filterMap_append, List.mem_append, hpat]
  have hfix : [str "Content-Type: application/x-dup-serialized",
      str "Duplication-Type: Response"].filterMap headerName =
      [str "Content-Type", str "Duplication-Type"] := by decide
  rw [hfix]
  simp [or_assoc]

theorem curlCall_origHeaders {f : TFilter} {r : RequestInfo}
    (h : str "X-MATCHED-PATTERN" ∈ r.mHeadersOut.map Prod.fst) :
    (curlCall f r).origHeaders =
      copyHeaders (ownNames f.mDuplicationType r.mValidationHeaderDup r.mBody) r.mHeadersIn := by
  have hcomp : (addValidationHeadersCompare r f).filterMap headerName =
      if f.mDuplicationType = .requestWithAnswer ∧ r.mValidationHeaderDup then
        [str "X_COMP_LOG"] else [] := by
    unfold addValidationHeadersCompare
    split_ifs <;> rfl
  have hlen : ∀ b, [contentLength b].filterMap headerName = [str "Content-Length"] := fun b => by
    simp [headerName_contentLength]
  unfold curlCall
  split_ifs with h1 h2
  · refine copyHeaders_congr (fun x => ?_) _
    simp only [List.filterMap_append, List.mem_append, names_addCommonHeaders, hcomp, hlen,
      mem_names_dupFormatHeaders h, ownNames, h1, true_and]
    split_ifs <;> simp [or_assoc]
  · refine copyHeaders_congr (fun x => ?_) _
    simp only [List.filterMap_append, names_addCommonHeaders, hcomp, hlen, ownNames, h2.1]
    simp [show r.mBody ≠ [] by simpa [RequestInfo.hasBody] using h2.2]
  · refine copyHeaders_congr (fun x => ?_) _
    simp only [List.filterMap_append, names_addCommonHeaders, hcomp, ownNames, h1, false_and]
    cases ht : f.mDuplicationType with
    | completeRequest =>
      have : r.mBody = [] := by simpa [ht, RequestInfo.hasBody] using h2
      simp [this]
    | requestWithAnswer => exact absurd ht h1
    | _ => simp

/-- The request body a call carries: the first section of the dup format, the whole content of
a complete request, nothing otherwise. -/
def CurlCall.Carries (call : CurlCall) (body : Bytes) : Prop :=
  match call.matchedFilter.mDuplicationType with
  | .requestWithAnswer =>
    ∃ rest, call.postFields = some (RequestInfo.serialize body ++ rest)
  | .completeRequest => call.postFields = if body ≠ [] then some body else none
  | _ => call.postFields = none

theorem curlCall_carries (f : TFilter) (r : RequestInfo) : (curlCall f r).Carries r.mBody := by
  rw [CurlCall.Carries, curlCall_matchedFilter]
  cases ht : f.mDuplicationType with
  | requestWithAnswer => exact ⟨_, by simp [curlCall, ht, dupFormat]; rfl⟩
  | completeRequest =>
    by_cases hb : r.mBody = [] <;> simp [curlCall, ht, hb, RequestInfo.hasBody]
  | _ => simp [curlCall, ht]

theorem curlCall_url (f : TFilter) (r : RequestInfo) :
    (curlCall f r).url = cstr (f.mDestination ++ r.mPath ++ str "?" ++ r.mArgs) := by
  unfold curlCall
  split_ifs <;> rfl

/-- What a call sends of the request `s` it is made from. -/
def CurlCall.Sends (call : CurlCall) (s : RequestInfo) : Prop :=
  call.url = cstr (call.matchedFilter.mDestination ++ s.mPath ++ str "?" ++ s.mArgs) ∧
    call.origHeaders = copyHeaders
      (ownNames call.matchedFilter.mDuplicationType s.mValidationHeaderDup s.mBody) s.mHeadersIn ∧
    call.Carries s.mBody

theorem CallOk.sends {p : RequestProcessor} {orig : RequestInfo} {call : CurlCall}
    (h : CallOk p orig (p.processRequest orig).2.mHeadersOut (p.processRequest orig).1 call) :
    ∃ c, p.commands? orig.mConf call.matchedFilter.mDestination = some c ∧
      call.Sends (substituteRequest p.mUrlCodec orig c).2 := by
  obtain ⟨hmem, c, hc, hcall⟩ := h
  refine ⟨c, hc, ?_⟩
  set f := call.matchedFilter
  -- the destination of the call matched, so there is a pattern header
  have hpat : str "X-MATCHED-PATTERN" ∈ (p.processRequest orig).2.mHeadersOut.map Prod.fst := by
    obtain ⟨n, m, hsnd⟩ := processRequest_snd p orig
    rw [hsnd, List.map_append, List.mem_append, validationHeadersDup, List.map_append,
      List.mem_append, List.map_map]
    exact .inr (.inl (List.mem_map.2 ⟨f, hmem, rfl⟩))
  refine ⟨?_, ?_, ?_⟩
  · rw [hcall, curlCall_url, curlCall_matchedFilter]
  · rw [hcall, curlCall_matchedFilter]
    exact curlCall_origHeaders hpat
  · rw [hcall]
    exact curlCall_carries _ _

/-- **Destinations do not interfere.**  Every call for a destination sends the path, query
string, body and input headers of the original request after the substitutions of that
destination, applied once.  Two servers that agree on the commands of a destination send it
the same, whatever their other destinations are and whatever is drawn. -/
theorem destinations_do_not_interfere (ops : List ConfOp) (env : Env) (r : RequestInfo) :
    ∃ w, (ConfState.run ops).proc.runOne env r = some w ∧
      (∀ call ∈ w.calls, ∃ c,
        (ConfState.run ops).proc.commands? r.mConf call.matchedFilter.mDestination = some c ∧
        call.Sends (substituteRequest (ConfState.run ops).proc.mUrlCodec
          (r.parsed (ConfState.run ops).proc.mUrlCodec) c).2) ∧
      ∀ (ops' : List ConfOp) (env' : Env),
        (ConfState.run ops').proc.mUrlCodec = (ConfState.run ops).proc.mUrlCodec →
        ∃ w', (ConfState.run ops').proc.runOne env' r = some w' ∧
          ∀ d, (ConfState.run ops').proc.commands? r.mConf d =
              (ConfState.run ops).proc.commands? r.mConf d →
            ∀ call ∈ w.calls, ∀ call' ∈ w'.calls,
              call.matchedFilter.mDestination = d → call'.matchedFilter.mDestination = d →
                call'.url = call.url ∧ call'.origHeaders = call.origHeaders ∧
                  ∃ body, call.Carries body ∧ call'.Carries body := by
  obtain ⟨w, hw, hcalls⟩ := runOne_spec ops env r
  -- a call depends on the commands of its destination only, so two servers can be compared
  refine ⟨w, hw, fun call hcall => (hcalls call hcall).sends, fun ops' env' hcodec => ?_⟩
  obtain ⟨w', hw', hcalls'⟩ := runOne_spec ops' env' r
  refine ⟨w', hw', fun d hd call hcall call' hcall' hdest hdest' => ?_⟩
  -- both calls are for the same filter: it is matched against the same commands
  have hfilter : call'.matchedFilter = call.matchedFilter := by
    obtain ⟨c₁, hc₁, hf₁⟩ := mem_processRequest (hcalls call hcall).1
    obtain ⟨c₂, hc₂, hf₂⟩ := mem_processRequest (hcalls' call' hcall').1
    rw [hdest] at hc₁
    rw [hdest'] at hc₂
    have hcc : c₂ = c₁ := Option.some.inj (hc₂.symm.trans (hd.trans hc₁))
    rw [hcodec, hcc] at hf₂
    exact Option.some.inj (hf₂.symm.trans hf₁)
  obtain ⟨c₁, hc₁, hurl, horig, hbody⟩ := (hcalls call hcall).sends
  obtain ⟨c₂, hc₂, hurl', horig', hbody'⟩ := (hcalls' call' hcall').sends
  rw [hdest] at hc₁
  rw [hdest'] at hc₂
  have hcc : c₂ = c₁ := Option.some.inj (hc₂.symm.trans (hd.trans hc₁))
  rw [hfilter, hcodec, hcc] at hurl' horig'
  rw [hcodec, hcc] at hbody'
  exact ⟨hurl'.trans hurl.symm, horig'.trans horig.symm, _, hbody, hbody'⟩

end ModDup
