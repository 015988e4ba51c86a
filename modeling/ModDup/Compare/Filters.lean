import ModDup.Apache
import ModDup.Compare.Differ
import ModDup.Compare.Deserialize

/-!
# The filters of `mod_compare`

The first output filter collects the local response; the second compares it with the original
answer, once the end of the response was seen, and writes a difference record to the log
(`src/filters_compare.cc`, `src/response_diff.cc`).  The record also carries the differences
that the application found in its database, which are kept in a table by request id.

## Main definitions

* `CompareConf`, `World`, `CompareState` : the location, what all requests share, one request.
* `writeDifferences`, `outputFilterHandler`, `outputFilterHandler2`.

## Main results

* `outputFilterHandler2_written_iff` : when a record is written.
* `logs_differing_requests_iff` : when that is for exactly the differing requests.
-/

namespace ModDup

open Bytes

/-- `CompareConf`. -/
structure CompareConf where
  mCompBody : StringCompareBody := {}
  mCompHeader : MapCompare := {}
  mLogType : DiffTypeAvailable := .utf8json
  mCompareDisabled : Bool := false
  mIsActive : Bool := false
  mDirName : Bytes := []

/-- `CassandraDiff::FieldInfo`. -/
structure FieldInfo where
  mName : Bytes
  mMultivalueKey : Bytes
  mDBValue : Bytes
  mReqValue : Bytes
  deriving DecidableEq, Repr

/-- One write to the log file. -/
inductive LogEntry where
  | diff (record : Bytes)
  | serialized (req : RequestInfo)

/-- What the requests share: the log and the `Differences` table, entries of one id in the
order of insertion. -/
structure World where
  gWriteInFile : Bool := true
  gFilePath : Bytes := []
  /-- `gFile.is_open()`. -/
  fileOpen : Bool := true
  /-- The global mutex exists. -/
  mutexReady : Bool := true
  file : List LogEntry := []
  syslog : List Bytes := []
  differences : List (Bytes × FieldInfo) := []

/-- The state of one request: the request itself, the info kept with it, whether the input
filter has read the payload, and whether the two output filters are done. -/
structure CompareState where
  req : RequestRec
  info : Option RequestInfo := none
  inputRead : Bool := false
  done1 : Bool := false
  done2 : Bool := false

/-- The libraries and the clock. -/
structure CompareEnv where
  dtl : Dtl
  writer : FastWriter
  /-- The text of an archive with a request, until the archive is destroyed. -/
  archive : RequestInfo → Bytes
  /-- The time, in milliseconds. -/
  now : ℤ := 0
  /-- The duration of the comparison. -/
  comparisonTime : ℤ := 0
  /-- The date of a record. -/
  today : Bytes := []

/-! ### Writing a record -/

/-- `checkCassandraDiff`. -/
def checkCassandraDiff (w : World) (pUniqueID : Bytes) : Bool :=
  w.differences.any fun e => e.1 = pUniqueID

/-- `writeCassandraDiff`: whether there were entries, the printer with them, and the table
without them. -/
def writeCassandraDiff (w : World) (pUniqueID : Bytes) (printer : DiffPrinter) :
    Bool × DiffPrinter × World :=
  let mine := w.differences.filter fun e => e.1 = pUniqueID
  if mine = [] then (false, printer, w)
  else
    (true,
      mine.foldl (fun p e =>
        p.addCassandraDiff e.2.mName e.2.mMultivalueKey e.2.mDBValue e.2.mReqValue) printer,
      { w with differences := w.differences.filter fun e => e.1 ≠ pUniqueID })

/-- `LOGMAXSIZE`. -/
def logMaxSize : ℕ := 65536

/-- `writeInFacility`: pieces of bounded size. -/
def writeInFacility (pDiffLog : Bytes) : List Bytes := (pDiffLog.toChunks logMaxSize).map cstr

/-- The header with the time the original request took. -/
def elapsedTimeByDup : Bytes := str "ELAPSED_TIME_BY_DUP"

/-- The runtime lines of a record; `none` when the time of the original request is no number,
the second conversion of it being outside the `try`. -/
def addRuntimes (r : RequestInfo) (today : Bytes) (p : DiffPrinter) : Option DiffPrinter :=
  match r.mReqHeader.get? elapsedTimeByDup with
  | none => some ((p.addInfo (str "Date") today).addRuntime (str "COMP") r.mElapsedTime)
  | some v =>
    (lexicalCastInt 32 v).map fun t =>
      (((p.addRuntime (str "DIFF") (t - r.mElapsedTime)).addInfo (str "Date") today).addRuntime
        (str "DUP") t).addRuntime (str "COMP") r.mElapsedTime

/-- The request part of a record: URI, body and headers, then the two statuses. -/
def addRequest (r : RequestInfo) (p : DiffPrinter) : DiffPrinter :=
  let p := if r.mRequest.getLast? = some 63 then p.addRequestUri r.mRequest r.mReqBody
    else
      let p := p.addRequestUri r.mRequest []
      if r.mReqBody ≠ [] then p.addRequestBody r.mReqBody else p
  let p := r.mReqHeader.entries.foldl (fun p e => p.addRequestHeader e.1 e.2) p
  (p.addStatus (str "DUP") r.mReqHttpStatus).addStatus (str "COMP") r.mDupResponseHttpStatus

/-- Where the record goes: the file, or the syslog, line by line for the multiline format. -/
def writeRecord (w : World) (kind : DiffTypeAvailable) (res : Bytes) : World :=
  if !w.gWriteInFile then
    if kind = .multiline then
      if w.mutexReady then
        { w with syslog := w.syslog ++ (res.splitOn nl).flatMap writeInFacility }
      else w
    else { w with syslog := w.syslog ++ [cstr res] }
  else if w.fileOpen && w.mutexReady then { w with file := w.file ++ [.diff res] }
  else w

/-- `writeDifferences`: whether it threw, and the world after it. -/
def writeDifferences (env : CompareEnv) (w : World) (r : RequestInfo) (printer : DiffPrinter) :
    Bool × World :=
  let printer := if env.comparisonTime > 0 then
    printer.addInfoNum (str "ElapsedTime") env.comparisonTime else printer
  match addRuntimes r env.today printer with
  | none => (true, w)
  | some printer =>
    let printer := addRequest r printer
    let (cassDiff, printer, w) := writeCassandraDiff w r.mId printer
    let (diff, res) := printer.retrieveDiff env.writer []
    -- a difference of the statuses is printed above, but it is not asked for here
    (false, if !cassDiff && !diff then w else writeRecord w printer.kind res)

/-- `writeSerializedRequest`.  The syslog gets the text while the archive is still there. -/
def writeSerializedRequest (env : CompareEnv) (w : World) (r : RequestInfo) : World :=
  if !w.gWriteInFile then { w with syslog := w.syslog ++ writeInFacility (env.archive r) }
  else if w.fileOpen && w.mutexReady then { w with file := w.file ++ [.serialized r] }
  else w

/-! ### The output filters -/

/-- The duplicated requests that carry the original answer. -/
def isDupResponse (req : RequestRec) : Bool :=
  aprTableGet req.headersIn (str "Duplication-Type") = some (str "Response")

/-- The loop of `outputFilterHandler` over a brigade. -/
def readResponse (now : ℤ) (r : RequestInfo) (pBrigade : Brigade) : RequestInfo :=
  pBrigade.foldl (fun r b => match b with
    | .eos => r.eosSeen now true
    | b => { r with mDupResponseBody := r.mDupResponseBody ++ b.content }) r

/-- The text of the `X-COMP-STATUS` header. -/
def compStatus (w : World) (conf : CompareConf) : Bytes :=
  str "COMPARED - with conf from " ++ conf.mDirName ++ str " logged in " ++
    (if w.gWriteInFile then w.gFilePath else str "SYSLOG") ++ str " in format " ++
    conf.mLogType.diffTypeStr

/-- `outputFilterHandler`.  `conf` is `none` where the module has no configuration. -/
def outputFilterHandler (env : CompareEnv) (conf : Option CompareConf) (w : World)
    (s : CompareState) (pBrigade : Brigade) : CompareState × World :=
  if s.done1 then (s, w)
  else if (find (str "comp_truncate") s.req.uri).isSome then
    ({ s with done1 := true }, { w with file := [], fileOpen := true })
  else if !isDupResponse s.req then ({ s with done1 := true }, w)
  else match conf, s.info with
    | some conf, some r =>
      let r := readResponse env.now r pBrigade
      let req := if (aprTableGet s.req.headersIn (str "X_COMP_LOG")).isSome then
        { s.req with
          headersOut := aprTableSet s.req.headersOut (str "X-COMP-STATUS") (compStatus w conf) }
        else s.req
      ({ s with info := some r, req := req }, w)
    | _, _ => ({ s with done1 := true }, w)

/-- What `outputFilterHandler2` fills in before it compares. -/
def fillResponse (req : RequestRec) (r : RequestInfo) : RequestInfo :=
  { r with
    mRequest := req.unparsedUri
    mDupResponseHeader := r.mDupResponseHeader.setAll req.headersOut
    mDupResponseHttpStatus := req.status }

/-- The comparison itself: the two results and the printer. -/
def compareResponses (env : CompareEnv) (conf : CompareConf) (r : RequestInfo) :
    Bool × Bool × DiffPrinter :=
  let printer := DiffPrinter.createDiffPrinter r.mId conf.mLogType
  let (headerDiff, printer) :=
    conf.mCompHeader.retrieveDiff r.mResponseHeader r.mDupResponseHeader printer
  let (bodyDiff, printer) :=
    conf.mCompBody.retrieveDiff env.dtl r.mResponseBody r.mDupResponseBody printer
  (headerDiff, bodyDiff, printer)

/-- The statuses are known and differ. -/
def statusDiffers (r : RequestInfo) : Bool :=
  r.mReqHttpStatus ≠ -1 && r.mReqHttpStatus ≠ r.mDupResponseHttpStatus

/-- `outputFilterHandler2`: whether an exception left it, the request and the world. -/
def outputFilterHandler2 (env : CompareEnv) (conf : Option CompareConf) (w : World)
    (s : CompareState) : Bool × CompareState × World :=
  match s.done2, conf, s.info with
  | false, some conf, some r =>
    if !r.mEOS then (false, s, w)
    else if conf.mCompareDisabled then
      let r := { fillResponse s.req r with mDupResponseHttpStatus := r.mDupResponseHttpStatus }
      (false, { s with info := some r, done2 := true }, writeSerializedRequest env w r)
    else
      let r := fillResponse s.req r
      let (headerDiff, bodyDiff, printer) := compareResponses env conf r
      -- an exception leaves the context of the filter open
      let (thrown, w) :=
        if (headerDiff || bodyDiff) &&
            (printer.isADiff || checkCassandraDiff w r.mId || statusDiffers r) then
          writeDifferences env w r printer
        else (false, w)
      (thrown, { s with info := some r, done2 := !thrown }, w)
  | _, _, _ => (false, s, w)

/-! ### When a record is written -/

/-- The time of the original request is there and is no number. -/
def BadElapsedTime (r : RequestInfo) : Prop :=
  ∃ v, r.mReqHeader.get? elapsedTimeByDup = some v ∧ lexicalCastInt 32 v = none

theorem addRuntimes_isSome_iff (r : RequestInfo) (today : Bytes) (p : DiffPrinter) :
    (addRuntimes r today p).isSome ↔ ¬ BadElapsedTime r := by
  unfold addRuntimes BadElapsedTime
  cases r.mReqHeader.get? elapsedTimeByDup with
  | none => simp
  | some v => simp [Option.isSome_iff_ne_none]

theorem addRuntimes_keeps {r : RequestInfo} {today : Bytes} {p p' : DiffPrinter}
    (h : addRuntimes r today p = some p') : p'.isADiff = p.isADiff ∧ p'.kind = p.kind := by
  unfold addRuntimes at h
  split at h
  · obtain rfl := Option.some.inj h
    simp
  · obtain ⟨t, -, rfl⟩ := Option.map_eq_some_iff.1 h
    simp

theorem isADiff_addRequest (r : RequestInfo) (p : DiffPrinter) :
    (addRequest r p).isADiff = p.isADiff := by
  have hheaders : ∀ (l : KeyValList) (p : DiffPrinter),
      (l.foldl (fun p e => p.addRequestHeader e.1 e.2) p).isADiff = p.isADiff :=
    fun l => DiffPrinter.foldl_keeps DiffPrinter.isADiff l fun p e =>
      DiffPrinter.isADiff_addRequestHeader p e.1 e.2
  unfold addRequest
  simp only [DiffPrinter.isADiff_addStatus, hheaders]
  split_ifs <;> simp

theorem kind_addRequest (r : RequestInfo) (p : DiffPrinter) :
    (addRequest r p).kind = p.kind := by
  have hheaders : ∀ (l : KeyValList) (p : DiffPrinter),
      (l.foldl (fun p e => p.addRequestHeader e.1 e.2) p).kind = p.kind :=
    fun l => DiffPrinter.foldl_keeps DiffPrinter.kind l fun p e =>
      DiffPrinter.kind_addRequestHeader p e.1 e.2
  unfold addRequest
  simp only [DiffPrinter.kind_addStatus, hheaders]
  split_ifs <;> simp

theorem writeCassandraDiff_fst (w : World) (id : Bytes) (p : DiffPrinter) :
    (writeCassandraDiff w id p).1 = checkCassandraDiff w id := by
  unfold writeCassandraDiff checkCassandraDiff
  dsimp only
  split_ifs with h
  · rw [List.filter_eq_nil_iff] at h
    simpa [List.any_eq_false] using h
  · rw [List.filter_eq_nil_iff] at h
    simpa [List.any_eq_true] using h

theorem writeCassandraDiff_world (w : World) (id : Bytes) (p : DiffPrinter) :
    ∃ diffs, (writeCassandraDiff w id p).2.2 = { w with differences := diffs } := by
  unfold writeCassandraDiff
  dsimp only
  split_ifs
  · exact ⟨w.differences, rfl⟩
  · exact ⟨_, rfl⟩

/-- Entries of the table are a difference, and they are all that is added. -/
theorem writeCassandraDiff_printer (w : World) (id : Bytes) (p : DiffPrinter) :
    (writeCassandraDiff w id p).2.1.isADiff = (p.isADiff || checkCassandraDiff w id) ∧
      (writeCassandraDiff w id p).2.1.kind = p.kind := by
  rw [← writeCassandraDiff_fst w id p]
  unfold writeCassandraDiff
  dsimp only
  split_ifs with h
  · simp
  · refine ⟨?_, DiffPrinter.foldl_keeps DiffPrinter.kind _
      (fun p e => DiffPrinter.kind_addCassandraDiff p _ _ _ _) p⟩
    obtain ⟨l, e, hl⟩ := List.eq_nil_or_concat' _ |>.resolve_left h
    rw [hl, List.foldl_append]
    simp

/-- What `writeDifferences` does: nothing when the time of the original request stops it;
else it clears the entries of the request from the table, and writes what the printer holds if
that or the table is a difference. -/
theorem writeDifferences_out (env : CompareEnv) (w : World) (r : RequestInfo) (p : DiffPrinter) :
    (BadElapsedTime r ∧ (writeDifferences env w r p).2 = w) ∨
      (¬ BadElapsedTime r ∧ ∃ (p' : DiffPrinter) (diffs : List (Bytes × FieldInfo)),
        p'.kind = p.kind ∧ p'.isADiff = (p.isADiff || checkCassandraDiff w r.mId) ∧
        (writeDifferences env w r p).2 =
          if p'.isADiff then
            writeRecord { w with differences := diffs } p'.kind (p'.retrieveDiff env.writer []).2
          else { w with differences := diffs }) := by
  set p₁ := if env.comparisonTime > 0 then
    p.addInfoNum (str "ElapsedTime") env.comparisonTime else p with hp₁
  have hflag₁ : p₁.isADiff = p.isADiff ∧ p₁.kind = p.kind := by rw [hp₁]; split_ifs <;> simp
  cases hrun : addRuntimes r env.today p₁ with
  | none =>
    -- the exception is thrown before anything is written
    have hbad : BadElapsedTime r := by
      by_contra h
      rw [← addRuntimes_isSome_iff r env.today p₁, hrun] at h
      simp at h
    exact .inl ⟨hbad, by simp only [writeDifferences, ← hp₁, hrun]⟩
  | some p₂ =>
    have hgood : ¬ BadElapsedTime r := by
      rw [← addRuntimes_isSome_iff r env.today p₁, hrun]
      rfl
    set cass := writeCassandraDiff w r.mId (addRequest r p₂) with hcass
    obtain ⟨diffs, hworld⟩ := writeCassandraDiff_world w r.mId (addRequest r p₂)
    obtain ⟨hflag₂, hkind₂⟩ := addRuntimes_keeps hrun
    obtain ⟨hflag, hkind⟩ := writeCassandraDiff_printer w r.mId (addRequest r p₂)
    rw [isADiff_addRequest, hflag₂, hflag₁.1] at hflag
    rw [kind_addRequest, hkind₂, hflag₁.2] at hkind
    have hfirst : cass.1 = checkCassandraDiff w r.mId := writeCassandraDiff_fst _ _ _
    rw [← hcass] at hworld hflag hkind
    refine .inr ⟨hgood, cass.2.1, diffs, hkind, hflag, ?_⟩
    -- entries of the table have set the flag too, so the flag alone decides
    have hcond : (!cass.1 && !cass.2.1.isADiff) = !cass.2.1.isADiff := by
      rw [hfirst, hflag]
      cases checkCassandraDiff w r.mId <;> simp
    simp only [writeDifferences, ← hp₁, hrun, ← hcass, DiffPrinter.retrieveDiff_fst, hcond, hworld]
    cases cass.2.1.isADiff <;> simp

/-- The log file can be written. -/
def World.LogOpen (w : World) : Prop :=
  w.gWriteInFile = true ∧ w.fileOpen = true ∧ w.mutexReady = true

/-- One difference record was added to the log file. -/
def OneRecord (w w' : World) : Prop := ∃ record, w'.file = w.file ++ [.diff record]

theorem not_oneRecord_of_file_eq {w w' : World} (h : w'.file = w.file) : ¬ OneRecord w w' := by
  rintro ⟨record, hr⟩
  rw [h] at hr
  simp at hr

theorem writeDifferences_spec (env : CompareEnv) {w : World} (hw : w.LogOpen) (r : RequestInfo)
    (p : DiffPrinter) :
    OneRecord w (writeDifferences env w r p).2 ↔
      ¬ BadElapsedTime r ∧ (p.isADiff = true ∨ checkCassandraDiff w r.mId = true) := by
  obtain ⟨hbad, hout⟩ | ⟨hgood, p', diffs, -, hflag, hout⟩ := writeDifferences_out env w r p
  · rw [hout]
    exact ⟨fun h => absurd h (not_oneRecord_of_file_eq rfl), fun h => absurd hbad h.1⟩
  · rw [hout, and_iff_right hgood, ← Bool.or_eq_true, ← hflag]
    split_ifs with hdiff
    · obtain ⟨h1, h2, h3⟩ := hw
      exact ⟨fun _ => hdiff,
        fun _ => ⟨(p'.retrieveDiff env.writer []).2, by simp [writeRecord, h1, h2, h3]⟩⟩
    · exact ⟨fun h => absurd h (not_oneRecord_of_file_eq rfl), fun h => absurd h hdiff⟩

/-! ### The comparison of two responses -/

section Comparison

variable {env : CompareEnv} {conf : CompareConf} {w : World} {s : CompareState} {r : RequestInfo}

/-- No STOP expression matches either response. -/
def NoStop (conf : CompareConf) (r : RequestInfo) : Prop :=
  conf.mCompHeader.checkStop r.mResponseHeader = false ∧
    conf.mCompHeader.checkStop r.mDupResponseHeader = false ∧
    conf.mCompBody.checkStopRegex r.mResponseBody = false ∧
    conf.mCompBody.checkStopRegex r.mDupResponseBody = false

/-- The responses differ: their headers or their lines, once what is ignored is gone. -/
def ResponsesDiffer (conf : CompareConf) (r : RequestInfo) : Prop :=
  conf.mCompHeader.applyIgnoreRegex r.mResponseHeader ≠
      conf.mCompHeader.applyIgnoreRegex r.mDupResponseHeader ∨
    conf.mCompBody.lines r.mResponseBody ≠ conf.mCompBody.lines r.mDupResponseBody

theorem compareResponses_spec (env : CompareEnv) (hstop : NoStop conf r) :
    (compareResponses env conf r).1 = true ∧
      ((compareResponses env conf r).2.2.isADiff = true ↔ ResponsesDiffer conf r) := by
  obtain ⟨hsrc, hdst, hsrcBody, hdstBody⟩ := hstop
  obtain ⟨hmade, hflag⟩ := MapCompare.retrieveDiff_of_not_stop hsrc hdst
    (DiffPrinter.createDiffPrinter r.mId conf.mLogType)
  refine ⟨hmade, ?_⟩
  simp only [compareResponses, StringCompareBody.isADiff_retrieveDiff, hflag, ne_eq,
    StringCompareBody.output_eq_nil env.dtl hsrcBody hdstBody,
    DiffPrinter.isADiff_createDiffPrinter, Bool.false_eq_true, false_or, ResponsesDiffer]

theorem outputFilterHandler2_eq (hdone : s.done2 = false) (hinfo : s.info = some r)
    (heos : r.mEOS = true) (henabled : conf.mCompareDisabled = false)
    (hstop : NoStop conf (fillResponse s.req r)) :
    (outputFilterHandler2 env (some conf) w s).2.2 =
      if (compareResponses env conf (fillResponse s.req r)).2.2.isADiff ||
          checkCassandraDiff w r.mId || statusDiffers (fillResponse s.req r) then
        (writeDifferences env w (fillResponse s.req r)
          (compareResponses env conf (fillResponse s.req r)).2.2).2
      else w := by
  have hmade := (compareResponses_spec env hstop).1
  have hid : (fillResponse s.req r).mId = r.mId := rfl
  simp only [outputFilterHandler2, hdone, hinfo, heos, henabled, hmade, hid, Bool.not_true,
    Bool.false_eq_true, ↓reduceIte, Bool.true_or, Bool.true_and]
  split_ifs <;> rfl

/-- A record is written iff the responses differ or the table holds an entry of the request, and
the time of the original request is no obstacle.  A status alone writes nothing. -/
theorem outputFilterHandler2_written_iff (hdone : s.done2 = false) (hinfo : s.info = some r)
    (heos : r.mEOS = true) (henabled : conf.mCompareDisabled = false)
    (hstop : NoStop conf (fillResponse s.req r)) (hlog : w.LogOpen) :
    OneRecord w (outputFilterHandler2 env (some conf) w s).2.2 ↔
      (ResponsesDiffer conf (fillResponse s.req r) ∨ checkCassandraDiff w r.mId = true) ∧
        ¬ BadElapsedTime r := by
  obtain ⟨-, hflag⟩ := compareResponses_spec env hstop
  have hwritten := writeDifferences_spec env hlog (fillResponse s.req r)
    (compareResponses env conf (fillResponse s.req r)).2.2
  rw [hflag] at hwritten
  have hbad : BadElapsedTime (fillResponse s.req r) ↔ BadElapsedTime r := Iff.rfl
  rw [outputFilterHandler2_eq hdone hinfo heos henabled hstop]
  split_ifs with hcond
  · rw [hwritten, hbad, and_comm]
    rfl
  · simp only [Bool.or_eq_true, not_or, hflag] at hcond
    refine ⟨fun h => absurd h (not_oneRecord_of_file_eq rfl), fun h => ?_⟩
    rcases h.1 with h | h
    · exact absurd h hcond.1.1
    · exact absurd h hcond.1.2

/-- **When exactly the differing requests are logged.**  A difference of the statuses has to
come with another difference, and the time of the original request has to be a number whenever
there is something to report. -/
theorem logs_differing_requests_iff (env : CompareEnv) (conf : CompareConf) (w : World)
    (s : CompareState) (r : RequestInfo) (hdone : s.done2 = false) (hinfo : s.info = some r)
    (heos : r.mEOS = true) (henabled : conf.mCompareDisabled = false)
    (hstop : NoStop conf (fillResponse s.req r)) (hlog : w.LogOpen) :
    (OneRecord w (outputFilterHandler2 env (some conf) w s).2.2 ↔
        ResponsesDiffer conf (fillResponse s.req r) ∨ checkCassandraDiff w r.mId = true ∨
          (r.mReqHttpStatus ≠ -1 ∧ r.mReqHttpStatus ≠ s.req.status)) ↔
      ((ResponsesDiffer conf (fillResponse s.req r) ∨ checkCassandraDiff w r.mId = true ∨
          (r.mReqHttpStatus ≠ -1 ∧ r.mReqHttpStatus ≠ s.req.status)) →
        (ResponsesDiffer conf (fillResponse s.req r) ∨ checkCassandraDiff w r.mId = true) ∧
          ¬ BadElapsedTime r) := by
  rw [outputFilterHandler2_written_iff hdone hinfo heos henabled hstop hlog]
  constructor
  · exact fun h => h.2
  · exact fun h => ⟨fun hd => hd.1.imp id .inl, h⟩

end Comparison

/-- Libraries to run the filters with: a difference of lines as one hunk, no JSON, and archives with
the id only. -/
def plainEnv : CompareEnv where
  dtl :=
    { uniHunks := fun src dst => if src = dst then [] else
        [⟨1, src.length, 1, dst.length, [],
          src.map (fun l => (.delete, l)) ++ dst.map (fun l => (.add, l)), []⟩]
      uniHunks_eq_nil := fun src dst => by split_ifs with h <;> simp [h] }
  writer := { write := fun _ => [nl], ends_newline := fun _ => rfl }
  archive := RequestInfo.mId

/-- A location that logs in the multiline format. -/
def plainConf : CompareConf := { mLogType := .multiline, mIsActive := true }

/-- An answered request whose original status was 200; the response is complete. -/
def comparedState (status : ℤ) (headersOut : AprTable) : CompareState where
  req := { status := status, headersOut := headersOut, unparsedUri := str "/p" }
  info := some { RequestInfo.make (str "1") 0 with mReqHttpStatus := 200, mEOS := true }

/-- An additional header is a difference, and it is logged. -/
theorem logs_differing_requests_header :
    OneRecord {} (outputFilterHandler2 plainEnv (some plainConf) {}
      (comparedState 200 [(str "A", str "1")])).2.2 := by
  have hdiff : ResponsesDiffer plainConf (fillResponse (comparedState 200 [(str "A", str "1")]).req
      { RequestInfo.make (str "1") 0 with mReqHttpStatus := 200, mEOS := true }) := by
    refine .inl fun h => ?_
    have := congrArg (fun m : MapStr => m.entries.length) h
    revert this
    decide
  have hgood : ¬ BadElapsedTime
      { RequestInfo.make (str "1") 0 with mReqHttpStatus := 200, mEOS := true } := by
    rintro ⟨v, hv, -⟩
    cases hv
  exact ((logs_differing_requests_iff plainEnv plainConf {}
    (comparedState 200 [(str "A", str "1")])
    { RequestInfo.make (str "1") 0 with mReqHttpStatus := 200, mEOS := true }
    rfl rfl rfl rfl ⟨rfl, rfl, rfl, rfl⟩ ⟨rfl, rfl, rfl⟩).2 fun _ => ⟨.inl hdiff, hgood⟩).2
    (.inl hdiff)

/-- The local server answers 500 where the original answered 200, with the same headers and
body: nothing is written. -/
theorem status_difference_not_logged :
    ¬ (OneRecord {} (outputFilterHandler2 plainEnv (some plainConf) {} (comparedState 500 [])).2.2 ↔
      ResponsesDiffer plainConf (fillResponse (comparedState 500 []).req
          { RequestInfo.make (str "1") 0 with mReqHttpStatus := 200, mEOS := true }) ∨
        checkCassandraDiff {} (str "1") = true ∨
        ((200 : ℤ) ≠ -1 ∧ (200 : ℤ) ≠ (comparedState 500 []).req.status)) := by
  intro h
  refine not_oneRecord_of_file_eq ?_ (h.2 (.inr (.inr ⟨by decide, by decide⟩)))
  rfl

end ModDup
