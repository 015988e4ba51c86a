import ModDup.Compare.Filters

/-!
# What a STOP rule stops

A STOP rule is meant to give up the comparison of the two responses.  The headers and the bodies
are compared by two functions, each with rules of its own, and each gives up alone: the filter
goes on when either of them has something to say.  So a rule on one part says nothing about the
other, and what a rule lets through is said here exactly, whichever log the records go to.

## Main definitions

* `HeaderStop`, `BodyStop` : a rule matches one of the two responses.
* `NoRecord` : nothing was written to the log.
* `PastStop` : the part without a match has a difference to report.

## Main results

* `outputFilterHandler2_noRecord_iff` : when nothing is written, with or without STOP rules.
* `stop_silences_iff` : when a match does mean that nothing is written.
-/

namespace ModDup

open Bytes

/-! ### Rules that match -/

/-- A STOP rule on a header matches the value of this header in one of the two responses. -/
def HeaderStop (conf : CompareConf) (r : RequestInfo) : Prop :=
  ∃ m ∈ [r.mResponseHeader, r.mDupResponseHeader], ∃ key value re,
    (key, value) ∈ m.entries ∧ conf.mCompHeader.mStopRegex.get? key = some re ∧
      re.found value = true

/-- A STOP rule on the body matches one of the two bodies. -/
def BodyStop (conf : CompareConf) (r : RequestInfo) : Prop :=
  ∃ body ∈ [r.mResponseBody, r.mDupResponseBody], ∃ re ∈ conf.mCompBody.mStopRegex,
    re.found body = true

theorem headerStop_iff {conf : CompareConf} {r : RequestInfo} :
    HeaderStop conf r ↔ (conf.mCompHeader.checkStop r.mResponseHeader ||
      conf.mCompHeader.checkStop r.mDupResponseHeader) = true := by
  simp [HeaderStop, MapCompare.checkStop, Option.any_eq_true]

theorem bodyStop_iff {conf : CompareConf} {r : RequestInfo} :
    BodyStop conf r ↔ (conf.mCompBody.checkStopRegex r.mResponseBody ||
      conf.mCompBody.checkStopRegex r.mDupResponseBody) = true := by
  simp [BodyStop, StringCompareBody.checkStopRegex]

/-! ### The log -/

/-- Nothing was written to the log, be it the file or the syslog. -/
def NoRecord (w w' : World) : Prop := w'.file = w.file ∧ w'.syslog = w.syslog

/-- The log takes a record of this kind.  The syslog needs the mutex only for the record of
several lines. -/
def World.TakesRecord (w : World) (kind : DiffTypeAvailable) : Prop :=
  if w.gWriteInFile then w.fileOpen = true ∧ w.mutexReady = true
  else kind = .multiline → w.mutexReady = true

theorem toChunks_go_ne_nil {α : Type} (n : ℕ) (xs : List α) (acc₁ : Array α)
    (acc₂ : Array (List α)) : List.toChunks.go n xs acc₁ acc₂ ≠ [] := by
  induction xs generalizing acc₁ acc₂ with
  | nil => simp [List.toChunks.go]
  | cons x xs ih =>
    unfold List.toChunks.go
    split
    · exact ih _ _
    · exact ih _ _

theorem writeInFacility_eq_nil {line : Bytes} (h : writeInFacility line = []) : line = [] := by
  cases line with
  | nil => rfl
  | cons c line => exact absurd (List.map_eq_nil_iff.1 h) (toChunks_go_ne_nil _ _ _ _)

/-- A text that is not made of line feeds only has a line to write. -/
theorem flatMap_writeInFacility_ne_nil {res : Bytes} (h : ∃ c ∈ res, c ≠ nl) :
    (res.splitOn nl).flatMap writeInFacility ≠ [] := by
  intro hnil
  obtain ⟨c, hc, hne⟩ := h
  obtain ⟨line, hline, hcl⟩ := exists_mem_splitOn hc hne
  rw [writeInFacility_eq_nil (List.flatMap_eq_nil_iff.1 hnil line hline)] at hcl
  cases hcl

theorem writeRecord_noRecord_iff (w : World) {kind : DiffTypeAvailable} {res : Bytes}
    (hres : kind = .multiline → ∃ c ∈ res, c ≠ nl) :
    NoRecord w (writeRecord w kind res) ↔ ¬ w.TakesRecord kind := by
  unfold NoRecord World.TakesRecord writeRecord
  cases w.gWriteInFile with
  | true => cases w.fileOpen <;> cases w.mutexReady <;> simp
  | false =>
    by_cases hkind : kind = .multiline
    · cases w.mutexReady with
      | true => simpa [hkind] using flatMap_writeInFacility_ne_nil (hres hkind)
      | false => simp [hkind]
    · simp [hkind]

theorem writeDifferences_noRecord_iff (env : CompareEnv) (w : World) (r : RequestInfo)
    (p : DiffPrinter) :
    NoRecord w (writeDifferences env w r p).2 ↔
      ¬ (w.TakesRecord p.kind ∧ ¬ BadElapsedTime r ∧
        (p.isADiff || checkCassandraDiff w r.mId) = true) := by
  obtain ⟨hbad, hout⟩ | ⟨hgood, p', diffs, hkind, hflag, hout⟩ := writeDifferences_out env w r p
  · rw [hout]
    exact iff_of_true ⟨rfl, rfl⟩ fun h => h.2.1 hbad
  · rw [hout, ← hkind, ← hflag, and_iff_right hgood]
    split_ifs with hdiff
    · rw [and_iff_left hdiff]
      exact writeRecord_noRecord_iff { w with differences := diffs }
        fun hk => p'.exists_mem_retrieveDiff_multiline env.writer hk hdiff []
    · exact iff_of_true ⟨rfl, rfl⟩ fun h => hdiff h.2

/-! ### The comparison -/

section Comparison

variable {env : CompareEnv} {conf : CompareConf} {w : World} {s : CompareState} {r : RequestInfo}

/-- The headers differ, once what is ignored is gone. -/
def HeadersDiffer (conf : CompareConf) (r : RequestInfo) : Prop :=
  conf.mCompHeader.applyIgnoreRegex r.mResponseHeader ≠
    conf.mCompHeader.applyIgnoreRegex r.mDupResponseHeader

/-- The lines of the bodies differ, once what is ignored is gone. -/
def BodiesDiffer (conf : CompareConf) (r : RequestInfo) : Prop :=
  conf.mCompBody.lines r.mResponseBody ≠ conf.mCompBody.lines r.mDupResponseBody

/-- The comparison made part by part: the result for the headers says only that there was no
match, the one for the bodies also that there is a difference. -/
theorem compareResponses_parts (env : CompareEnv) (conf : CompareConf) (r : RequestInfo) :
    ((compareResponses env conf r).1 = true ↔ ¬ HeaderStop conf r) ∧
      ((compareResponses env conf r).2.1 = true ↔ ¬ BodyStop conf r ∧ BodiesDiffer conf r) ∧
      ((compareResponses env conf r).2.2.isADiff = true ↔
        ¬ HeaderStop conf r ∧ HeadersDiffer conf r ∨ ¬ BodyStop conf r ∧ BodiesDiffer conf r) ∧
      (compareResponses env conf r).2.2.kind = conf.mLogType := by
  set p := DiffPrinter.createDiffPrinter r.mId conf.mLogType with hp
  set header := conf.mCompHeader.retrieveDiff r.mResponseHeader r.mDupResponseHeader p with hheader
  set out := conf.mCompBody.output env.dtl r.mResponseBody r.mDupResponseBody with hout
  have hbody : out ≠ [] ↔ ¬ BodyStop conf r ∧ BodiesDiffer conf r := by
    rw [bodyStop_iff]
    cases hstop : conf.mCompBody.checkStopRegex r.mResponseBody ||
        conf.mCompBody.checkStopRegex r.mDupResponseBody with
    | true => simp [hout, StringCompareBody.output_of_stop env.dtl hstop]
    | false =>
      obtain ⟨hsrc, hdst⟩ := Bool.or_eq_false_iff.1 hstop
      simp [hout, BodiesDiffer, StringCompareBody.output_eq_nil env.dtl hsrc hdst]
  have hhead : (header.1 = true ↔ ¬ HeaderStop conf r) ∧
      (header.2.isADiff = true ↔ ¬ HeaderStop conf r ∧ HeadersDiffer conf r) := by
    rw [headerStop_iff]
    cases hstop : conf.mCompHeader.checkStop r.mResponseHeader ||
        conf.mCompHeader.checkStop r.mDupResponseHeader with
    | true => simp [hheader, MapCompare.retrieveDiff_of_stop hstop, hp]
    | false =>
      obtain ⟨hsrc, hdst⟩ := Bool.or_eq_false_iff.1 hstop
      obtain ⟨hmade, hflag⟩ := MapCompare.retrieveDiff_of_not_stop hsrc hdst p
      rw [← hheader] at hmade hflag
      simp [hmade, hflag, hp, HeadersDiffer]
  refine ⟨hhead.1, ?_, ?_, ?_⟩
  · rw [← hbody]
    exact decide_eq_true_iff
  · rw [← hbody, ← hhead.2]
    exact StringCompareBody.isADiff_retrieveDiff _ _ _ _ _
  · have hkind : header.2.kind = conf.mLogType := by
      rw [hheader, MapCompare.kind_retrieveDiff, hp, DiffPrinter.kind_createDiffPrinter]
    rw [← hkind]
    exact StringCompareBody.kind_retrieveDiff _ _ _ _ _

/-- A part without a STOP match has something to report; the table counts with the headers,
whose result is positive also when they are equal. -/
def PastStop (conf : CompareConf) (w : World) (r : RequestInfo) : Prop :=
  ¬ BodyStop conf r ∧ BodiesDiffer conf r ∨
    ¬ HeaderStop conf r ∧ (HeadersDiffer conf r ∨ checkCassandraDiff w r.mId = true)

theorem pastStop_iff (env : CompareEnv) (conf : CompareConf) (w : World) (r : RequestInfo) :
    PastStop conf w r ↔
      ((compareResponses env conf r).1 || (compareResponses env conf r).2.1) = true ∧
        ((compareResponses env conf r).2.2.isADiff || checkCassandraDiff w r.mId) = true := by
  obtain ⟨hheader, hbody, hflag, -⟩ := compareResponses_parts env conf r
  rw [Bool.or_eq_true, Bool.or_eq_true, hheader, hbody, hflag, PastStop]
  constructor
  · rintro (hbodies | ⟨hmade, hheaders | hentry⟩)
    · exact ⟨.inr hbodies, .inl (.inr hbodies)⟩
    · exact ⟨.inl hmade, .inl (.inl ⟨hmade, hheaders⟩)⟩
    · exact ⟨.inl hmade, .inr hentry⟩
  · rintro ⟨hresult, (hheaders | hbodies) | hentry⟩
    · exact .inr ⟨hheaders.1, .inl hheaders.2⟩
    · exact .inl hbodies
    · rcases hresult with hmade | hbodies
      · exact .inr ⟨hmade, .inr hentry⟩
      · exact .inl hbodies

/-- The filter compares the responses at this call, and nothing keeps it from writing. -/
structure Compares (conf : CompareConf) (w : World) (s : CompareState) (r : RequestInfo) :
    Prop where
  notDone : s.done2 = false
  complete : r.mEOS = true
  takes : w.TakesRecord conf.mLogType
  numericTime : ¬ BadElapsedTime r

/-- Nothing is written iff no part without a STOP match has something to report. -/
theorem outputFilterHandler2_noRecord_iff (env : CompareEnv) (w : World)
    (hinfo : s.info = some r) (henabled : conf.mCompareDisabled = false) :
    NoRecord w (outputFilterHandler2 env (some conf) w s).2.2 ↔
      ¬ (Compares conf w s r ∧ PastStop conf w (fillResponse s.req r)) := by
  cases hdone : s.done2 with
  | true =>
    simp only [outputFilterHandler2, hdone]
    exact iff_of_true ⟨rfl, rfl⟩ fun h => by simpa [hdone] using h.1.notDone
  | false =>
    cases heos : r.mEOS with
    | false =>
      simp only [outputFilterHandler2, hdone, hinfo, heos]
      exact iff_of_true ⟨rfl, rfl⟩ fun h => by simpa [heos] using h.1.complete
    | true =>
      have hcompares : Compares conf w s r ↔
          w.TakesRecord conf.mLogType ∧ ¬ BadElapsedTime (fillResponse s.req r) :=
        ⟨fun h => ⟨h.takes, h.numericTime⟩, fun h => ⟨hdone, heos, h.1, h.2⟩⟩
      rw [hcompares, pastStop_iff env]
      simp only [outputFilterHandler2, hdone, hinfo, heos, henabled, Bool.not_true,
        Bool.false_eq_true, ↓reduceIte]
      split_ifs with hcond
      · rw [writeDifferences_noRecord_iff, (compareResponses_parts env conf _).2.2.2, and_assoc,
          and_iff_right (Bool.and_eq_true_iff.1 hcond).1]
      · -- the statuses open the branch above, but they are no difference in it
        refine iff_of_true ⟨rfl, rfl⟩ fun h => hcond ?_
        rw [h.2.1, h.2.2, Bool.true_or, Bool.and_true]

/-- **When a STOP match silences the comparison.**  A match on the headers lets a difference of
the bodies through, and a match on the bodies a difference of the headers or of the database;
a record is then written unless the filter does not come to it. -/
theorem stop_silences_iff (env : CompareEnv) (conf : CompareConf) (w : World) (s : CompareState)
    (r : RequestInfo) (hinfo : s.info = some r) (henabled : conf.mCompareDisabled = false) :
    (HeaderStop conf (fillResponse s.req r) ∨ BodyStop conf (fillResponse s.req r) →
        NoRecord w (outputFilterHandler2 env (some conf) w s).2.2) ↔
      ¬ (Compares conf w s r ∧
        (HeaderStop conf (fillResponse s.req r) ∧ ¬ BodyStop conf (fillResponse s.req r) ∧
            BodiesDiffer conf (fillResponse s.req r) ∨
          BodyStop conf (fillResponse s.req r) ∧ ¬ HeaderStop conf (fillResponse s.req r) ∧
            (HeadersDiffer conf (fillResponse s.req r) ∨ checkCassandraDiff w r.mId = true))) := by
  have hid : (fillResponse s.req r).mId = r.mId := rfl
  rw [outputFilterHandler2_noRecord_iff env w hinfo henabled, PastStop, hid]
  constructor
  · rintro hsilent ⟨hcompares, ⟨hheader, hbody, hdiff⟩ | ⟨hbody, hheader, hdiff⟩⟩
    · exact hsilent (.inl hheader) ⟨hcompares, .inl ⟨hbody, hdiff⟩⟩
    · exact hsilent (.inr hbody) ⟨hcompares, .inr ⟨hheader, hdiff⟩⟩
  · rintro hno hstop ⟨hcompares, ⟨hbody, hdiff⟩ | ⟨hheader, hdiff⟩⟩
    · exact hno ⟨hcompares, .inl ⟨hstop.resolve_right hbody, hbody, hdiff⟩⟩
    · exact hno ⟨hcompares, .inr ⟨hstop.resolve_left hheader, hheader, hdiff⟩⟩

end Comparison

/-- A location that stops at the code 604 in a body, and at a form in the headers. -/
def stoppingConf : CompareConf :=
  { plainConf with
    mCompBody := { mStopRegex := [.literal (str "604")] }
    mCompHeader := ({} : MapCompare).addStopRegex (str "Content-Type") (.literal (str "form")) }

/-- The info of a request that was answered with the code 604. -/
def stoppedInfo : RequestInfo :=
  { RequestInfo.make (str "1") 0 with
    mEOS := true, mReqHttpStatus := 200, mResponseBody := str "604" }

/-- The local answer has the headers `headersOut` and no body. -/
def stoppedState (headersOut : AprTable) : CompareState where
  req := { status := 200, headersOut := headersOut, unparsedUri := str "/p" }
  info := some stoppedInfo

theorem bodyStop_stopped (headersOut : AprTable) :
    BodyStop stoppingConf (fillResponse (stoppedState headersOut).req stoppedInfo) :=
  ⟨str "604", List.mem_cons_self, .literal (str "604"), List.mem_cons_self, by decide⟩

/-- Both parts are stopped: nothing is written, though the bodies and the headers differ. -/
theorem stop_silences_both :
    NoRecord {} (outputFilterHandler2 plainEnv (some stoppingConf) {}
      (stoppedState [(str "Content-Type", str "form")])).2.2 := by
  have hheader : HeaderStop stoppingConf
      (fillResponse (stoppedState [(str "Content-Type", str "form")]).req stoppedInfo) :=
    headerStop_iff.2 (by decide)
  refine (stop_silences_iff plainEnv stoppingConf {}
    (stoppedState [(str "Content-Type", str "form")]) stoppedInfo rfl rfl).2 ?_ (.inl hheader)
  rintro ⟨-, ⟨-, hbody, -⟩ | ⟨-, hno, -⟩⟩
  · exact hbody (bodyStop_stopped _)
  · exact hno hheader

/-- The body of the original answer is stopped, and a header that only the local answer has is
reported all the same. -/
theorem body_stop_reports_header :
    stoppingConf.mCompareDisabled = false ∧
      BodyStop stoppingConf (fillResponse (stoppedState [(str "A", str "1")]).req stoppedInfo) ∧
      ¬ NoRecord {} (outputFilterHandler2 plainEnv (some stoppingConf) {}
        (stoppedState [(str "A", str "1")])).2.2 := by
  refine ⟨rfl, bodyStop_stopped _, ?_⟩
  rw [outputFilterHandler2_noRecord_iff (r := stoppedInfo) plainEnv {} rfl rfl, not_not]
  have hgood : ¬ BadElapsedTime stoppedInfo := by
    rintro ⟨v, hv, -⟩
    cases hv
  refine ⟨⟨rfl, rfl, ⟨rfl, rfl⟩, hgood⟩, .inr ⟨?_, .inl fun h => ?_⟩⟩
  · rw [headerStop_iff]
    decide
  · have := congrArg (fun m : MapStr => m.entries.length) h
    revert this
    decide

end ModDup
