import ModDup.Lib.Runs
import ModDup.Compare.Input
import ModDup.Compare.Stop

/-!
# The ways out of the comparison

The call of the second output filter that sees the end of a response compares it.  The record is
only written behind a chain of conditions, and it is in the writing that the time of the original
request is converted a second time, outside of the `try`, and that the entries of the request are
taken out of the `Differences` table (`src/filters_compare.cc`, `src/response_diff.cc`).

## Main definitions

* `ComesToRecord` : the conditions under which the filter comes to the record.
* `Original`, `answered` : a request with its two answers.
* `TableEvent`, `TableRun.step` : the table over a sequence of requests.

## Main results

* `outputFilterHandler2_exits` : when an exception leaves the comparing call, and what the call
  does to the table.
* `comparison_escapes_iff` : when a request makes the comparison throw.
* `table_cleared_iff` : when the table is cleared, and what it holds then over every run.
-/

namespace ModDup

open Bytes

/-! ### The comparing call -/

section Call

variable {env : CompareEnv} {conf : CompareConf} {w : World} {s : CompareState} {r : RequestInfo}

/-- The filter comes to the record: a part without a STOP match has a difference, where the table
and the statuses count with the headers. -/
def ComesToRecord (conf : CompareConf) (w : World) (r : RequestInfo) : Prop :=
  ¬ BodyStop conf r ∧ BodiesDiffer conf r ∨
    ¬ HeaderStop conf r ∧
      (HeadersDiffer conf r ∨ checkCassandraDiff w r.mId = true ∨ statusDiffers r = true)

theorem comesToRecord_iff (env : CompareEnv) (conf : CompareConf) (w : World) (r : RequestInfo) :
    (((compareResponses env conf r).1 || (compareResponses env conf r).2.1) &&
      ((compareResponses env conf r).2.2.isADiff || checkCassandraDiff w r.mId ||
        statusDiffers r)) = true ↔ ComesToRecord conf w r := by
  obtain ⟨hheader, hbody, hflag, -⟩ := compareResponses_parts env conf r
  rw [Bool.and_eq_true, Bool.or_eq_true, Bool.or_eq_true, Bool.or_eq_true, hheader, hbody, hflag,
    ComesToRecord]
  constructor
  · rintro ⟨hresult, ((hheaders | hbodies) | hentry) | hstatus⟩
    · exact .inr ⟨hheaders.1, .inl hheaders.2⟩
    · exact .inl hbodies
    · rcases hresult with hmade | hbodies
      · exact .inr ⟨hmade, .inr (.inl hentry)⟩
      · exact .inl hbodies
    · rcases hresult with hmade | hbodies
      · exact .inr ⟨hmade, .inr (.inr hstatus)⟩
      · exact .inl hbodies
  · rintro (hbodies | ⟨hmade, hheaders | hentry | hstatus⟩)
    · exact ⟨.inr hbodies, .inl (.inl (.inr hbodies))⟩
    · exact ⟨.inl hmade, .inl (.inl (.inl ⟨hmade, hheaders⟩))⟩
    · exact ⟨.inl hmade, .inl (.inr hentry)⟩
    · exact ⟨.inl hmade, .inr hstatus⟩

/-- The two infos are the same for the comparison. -/
structure SameAnswers (r r' : RequestInfo) : Prop where
  id : r.mId = r'.mId
  header : r.mResponseHeader = r'.mResponseHeader
  body : r.mResponseBody = r'.mResponseBody
  dupHeader : r.mDupResponseHeader = r'.mDupResponseHeader
  dupBody : r.mDupResponseBody = r'.mDupResponseBody
  status : r.mReqHttpStatus = r'.mReqHttpStatus
  dupStatus : r.mDupResponseHttpStatus = r'.mDupResponseHttpStatus

theorem SameAnswers.comesToRecord_iff {r r' : RequestInfo} (h : SameAnswers r r') :
    ComesToRecord conf w r ↔ ComesToRecord conf w r' := by
  simp only [ComesToRecord, BodyStop, BodiesDiffer, HeaderStop, HeadersDiffer, statusDiffers, h.id,
    h.header, h.body, h.dupHeader, h.dupBody, h.status, h.dupStatus]

/-- The table without the entries of a request. -/
def World.without (w : World) (id : Bytes) : List (Bytes × FieldInfo) :=
  w.differences.filter fun e => e.1 ≠ id

theorem without_eq_self {id : Bytes} (h : checkCassandraDiff w id = false) :
    w.without id = w.differences := by
  rw [checkCassandraDiff, List.any_eq_false] at h
  exact List.filter_eq_self.2 fun e he => by simpa using h e he

theorem differences_writeCassandraDiff (w : World) (id : Bytes) (p : DiffPrinter) :
    (writeCassandraDiff w id p).2.2.differences = w.without id := by
  have hfst := writeCassandraDiff_fst w id p
  unfold writeCassandraDiff at hfst ⊢
  dsimp only at hfst ⊢
  split_ifs at hfst ⊢
  · exact (without_eq_self hfst.symm).symm
  · rfl

theorem differences_writeRecord (w : World) (kind : DiffTypeAvailable) (res : Bytes) :
    (writeRecord w kind res).differences = w.differences := by
  unfold writeRecord
  split_ifs <;> rfl

theorem writeDifferences_exits (env : CompareEnv) (w : World) (r : RequestInfo) (p : DiffPrinter) :
    BadElapsedTime r ∧ writeDifferences env w r p = (true, w) ∨
      ¬ BadElapsedTime r ∧ (writeDifferences env w r p).1 = false ∧
        (writeDifferences env w r p).2.differences = w.without r.mId := by
  set p₁ := if env.comparisonTime > 0 then
    p.addInfoNum (str "ElapsedTime") env.comparisonTime else p with hp₁
  have hsome := addRuntimes_isSome_iff r env.today p₁
  cases hrun : addRuntimes r env.today p₁ with
  | none =>
    rw [hrun] at hsome
    refine .inl ⟨by simpa using hsome, ?_⟩
    simp only [writeDifferences, ← hp₁, hrun]
  | some p₂ =>
    rw [hrun] at hsome
    have hcass := differences_writeCassandraDiff w r.mId (addRequest r p₂)
    refine .inr ⟨by simpa using hsome, ?_, ?_⟩
    · simp only [writeDifferences, ← hp₁, hrun]
    · simp only [writeDifferences, ← hp₁, hrun]
      split_ifs
      · exact hcass
      · exact (differences_writeRecord _ _ _).trans hcass

/-- The call that performs the comparison: the response is complete and was not compared yet. -/
structure Comparing (s : CompareState) (r : RequestInfo) : Prop where
  info : s.info = some r
  complete : r.mEOS = true
  notDone : s.done2 = false

/-- The comparing call as a whole: whether it throws, and the table after it. -/
theorem outputFilterHandler2_exits (env : CompareEnv) (conf : CompareConf) (w : World)
    (hs : Comparing s r) :
    let out := outputFilterHandler2 env (some conf) w s
    let record := conf.mCompareDisabled = false ∧ ComesToRecord conf w (fillResponse s.req r)
    (out.1 = true ↔ record ∧ BadElapsedTime r) ∧
      (record ∧ ¬ BadElapsedTime r ∧ out.2.2.differences = w.without r.mId ∨
        ¬ (record ∧ ¬ BadElapsedTime r) ∧ out.2.2.differences = w.differences) := by
  have hbad : BadElapsedTime (fillResponse s.req r) ↔ BadElapsedTime r := Iff.rfl
  cases hoff : conf.mCompareDisabled with
  | true =>
    have hlog : ∀ r', (writeSerializedRequest env w r').differences = w.differences := by
      intro r'
      unfold writeSerializedRequest
      split_ifs <;> rfl
    simp [outputFilterHandler2, hs.notDone, hs.info, hs.complete, hoff, hlog]
  | false =>
    have hcond := comesToRecord_iff env conf w (fillResponse s.req r)
    simp only [outputFilterHandler2, hs.notDone, hs.info, hs.complete, hoff, Bool.not_true,
      Bool.false_eq_true, ↓reduceIte, true_and]
    by_cases hcomes : ComesToRecord conf w (fillResponse s.req r)
    · rw [if_pos (hcond.2 hcomes)]
      obtain ⟨hb, hout⟩ | ⟨hb, hthrown, hdiff⟩ := writeDifferences_exits env w
        (fillResponse s.req r) (compareResponses env conf (fillResponse s.req r)).2.2
      · rw [hout]
        simp [hcomes, hbad.1 hb]
      · rw [hthrown, hdiff]
        have hgood : ¬ BadElapsedTime r := hbad.not.1 hb
        have hid : (fillResponse s.req r).mId = r.mId := rfl
        simp [hcomes, hgood, hid]
    · rw [if_neg (mt hcond.1 hcomes)]
      simp [hcomes]

end Call

/-! ### A request that makes the comparison throw -/

/-- The original request as the input filter takes it from the payload. -/
structure Original where
  mReqBody : Bytes := []
  mResponseHeader : MapStr := .empty
  mResponseBody : Bytes := []

/-- The status and the headers of the local response. -/
structure Answer where
  status : ℤ := 200
  headersOut : AprTable := []

/-- A request `initRequest` has seen, with what came in its payload and the head of its response. -/
def answered (nextReqId : ℕ) (q : RequestRec) (o : Original) (a : Answer) : CompareState :=
  let s := initRequest nextReqId { req := q }
  { s with
    req := { s.req with status := a.status, headersOut := a.headersOut }
    info := s.info.map fun r =>
      { r with
        mReqBody := o.mReqBody
        mResponseHeader := o.mResponseHeader
        mResponseBody := o.mResponseBody }
    inputRead := true }

/-- What is compared, said of the request as it came in: its headers as a map, the two answers,
where the local one has the header of `outputFilterHandler`. -/
def comparedInfo (conf : CompareConf) (w : World) (nextReqId : ℕ) (q : RequestRec) (o : Original)
    (a : Answer) (data : Bytes) : RequestInfo where
  mId := (getOrSetUniqueID nextReqId q).1
  mReqHeader := OrdMap.empty.setAll q.headersIn
  mReqHttpStatus := originalStatus (OrdMap.empty.setAll q.headersIn)
  mResponseHeader := o.mResponseHeader
  mResponseBody := o.mResponseBody
  mDupResponseHeader :=
    OrdMap.empty.setAll (compMark w conf { q with headersOut := a.headersOut }).headersOut
  mDupResponseBody := data
  mDupResponseHttpStatus := a.status

section Request

variable {nextReqId : ℕ} {q : RequestRec} {k : Bytes}

/-- The headers the info of a request gets: `initRequest` has not touched the other names. -/
theorem get?_setAll_restored (m : MapStr) (h : ∀ n ∈ initNames.take 5, sameName k n = false) :
    (m.setAll (restoreContentType (markTranslated (restoreMethod
      (makeRequestInfo nextReqId q).2))).headersIn).get? k = (m.setAll q.headersIn).get? k := by
  have hblind : BlindTo (initNames.take 5) fun t => (m.setAll t).get? k :=
    { set := fun n hn t _ => get?_setAll_set m t (h n hn)
      unset := fun n hn t => get?_setAll_unset m t (h n hn) }
  exact hblind.headersIn_restored nextReqId q

variable (nextReqId q) in
theorem initRequest_info :
    ∃ r, (initRequest nextReqId { req := q }).info = some r ∧ Fresh r ∧
      r.mId = (getOrSetUniqueID nextReqId q).1 ∧
      r.mReqHttpStatus = originalStatus (OrdMap.empty.setAll q.headersIn) ∧
      (BadElapsedTime r ↔ ∃ v, (OrdMap.empty.setAll q.headersIn : MapStr).get? elapsedTimeByDup =
        some v ∧ lexicalCastInt 32 v = none) := by
  set m : MapStr := OrdMap.empty.setAll (restoreContentType (markTranslated (restoreMethod
    (makeRequestInfo nextReqId q).2))).headersIn with hm
  have hget : ∀ k, (∀ n ∈ initNames.take 5, sameName k n = false) →
      m.get? k = ((OrdMap.empty : MapStr).setAll q.headersIn).get? k :=
    fun k hk => get?_setAll_restored .empty hk
  refine ⟨{ (makeRequestInfo nextReqId q).1 with
    mReqHeader := m, mReqHttpStatus := originalStatus m }, rfl, ⟨rfl, rfl, rfl, rfl, rfl⟩, rfl,
    ?_, ?_⟩
  · unfold originalStatus
    rw [hget _ (by decide)]
  · rw [← hget elapsedTimeByDup (by decide)]
    rfl

theorem respond_not_collected {env : CompareEnv} {conf : CompareConf} {w : World}
    {s : CompareState} {r : RequestInfo} (hinfo : s.info = some r) (heos : r.mEOS = false)
    (hout : (find (str "comp_truncate") s.req.uri).isSome = true ∨ isDupResponse s.req = false)
    (bs : List Brigade) : (respond env (some conf) bs s w).1 = false := by
  induction bs generalizing s w with
  | nil => rfl
  | cons b bs ih =>
    obtain ⟨w', hfirst⟩ : ∃ w', outputFilterHandler env (some conf) w s b =
        ({ s with done1 := true }, w') := by
      unfold outputFilterHandler
      by_cases hdone : s.done1 = true
      · exact ⟨w, by rw [if_pos hdone, ← hdone]⟩
      by_cases htrunc : (find (str "comp_truncate") s.req.uri).isSome = true
      · exact ⟨_, by rw [if_neg hdone, if_pos htrunc]⟩
      have hdup : (!isDupResponse s.req) = true := by
        rw [hout.resolve_left htrunc]
        rfl
      exact ⟨w, by rw [if_neg hdone, if_neg htrunc, if_pos hdup]⟩
    set s' : CompareState := { s with done1 := true } with hs'
    have hinfo' : s'.info = some r := hinfo
    rw [respond, hfirst]
    dsimp only
    rw [outputFilterHandler2_of_not_eos hinfo' heos]
    exact ih hinfo' hout

/-- When a request makes the comparison throw: it is one with its answer, the two answers
bring the filter to the record, and the last header that is spelled just like the time of the
original request is no number. -/
theorem comparison_escapes_iff (env : CompareEnv) (conf : CompareConf) (w : World)
    (nextReqId : ℕ) (q : RequestRec) (o : Original) (a : Answer) {data : Bytes}
    {bs : List Brigade} (hcut : CutOf data bs) :
    (respond env (some conf) bs (answered nextReqId q o a) w).1 = false ↔
      ¬ (isDupResponse q = true ∧ find (str "comp_truncate") q.uri = none ∧
        conf.mCompareDisabled = false ∧
        ComesToRecord conf w (comparedInfo conf w nextReqId q o a data) ∧
        BadElapsedTime (comparedInfo conf w nextReqId q o a data)) := by
  obtain ⟨r, hinfo, ⟨-, -, hheader, hbody, heos⟩, hid, hstatus, hbad⟩ :=
    initRequest_info nextReqId q
  set r₁ : RequestInfo := { r with
    mReqBody := o.mReqBody
    mResponseHeader := o.mResponseHeader
    mResponseBody := o.mResponseBody } with hr₁
  set s := answered nextReqId q o a with hs
  have hsinfo : s.info = some r₁ := by rw [hs, answered, hinfo, Option.map_some]
  have hsame : SameRequest s.req q := by
    have h := sameRequest_initRequest nextReqId { req := q }
    exact ⟨h.uri, h.dup, h.log⟩
  by_cases hdup : isDupResponse q = true
  swap
  · rw [Bool.not_eq_true] at hdup
    have hout : (respond env (some conf) bs s w).1 = false :=
      respond_not_collected hsinfo heos (.inr (hsame.dup.trans hdup)) bs
    simp [hout, hdup]
  cases huri : find (str "comp_truncate") q.uri with
  | some n =>
    have hout : (respond env (some conf) bs s w).1 = false :=
      respond_not_collected hsinfo heos (.inl (by rw [hsame.uri, huri]; rfl)) bs
    simp [hout]
  | none =>
    rw [respond_eq hsinfo heos rfl (by rw [hsame.uri]; exact huri) (hsame.dup.trans hdup) hcut]
    set r₂ := RequestInfo.eosSeen { r₁ with mDupResponseBody := r₁.mDupResponseBody ++ data }
      env.now true with hr₂
    set s₂ : CompareState := { s with req := compMark w conf s.req, info := some r₂ } with hs₂
    have hmark : (compMark w conf s.req).headersOut =
        (compMark w conf { q with headersOut := a.headersOut }).headersOut :=
      compMark_headersOut w conf hsame.log rfl
    have hanswers : SameAnswers (fillResponse s₂.req r₂)
        (comparedInfo conf w nextReqId q o a data) :=
      { id := hid
        header := rfl
        body := rfl
        dupHeader := by
          change r.mDupResponseHeader.setAll (compMark w conf s.req).headersOut = _
          rw [hheader, hmark]
          rfl
        dupBody := by
          change r.mDupResponseBody ++ data = data
          rw [hbody, List.nil_append]
        status := hstatus
        dupStatus := compMark_status w conf s.req }
    have hcall := (outputFilterHandler2_exits env conf w (s := s₂) (r := r₂) ⟨rfl, rfl, rfl⟩).1
    have hthrown : BadElapsedTime r₂ ↔ BadElapsedTime (comparedInfo conf w nextReqId q o a data) :=
      hbad
    rw [← Bool.not_eq_true, hcall, hanswers.comesToRecord_iff, hthrown]
    simp [hdup, and_assoc]

end Request

/-- A duplicated request that says the original one took `time` milliseconds. -/
def elapsedRequest (time : Bytes) : RequestRec where
  unparsedUri := str "/p"
  headersIn := [(str "Duplication-Type", str "Response"), (elapsedTimeByDup, time)]

/-- With a number for the time nothing escapes, though the local answer has a header of its own. -/
theorem comparison_escapes_iff_number :
    (respond plainEnv (some plainConf) [[.eos]] (answered 0 (elapsedRequest (str "12")) {}
      { headersOut := [(str "A", str "1")] }) {}).1 = false := by
  refine (comparison_escapes_iff plainEnv plainConf {} 0 (elapsedRequest (str "12")) {}
    { headersOut := [(str "A", str "1")] } ⟨[], [], rfl, by simp, rfl⟩).2 ?_
  rintro ⟨-, -, -, -, v, hv, hcast⟩
  have htime : ((OrdMap.empty : MapStr).setAll (elapsedRequest (str "12")).headersIn).get?
      elapsedTimeByDup = some (str "12") := by decide
  obtain rfl : str "12" = v := Option.some.inj (htime.symm.trans hv)
  revert hcast
  decide

/-- With a text that is no number the exception escapes. -/
theorem comparison_escapes_text :
    (respond plainEnv (some plainConf) [[.eos]] (answered 0 (elapsedRequest (str "abc")) {}
      { headersOut := [(str "A", str "1")] }) {}).1 = true := by
  decide

/-! ### The table over a sequence of requests -/

/-- The info of the request if this call compares it. -/
def comparing? (s : CompareState) : Option RequestInfo :=
  s.info.filter fun r => r.mEOS && !s.done2

theorem comparing?_eq_some_iff {s : CompareState} {r : RequestInfo} :
    comparing? s = some r ↔ Comparing s r := by
  rw [comparing?, Option.filter_eq_some_iff, Bool.and_eq_true, Bool.not_eq_true']
  exact ⟨fun h => ⟨h.1, h.2.1, h.2.2⟩, fun h => ⟨h.info, h.complete, h.notDone⟩⟩

theorem outputFilterHandler2_of_not_comparing (env : CompareEnv) (conf : CompareConf) (w : World)
    {s : CompareState} (h : comparing? s = none) :
    (outputFilterHandler2 env (some conf) w s).2.2 = w := by
  unfold outputFilterHandler2
  split
  · next r hdone hinfo heq =>
    have heos : r.mEOS = false := by
      simpa [comparing?, heq, hdone, Option.filter] using h
    simp [heos]
  · rfl

/-- What happens to the table: a request comes in, the application records a difference for a
request it is working on, the second output filter is called. -/
inductive TableEvent where
  | start (id : Bytes)
  | record (id : Bytes) (field : FieldInfo)
  | call (env : CompareEnv) (conf : CompareConf) (s : CompareState)

/-- The world, and the ids of the requests whose comparison has not returned yet. -/
structure TableRun where
  world : World := {}
  unfinished : List Bytes := []

/-- One event.  A request is finished when the call that compares it returns. -/
def TableRun.step (t : TableRun) : TableEvent → TableRun
  | .start id => { t with unfinished := id :: t.unfinished }
  | .record id field =>
    if id ∈ t.unfinished then
      { t with world := { t.world with differences := t.world.differences ++ [(id, field)] } }
    else t
  | .call env conf s =>
    let (thrown, _, w) := outputFilterHandler2 env (some conf) t.world s
    { world := w
      unfinished := match comparing? s with
        | some r => if thrown then t.unfinished else t.unfinished.erase r.mId
        | none => t.unfinished }

/-- The request has no entries, or the filter comes to the record. -/
def LeavesNothing (conf : CompareConf) (w : World) (s : CompareState) (r : RequestInfo) : Prop :=
  checkCassandraDiff w r.mId = false ∨
    conf.mCompareDisabled = false ∧ ComesToRecord conf w (fillResponse s.req r)

/-- The entries of the request are gone, and the others are what they were. -/
def Cleared (w w' : World) (id : Bytes) : Prop :=
  (∀ e ∈ w'.differences, e.1 ≠ id) ∧ w'.without id = w.without id

theorem cleared_of_differences_eq {w w' : World} {id : Bytes}
    (h : w'.differences = w.differences) : Cleared w w' id ↔ checkCassandraDiff w id = false := by
  rw [Cleared, World.without, World.without, h, and_iff_left rfl, checkCassandraDiff,
    List.any_eq_false]
  exact forall₂_congr fun e _ => by simp

theorem cleared_of_differences_without {w w' : World} {id : Bytes}
    (h : w'.differences = w.without id) : Cleared w w' id := by
  rw [Cleared, World.without, h, World.without]
  exact ⟨fun e he => by simpa using (List.mem_filter.1 he).2, by rw [List.filter_filter]; simp⟩

/-- The comparing call clears the table of the request, or leaves it as it is. -/
theorem cleared_iff (env : CompareEnv) (conf : CompareConf) (w : World) {s : CompareState}
    {r : RequestInfo} (hs : Comparing s r) :
    let out := outputFilterHandler2 env (some conf) w s
    (out.1 = false → Cleared w out.2.2 r.mId) ↔ LeavesNothing conf w s r := by
  obtain ⟨hthrown, hdiff⟩ := outputFilterHandler2_exits env conf w hs
  intro out
  unfold LeavesNothing
  set record := conf.mCompareDisabled = false ∧ ComesToRecord conf w (fillResponse s.req r)
  obtain ⟨hrecord, -, hdiff⟩ | ⟨hno, hdiff⟩ := hdiff
  · exact iff_of_true (fun _ => cleared_of_differences_without hdiff) (.inr hrecord)
  · rw [cleared_of_differences_eq hdiff]
    constructor
    · intro h
      cases hout : out.1 with
      | true => exact .inr (hthrown.1 hout).1
      | false => exact .inl (h hout)
    · rintro (hnone | hrecord) hout
      · exact hnone
      · -- the record was reached and nothing was thrown: then the table was cleared
        have hbad : ¬ BadElapsedTime r := fun h => by
          rw [hthrown.2 ⟨hrecord, h⟩] at hout
          cases hout
        exact absurd ⟨hrecord, hbad⟩ hno

/-- The condition on an event of a run. -/
def TableRun.Clears (t : TableRun) : TableEvent → Prop
  | .call _ conf s => ∀ r, comparing? s = some r → LeavesNothing conf t.world s r
  | _ => True

/-- The table holds only entries of unfinished requests. -/
def TableRun.Inv (t : TableRun) : Prop := ∀ e ∈ t.world.differences, e.1 ∈ t.unfinished

theorem TableRun.inv_step (t : TableRun) (e : TableEvent) (h : t.Inv) (he : t.Clears e) :
    (t.step e).Inv := by
  cases e with
  | start id => exact fun e he => List.mem_cons_of_mem id (h e he)
  | record id field =>
    simp only [TableRun.step]
    split_ifs with hid
    · intro e he
      rcases List.mem_append.1 he with he | he
      · exact h e he
      · rw [List.mem_singleton.1 he]
        exact hid
    · exact h
  | call env conf s =>
    cases hr : comparing? s with
    | none =>
      have hworld := outputFilterHandler2_of_not_comparing env conf t.world hr
      simp only [TableRun.step, hr, TableRun.Inv, hworld]
      exact h
    | some r =>
      have hs := comparing?_eq_some_iff.1 hr
      have hclear := (cleared_iff env conf t.world hs).2 (he r hr)
      obtain ⟨-, hdiff⟩ := outputFilterHandler2_exits env conf t.world hs
      -- whatever the call does, it adds no entry
      have hsub : ∀ e ∈ (outputFilterHandler2 env (some conf) t.world s).2.2.differences,
          e ∈ t.world.differences := by
        intro e he
        rcases hdiff with ⟨-, -, hdiff⟩ | ⟨-, hdiff⟩
        · rw [hdiff] at he
          exact (List.mem_filter.1 he).1
        · rw [hdiff] at he
          exact he
      intro e hmem
      simp only [TableRun.step, hr] at hmem ⊢
      split_ifs with hthrown
      · exact h e (hsub e hmem)
      · have hne := (hclear (Bool.eq_false_iff.2 hthrown)).1 e hmem
        exact (List.mem_erase_of_ne hne).2 (h e (hsub e hmem))

/-- When the table is cleared: by the call that compares a request, if it returns, iff the request
has no entries or the filter comes to the record; and over every run whose comparisons all do, the
table holds only entries of unfinished requests. -/
theorem table_cleared_iff (env : CompareEnv) (conf : CompareConf) (w : World) (s : CompareState)
    (r : RequestInfo) (es : List TableEvent) :
    (Comparing s r →
      let out := outputFilterHandler2 env (some conf) w s
      (out.1 = false → Cleared w out.2.2 r.mId) ↔ LeavesNothing conf w s r) ∧
    (Runs.Along TableRun.step TableRun.Clears {} es → (Runs.run TableRun.step {} es).Inv) :=
  ⟨fun hs => cleared_iff env conf w hs, fun hes =>
    Runs.run_invariant_along TableRun.inv_step (fun e he => by simp at he) hes⟩

/-- A difference of some field. -/
def someField : FieldInfo := ⟨str "name", str "0", str "db", str "req"⟩

/-- A difference was recorded for a request, and the call that compares it clears the table. -/
theorem table_cleared_iff_recorded :
    let before : List TableEvent := [.start (str "1"), .record (str "1") someField]
    let call : TableEvent := .call plainEnv plainConf (comparedState 200 [(str "A", str "1")])
    (Runs.run TableRun.step {} before).world.differences = [(str "1", someField)] ∧
      (Runs.run TableRun.step {} (before ++ [call])).world.differences = [] := by
  intro before call
  set s := comparedState 200 [(str "A", str "1")] with hs
  have hcomes : ∀ r, comparing? s = some r → ∀ w, LeavesNothing plainConf w s r := by
    intro r hr w
    obtain ⟨hinfo, -, -⟩ := comparing?_eq_some_iff.1 hr
    obtain rfl := Option.some.inj hinfo
    refine .inr ⟨rfl, .inr ⟨?_, .inl fun h => ?_⟩⟩
    · rw [headerStop_iff]
      decide
    · have := congrArg (fun m : MapStr => m.entries.length) h
      revert this
      decide
  have hinv := (table_cleared_iff plainEnv plainConf {} s stoppedInfo (before ++ [call])).2
    ⟨trivial, trivial, fun r hr => hcomes r hr _, trivial⟩
  refine ⟨rfl, List.eq_nil_iff_forall_not_mem.2 fun e he => ?_⟩
  -- no request is unfinished
  have hnone : (Runs.run TableRun.step {} (before ++ [call])).unfinished = [] := by decide
  have hmem := hinv e he
  rw [hnone] at hmem
  cases hmem

/-- Both parts are stopped, and the entry of the request stays in the table. -/
theorem stopped_table_not_cleared :
    let w : World := { differences := [(str "1", someField)] }
    let s := stoppedState [(str "Content-Type", str "form")]
    let out := outputFilterHandler2 plainEnv (some stoppingConf) w s
    Comparing s stoppedInfo ∧ out.1 = false ∧ ¬ Cleared w out.2.2 stoppedInfo.mId := by
  intro w s out
  have hout : out.1 = false ∧ out.2.2.differences = [(str "1", someField)] := by decide
  refine ⟨⟨rfl, rfl, rfl⟩, hout.1, fun h => ?_⟩
  have hid : str "1" ≠ stoppedInfo.mId := h.1 (str "1", someField) (by simp [hout.2])
  exact hid rfl

end ModDup
