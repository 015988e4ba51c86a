import ModDup.Compare.Replay

/-!
# One comparison for each request

The two output filters of `mod_compare` share the info of the request and nothing else: the first
collects the response in it and notes its end, and the second waits for the end.  A response may
be cut into brigades in any way, other requests write to the log in between, and brigades may
follow the end of the response (`outputFilterHandler`, `outputFilterHandler2` in
`src/filters_compare.cc`).

## Main definitions

* `Comparison`, `comparisonBlock` : an execution of the block behind the early exits of the second
  filter.
* `Passage`, `OutputRun.step` : the brigades of a response, with the executions of the block.

## Main results

* `outputFilterHandler2_eq_block` : the second filter is its early exits and the block.
* `respond_eq_run` : the response of `Compare.Input` is a run.
* `collecting_step`, `decided_step` : what a brigade does before and after the end.
* `compared_once_whole` : the block is executed once, on the whole response, however it is cut.
-/

namespace ModDup

open Bytes

/-! ### The block -/

/-- An execution of the comparison block: the info as the block has it, and what the comparison of
the headers and of the bodies found, unless the request is only to be kept. -/
structure Comparison where
  info : RequestInfo
  found : Option (Bool × Bool × DiffPrinter)

/-- The early exits of `outputFilterHandler2`; behind them the block is executed. -/
def comparisonBlock (env : CompareEnv) (conf : Option CompareConf) (s : CompareState) :
    Option Comparison :=
  match s.done2, conf, s.info with
  | false, some conf, some r =>
    if !r.mEOS then none
    else if conf.mCompareDisabled then
      some ⟨{ fillResponse s.req r with mDupResponseHttpStatus := r.mDupResponseHttpStatus }, none⟩
    else some ⟨fillResponse s.req r, some (compareResponses env conf (fillResponse s.req r))⟩
  | _, _, _ => none

/-- What is written after the comparison; the filter is done then. -/
def Comparison.write (env : CompareEnv) (w : World) (s : CompareState) (c : Comparison) :
    Bool × CompareState × World :=
  match c.found with
  | none =>
    (false, { s with info := some c.info, done2 := true }, writeSerializedRequest env w c.info)
  | some (headerDiff, bodyDiff, printer) =>
    let (thrown, w) :=
      if (headerDiff || bodyDiff) &&
          (printer.isADiff || checkCassandraDiff w c.info.mId || statusDiffers c.info) then
        writeDifferences env w c.info printer
      else (false, w)
    (thrown, { s with info := some c.info, done2 := !thrown }, w)

/-- The second filter is its early exits and the block. -/
theorem outputFilterHandler2_eq_block (env : CompareEnv) (conf : Option CompareConf) (w : World)
    (s : CompareState) :
    outputFilterHandler2 env conf w s =
      match comparisonBlock env conf s with
      | none => (false, s, w)
      | some c => c.write env w s := by
  obtain ⟨req, info, inputRead, done1, done2⟩ := s
  unfold outputFilterHandler2 comparisonBlock
  match done2, conf, info with
  | true, _, _ => rfl
  | false, none, _ => rfl
  | false, some _, none => rfl
  | false, some conf, some r =>
    by_cases heos : r.mEOS = true
    · by_cases hoff : conf.mCompareDisabled = true
      · simp only [heos, hoff, Bool.not_true, Bool.false_eq_true, ↓reduceIte]
        rfl
      · simp only [heos, hoff, Bool.not_true, Bool.false_eq_true, ↓reduceIte]
        rfl
    · simp only [heos, Bool.not_false, ↓reduceIte]

/-! ### The brigades of a response -/

/-- What other requests do to the world between two calls; the settings of the log are read once,
with the configuration. -/
structure Others where
  act : World → World
  gWriteInFile : ∀ w, (act w).gWriteInFile = w.gWriteInFile
  gFilePath : ∀ w, (act w).gFilePath = w.gFilePath

/-- A brigade comes: what happened since the last one, and what the clock says. -/
structure Passage where
  brigade : Brigade
  others : Others := ⟨id, fun _ => rfl, fun _ => rfl⟩
  now : ℤ := 0
  comparisonTime : ℤ := 0
  today : Bytes := []

/-- The libraries, at the time of the passage. -/
def Passage.env (p : Passage) (env : CompareEnv) : CompareEnv :=
  { env with now := p.now, comparisonTime := p.comparisonTime, today := p.today }

/-- The brigades so far. -/
structure OutputRun where
  state : CompareState
  world : World
  /-- The number of calls of the two filters. -/
  calls : ℕ := 0
  /-- The executions of the comparison block, each with the number of calls before it. -/
  compared : List (ℕ × Comparison) := []
  /-- An exception has left the filters. -/
  thrown : Bool := false

/-- A brigade goes through the two filters; nobody catches an exception, so none comes after it. -/
def OutputRun.step (env : CompareEnv) (conf : CompareConf) (st : OutputRun) (p : Passage) :
    OutputRun :=
  if st.thrown then st
  else
    let (s, w) :=
      outputFilterHandler (p.env env) (some conf) (p.others.act st.world) st.state p.brigade
    let (thrown, s', w') := outputFilterHandler2 (p.env env) (some conf) w s
    { state := s'
      world := w'
      calls := st.calls + 1
      compared := st.compared ++
        ((comparisonBlock (p.env env) (some conf) s).map (Prod.mk st.calls)).toList
      thrown := thrown }

theorem run_thrown {env : CompareEnv} {conf : CompareConf} {st : OutputRun}
    (h : st.thrown = true) (ps : List Passage) :
    Runs.run (OutputRun.step env conf) st ps = st := by
  induction ps with
  | nil => rfl
  | cons p ps ih =>
    have hstep : st.step env conf p = st := if_pos h
    rw [Runs.run_cons, hstep, ih]

/-- A brigade while the clock stands still and no other request is there. -/
def Passage.still (env : CompareEnv) (brigade : Brigade) : Passage where
  brigade := brigade
  now := env.now
  comparisonTime := env.comparisonTime
  today := env.today

/-- A response as a whole is a run of such brigades. -/
theorem respond_eq_run (env : CompareEnv) (conf : CompareConf) (bs : List Brigade)
    {st : OutputRun} (hopen : st.thrown = false) :
    respond env (some conf) bs st.state st.world =
      let st' := Runs.run (OutputRun.step env conf) st (bs.map (Passage.still env))
      (st'.thrown, st'.state, st'.world) := by
  induction bs generalizing st with
  | nil =>
    rw [respond, List.map_nil, Runs.run_nil]
    simp only [hopen]
  | cons b bs ih =>
    obtain ⟨s, w, hfirst⟩ : ∃ s w,
        outputFilterHandler env (some conf) st.world st.state b = (s, w) := ⟨_, _, rfl⟩
    obtain ⟨thrown, s', w', hsecond⟩ : ∃ thrown s' w',
        outputFilterHandler2 env (some conf) w s = (thrown, s', w') := ⟨_, _, _, rfl⟩
    have henv : (Passage.still env b).env env = env := rfl
    have hsame : outputFilterHandler env (some conf) ((Passage.still env b).others.act st.world)
        st.state (Passage.still env b).brigade = (s, w) := hfirst
    obtain ⟨st', hst', hstate, hworld, hthrown⟩ : ∃ st' : OutputRun,
        st.step env conf (Passage.still env b) = st' ∧ st'.state = s' ∧ st'.world = w' ∧
          st'.thrown = thrown := by
      simp only [OutputRun.step, hopen, henv, hsame, hsecond, Bool.false_eq_true, ↓reduceIte]
      exact ⟨_, rfl, rfl, rfl, rfl⟩
    rw [List.map_cons, Runs.run_cons, hst', respond, hfirst]
    dsimp only
    rw [hsecond]
    cases thrown with
    | true => rw [run_thrown hthrown, hthrown, hstate, hworld]
    | false =>
      rw [← hstate, ← hworld]
      exact ih hthrown

/-! ### Before the end of the response -/

section Collect

variable {env : CompareEnv} {conf : CompareConf} {w₀ : World} {s₀ : CompareState} {r₀ : RequestInfo}
  {st : OutputRun}

/-- Worlds with the same settings of the log. -/
def SameSettings (w w' : World) : Prop :=
  w.gWriteInFile = w'.gWriteInFile ∧ w.gFilePath = w'.gFilePath

theorem compMark_congr {w w' : World} (h : SameSettings w w') (conf : CompareConf)
    (req : RequestRec) : compMark w conf req = compMark w' conf req := by
  unfold compMark compStatus
  rw [h.1, h.2]

/-- The invariant before the end: `data` was collected, and nothing was compared. -/
structure Collecting (conf : CompareConf) (w₀ : World) (s₀ : CompareState) (r₀ : RequestInfo)
    (n : ℕ) (data : Bytes) (st : OutputRun) : Prop where
  info : st.state.info = some { r₀ with mDupResponseBody := r₀.mDupResponseBody ++ data }
  request : SameRequest st.state.req s₀.req
  mark : compMark w₀ conf st.state.req = compMark w₀ conf s₀.req
  done1 : st.state.done1 = false
  done2 : st.state.done2 = false
  settings : SameSettings st.world w₀
  calls : st.calls = n
  compared : st.compared = []
  thrown : st.thrown = false

theorem Collecting.outputFilterHandler {n : ℕ} {data : Bytes}
    (h : Collecting conf w₀ s₀ r₀ n data st) (hdup : isDupResponse s₀.req = true)
    (huri : find (str "comp_truncate") s₀.req.uri = none) (p : Passage) :
    ModDup.outputFilterHandler (p.env env) (some conf) (p.others.act st.world) st.state p.brigade =
      ({ st.state with
          info := some (readResponse p.now
            { r₀ with mDupResponseBody := r₀.mDupResponseBody ++ data } p.brigade)
          req := compMark w₀ conf s₀.req },
        p.others.act st.world) := by
  have hsettings : SameSettings (p.others.act st.world) w₀ :=
    ⟨(p.others.gWriteInFile _).trans h.settings.1, (p.others.gFilePath _).trans h.settings.2⟩
  rw [outputFilterHandler_eq h.info h.done1 (by rw [h.request.uri]; exact huri)
    (h.request.dup.trans hdup), compMark_congr hsettings, h.mark]
  rfl

/-- A brigade before the end only adds to the body. -/
theorem collecting_step (env : CompareEnv) {n : ℕ} {data : Bytes}
    (h : Collecting conf w₀ s₀ r₀ n data st) (hdup : isDupResponse s₀.req = true)
    (huri : find (str "comp_truncate") s₀.req.uri = none) (heos : r₀.mEOS = false) {p : Passage}
    (hp : .eos ∉ p.brigade) :
    Collecting conf w₀ s₀ r₀ (n + 1) (data ++ p.brigade.flatMap Bucket.content)
      (st.step env conf p) := by
  set r : RequestInfo := { r₀ with
    mDupResponseBody := r₀.mDupResponseBody ++ (data ++ p.brigade.flatMap Bucket.content) } with hr
  set s : CompareState := { st.state with info := some r, req := compMark w₀ conf s₀.req } with hs
  have hfirst : outputFilterHandler (p.env env) (some conf) (p.others.act st.world) st.state
      p.brigade = (s, p.others.act st.world) := by
    rw [h.outputFilterHandler hdup huri, readResponse_data p.now _ hp]
    simp only [hs, hr, List.append_assoc]
  have hblock : comparisonBlock (p.env env) (some conf) s = none := by
    simp [comparisonBlock, hs, hr, h.done2, heos]
  have hstep : st.step env conf p =
      { st with state := s, world := p.others.act st.world, calls := n + 1 } := by
    simp [OutputRun.step, h.thrown, hfirst, outputFilterHandler2_eq_block, hblock, h.calls]
  rw [hstep]
  exact
    { info := rfl
      request := sameRequest_compMark w₀ conf s₀.req
      mark := compMark_compMark w₀ conf s₀.req
      done1 := h.done1
      done2 := h.done2
      settings := ⟨(p.others.gWriteInFile _).trans h.settings.1,
        (p.others.gFilePath _).trans h.settings.2⟩
      calls := rfl
      compared := h.compared
      thrown := h.thrown }

theorem collecting_run (env : CompareEnv) (h : Collecting conf w₀ s₀ r₀ 0 [] st)
    (hdup : isDupResponse s₀.req = true) (huri : find (str "comp_truncate") s₀.req.uri = none)
    (heos : r₀.mEOS = false) {ps : List Passage} (hps : ∀ p ∈ ps, .eos ∉ p.brigade) :
    Collecting conf w₀ s₀ r₀ ps.length
      ((ps.map Passage.brigade).flatten.flatMap Bucket.content)
      (Runs.run (OutputRun.step env conf) st ps) := by
  induction ps using List.reverseRecOn with
  | nil => exact h
  | append_singleton ps p ih =>
    have hbefore := ih fun p' hp' => hps p' (List.mem_append_left _ hp')
    have hstep := collecting_step env hbefore hdup huri heos (hps p (by simp))
    rw [Runs.run_snoc]
    simpa using hstep

end Collect

/-! ### The end of the response, and after it -/

section Decide

variable {conf : CompareConf} {st : OutputRun}

/-- The invariant after the end: the block was executed, and is not executed again. -/
structure Decided (found : List (ℕ × Comparison)) (st : OutputRun) : Prop where
  compared : st.compared = found
  closed : st.thrown = true ∨ st.state.done2 = true

/-- The first filter knows nothing of the context of the second. -/
theorem outputFilterHandler_done2 (env : CompareEnv) (conf : Option CompareConf) (w : World)
    (s : CompareState) (b : Brigade) : (outputFilterHandler env conf w s b).1.done2 = s.done2 := by
  unfold outputFilterHandler
  split_ifs <;> try rfl
  all_goals
    dsimp only
    split <;> rfl

/-- The block leaves the filter done, or an exception behind. -/
theorem Comparison.write_closed (env : CompareEnv) (w : World) (s : CompareState)
    (c : Comparison) : (c.write env w s).1 = true ∨ (c.write env w s).2.1.done2 = true := by
  unfold Comparison.write
  split
  · exact .inr rfl
  · dsimp only
    rw [Bool.not_eq_true']
    exact Bool.eq_false_or_eq_true _

theorem decided_step (env : CompareEnv) (conf : CompareConf) {found : List (ℕ × Comparison)}
    (h : Decided found st) (p : Passage) : Decided found (st.step env conf p) := by
  by_cases hthrown : st.thrown = true
  · rw [OutputRun.step, if_pos hthrown]
    exact h
  · have hdone : st.state.done2 = true := h.closed.resolve_left hthrown
    set out := outputFilterHandler (p.env env) (some conf) (p.others.act st.world) st.state
      p.brigade with hout
    have hdone' : out.1.done2 = true := by
      rw [hout, outputFilterHandler_done2]
      exact hdone
    have hblock : comparisonBlock (p.env env) (some conf) out.1 = none := by
      simp [comparisonBlock, hdone']
    have hstep : st.step env conf p =
        { st with state := out.1, world := out.2, calls := st.calls + 1, thrown := false } := by
      simp [OutputRun.step, hthrown, ← hout, outputFilterHandler2_eq_block, hblock]
    rw [hstep]
    exact ⟨h.compared, .inr hdone'⟩

/-- What the comparison of the whole response finds. -/
def foundIn (env : CompareEnv) (conf : CompareConf) (r : RequestInfo) :
    Option (Bool × Bool × DiffPrinter) :=
  if conf.mCompareDisabled then none else some (compareResponses env conf r)

/-- **The call that carries the end executes the block**, on all that was collected. -/
theorem decided_of_end (env : CompareEnv) {w₀ : World} {s₀ : CompareState} {r₀ : RequestInfo}
    {n : ℕ} {data : Bytes} (h : Collecting conf w₀ s₀ r₀ n data st)
    (hdup : isDupResponse s₀.req = true)
    (huri : find (str "comp_truncate") s₀.req.uri = none) {p : Passage} {last : Brigade}
    (hp : p.brigade = last ++ [.eos]) (hlast : .eos ∉ last) :
    ∃ info, Decided [(n, ⟨info, foundIn env conf info⟩)] (st.step env conf p) ∧
      info.mDupResponseBody =
        r₀.mDupResponseBody ++ (data ++ last.flatMap Bucket.content) ∧
      foundIn env conf info = foundIn env conf (fillResponse (compMark w₀ conf s₀.req)
        { r₀ with mDupResponseBody := info.mDupResponseBody }) := by
  set r : RequestInfo := RequestInfo.eosSeen { r₀ with
    mDupResponseBody := r₀.mDupResponseBody ++ (data ++ last.flatMap Bucket.content) }
    p.now true with hr
  set s : CompareState := { st.state with info := some r, req := compMark w₀ conf s₀.req } with hs
  have hread : readResponse p.now { r₀ with mDupResponseBody := r₀.mDupResponseBody ++ data }
      p.brigade = r := by
    rw [hp, readResponse_end p.now _ hlast, hr]
    simp only [List.append_assoc]
  have hfirst : outputFilterHandler (p.env env) (some conf) (p.others.act st.world) st.state
      p.brigade = (s, p.others.act st.world) := by
    rw [h.outputFilterHandler hdup huri, hread]
  obtain ⟨info, hblock, hbody, hfound⟩ : ∃ info,
      comparisonBlock (p.env env) (some conf) s = some ⟨info, foundIn env conf info⟩ ∧
        info.mDupResponseBody = r.mDupResponseBody ∧
        foundIn env conf info = foundIn env conf (fillResponse (compMark w₀ conf s₀.req)
          { r₀ with mDupResponseBody := r.mDupResponseBody }) := by
    have hopen : s.done2 = false := h.done2
    have hinfo : s.info = some r := rfl
    have hend : r.mEOS = true := rfl
    unfold comparisonBlock foundIn
    simp only [hopen, hinfo, hend, Bool.not_true, Bool.false_eq_true, ↓reduceIte]
    -- neither the elapsed time nor the status is looked at
    split_ifs
    · exact ⟨_, rfl, rfl, rfl⟩
    · exact ⟨_, rfl, rfl, rfl⟩
  refine ⟨info, ?_, hbody, by rw [hbody]; exact hfound⟩
  set c : Comparison := ⟨info, foundIn env conf info⟩ with hc
  have hstep : st.step env conf p =
      { state := (c.write (p.env env) (p.others.act st.world) s).2.1
        world := (c.write (p.env env) (p.others.act st.world) s).2.2
        calls := n + 1
        compared := [(n, c)]
        thrown := (c.write (p.env env) (p.others.act st.world) s).1 } := by
    simp [OutputRun.step, h.thrown, hfirst, outputFilterHandler2_eq_block, hblock, h.calls,
      h.compared]
  rw [hstep]
  exact ⟨rfl, c.write_closed _ _ _⟩

end Decide

/-! ### The request before its response -/

section Received

variable {nextReqId : ℕ} {conf : CompareConf} {q : RequestRec} {s : CompareState} {r : RequestInfo}

/-- The payload of the request `q` was read, accepted or not, and there is no response yet. -/
structure Received (q : RequestRec) (s : CompareState) (r : RequestInfo) : Prop
    extends Unanswered s r where
  request : SameRequest s.req q
  read : s.inputRead = true

theorem received_sendBody (hs : Received q s r) (n : ℕ) (up : Upstream) :
    ∃ r', Received q (sendBody n s up).2.1 r' := by
  unfold sendBody
  rw [hs.info]
  dsimp only
  split_ifs
  · exact ⟨_, ⟨rfl, hs.header, hs.body, hs.eos, hs.done1, hs.done2⟩, hs.request, hs.read⟩
  · exact ⟨r, hs⟩

theorem deserializeBody_frame (r : RequestInfo) :
    (deserializeBody r).2.mDupResponseHeader = r.mDupResponseHeader ∧
      (deserializeBody r).2.mDupResponseBody = r.mDupResponseBody ∧
      (deserializeBody r).2.mEOS = r.mEOS := by
  unfold deserializeBody
  dsimp only
  repeat' split
  all_goals exact ⟨rfl, rfl, rfl⟩

theorem received_first (conf : CompareConf) (now : ℤ) (n : ℕ) (hdup : isDupResponse q = true)
    (hs : s = { req := q } ∨ s = initRequest nextReqId { req := q }) (up : Upstream) :
    ∃ r, Received q (compareInputFilterHandler nextReqId (some conf) now n s up).2.1 r := by
  obtain ⟨r₁, hr₁, hnew, hcall⟩ := inputFilter_first nextReqId conf now n hdup hs up
  have hsame := sameRequest_openPayload nextReqId now (extractBody up).1 q
  obtain ⟨hheader, hbody, heos⟩ := deserializeBody_frame
    { r₁ with mBody := r₁.mBody ++ (extractBody up).1, offset := 0 }
  obtain ⟨-, -, hnew⟩ := hnew
  have hread : ∀ req, SameRequest req q →
      Received q { openPayload nextReqId now (extractBody up).1 q with req := req }
        (readPayload now (extractBody up).1 r₁).2 := by
    intro req hreq
    refine ⟨⟨?_, hheader.trans hnew.1, hbody.trans hnew.2.1, heos.trans hnew.2.2, rfl, rfl⟩, hreq,
      rfl⟩
    simp only [openPayload, hr₁, Option.map_some]
  simp only [hcall]
  split_ifs
  · exact ⟨_, hread _ hsame⟩
  · exact received_sendBody (hread _ ((sameRequest_contentLength _ _).trans hsame)) n _

theorem received_run (nextReqId : ℕ) (conf : CompareConf) (translated : Bool)
    (hdup : isDupResponse q = true) (up : Upstream) {calls : List (ℤ × ℕ)} (hcalls : calls ≠ []) :
    ∃ r, Received q (Runs.run (Replay.step nextReqId conf)
      (.start nextReqId conf translated q up) calls).state r := by
  obtain ⟨call, calls, rfl⟩ := List.exists_cons_of_ne_nil hcalls
  rw [Runs.run_cons]
  refine Runs.run_invariant (P := fun st : Replay => ∃ r, Received q st.state r)
    (G := fun _ => True) ?_
    (received_first conf call.1 call.2 hdup (translated_eq nextReqId conf translated q) up)
    fun _ _ => trivial
  rintro st ⟨now, n⟩ ⟨r, hst⟩ -
  have hcall : compareInputFilterHandler nextReqId (some conf) now n st.state st.up =
      sendBody n st.state st.up := by
    simp [compareInputFilterHandler, hst.request.dup.trans hdup, hst.read]
  obtain ⟨r', hr'⟩ := received_sendBody hst n st.up
  rw [← hcall] at hr'
  exact ⟨r', hr'⟩

end Received

/-! ### All brigades -/

/-- **One comparison for each request, on the whole response.**  Once the application has asked for
the body of a duplicated request, its response may be cut in any way, and brigades may follow its
end: the block is executed once, in the call that carries the end, and the body it works on is all
the data.  What it finds is the same for all ways to cut the response.  The block is what the second
filter executes behind its early exits. -/
theorem compared_once_whole (nextReqId : ℕ) (env : CompareEnv) (conf : CompareConf)
    (translated : Bool) {q : RequestRec} (hdup : isDupResponse q = true)
    (huri : find (str "comp_truncate") q.uri = none) (up : Upstream) {calls : List (ℤ × ℕ)}
    (hcalls : calls ≠ []) (w : World) (data : Bytes) :
    (∃ found : Option (Bool × Bool × DiffPrinter),
      ∀ (before : List Passage) (last : Passage) (after : List Passage),
        CutOf data ((before ++ [last]).map Passage.brigade) →
        ∃ info : RequestInfo,
          (Runs.run (OutputRun.step env conf)
            { state := (Runs.run (Replay.step nextReqId conf)
                (.start nextReqId conf translated q up) calls).state
              world := w } (before ++ last :: after)).compared =
            [(before.length, ⟨info, found⟩)] ∧
          info.mDupResponseBody = data ∧
          found = if conf.mCompareDisabled then none
            else some (compareResponses env conf info)) ∧
      ∀ (env' : CompareEnv) (w' : World) (s' : CompareState),
        outputFilterHandler2 env' (some conf) w' s' =
          match comparisonBlock env' (some conf) s' with
          | none => (false, s', w')
          | some c => c.write env' w' s' := by
  refine ⟨?_, fun env' w' s' => outputFilterHandler2_eq_block env' (some conf) w' s'⟩
  obtain ⟨r, hr⟩ := received_run nextReqId conf translated hdup up hcalls
  set s := (Runs.run (Replay.step nextReqId conf) (.start nextReqId conf translated q up)
    calls).state with hs
  have hdup' : isDupResponse s.req = true := hr.request.dup.trans hdup
  have huri' : find (str "comp_truncate") s.req.uri = none := by rw [hr.request.uri]; exact huri
  refine ⟨foundIn env conf (fillResponse (compMark w conf s.req)
    { r with mDupResponseBody := data }), fun before last after hcut => ?_⟩
  obtain ⟨init, tail, hbrigades, hno, hdata⟩ := hcut
  rw [List.map_append, List.map_singleton] at hbrigades
  obtain ⟨hbefore, hlast⟩ := List.append_inj' hbrigades rfl
  rw [List.mem_append, not_or] at hno
  -- the brigades before the end, the end, and what follows
  have hstart : Collecting conf w s r 0 [] { state := s, world := w } :=
    { info := by rw [List.append_nil]; exact hr.info
      request := ⟨rfl, rfl, rfl⟩
      mark := rfl
      done1 := hr.done1
      done2 := hr.done2
      settings := ⟨rfl, rfl⟩
      calls := rfl
      compared := rfl
      thrown := rfl }
  have hopen : ∀ p ∈ before, .eos ∉ p.brigade := by
    intro p hp hmem
    refine hno.1 (List.mem_flatten.2 ⟨p.brigade, ?_, hmem⟩)
    rw [← hbefore]
    exact List.mem_map_of_mem hp
  have hcollected := collecting_run env hstart hdup' huri' hr.eos hopen
  obtain ⟨info, hdecided, hbody, hfound⟩ := decided_of_end env hcollected hdup' huri'
    (List.singleton_inj.1 hlast) hno.2
  have hwhole : info.mDupResponseBody = data := by
    rw [hbody, hr.body, List.nil_append, hbefore, ← List.flatMap_append, hdata]
  rw [hwhole] at hfound
  have hend := Runs.run_invariant (P := Decided [(before.length, ⟨info, foundIn env conf info⟩)])
    (G := fun _ => True) (fun _ p hst _ => decided_step env conf hst p) hdecided
    fun p (_ : p ∈ after) => trivial
  refine ⟨info, ?_, hwhole, hfound.symm⟩
  rw [Runs.run_append, Runs.run_cons, hend.compared, hfound]

/-- A response in two brigades, and one that comes after it. -/
theorem compared_once_whole_two :
    ∃ c : Comparison, (Runs.run (OutputRun.step plainEnv plainConf)
      { state := (Runs.run (Replay.step 0 plainConf)
          (.start 0 plainConf true dupRequest [some [.data abcPayload, .eos]]) [(0, 5)]).state
        world := {} }
      [{ brigade := [.data (str "x")], now := 1 },
        { brigade := [.metadata, .data (str "y"), .eos], now := 2 },
        { brigade := [.data (str "z"), .eos], now := 3 }]).compared = [(1, c)] ∧
      c.info.mDupResponseBody = str "xy" := by
  obtain ⟨⟨found, h⟩, -⟩ := @compared_once_whole 0 plainEnv plainConf true dupRequest (by decide)
    (by decide) [some [.data abcPayload, .eos]] [(0, 5)] (by decide) {} (str "xy")
  obtain ⟨info, hone, hbody, -⟩ := h [{ brigade := [.data (str "x")], now := 1 }]
    { brigade := [.metadata, .data (str "y"), .eos], now := 2 }
    [{ brigade := [.data (str "z"), .eos], now := 3 }]
    ⟨[[.data (str "x")]], [.metadata, .data (str "y")], rfl, by decide, by decide⟩
  exact ⟨⟨info, found⟩, hone, hbody⟩

end ModDup
