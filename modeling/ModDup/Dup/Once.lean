import ModDup.Dup.Handlers

/-!
# One duplication for each request

The body filter and the headers filter have contexts of their own, and it depends on the request
which of them starts the duplication.  The invariant ties both contexts, the flag in the
`RequestInfo` and the duplications started so far to what the filters have seen of the response.

## Main definitions

* `Due` : the duplication has to be started.
* `DupInv` : the invariant of all runs.

## Main results

* `inv_run` : every run satisfies the invariant.
* `duplicated_exactly_once` : when `initiateDuplication` is called, and with which answer.
-/

namespace ModDup

open Bytes

/-! ### The invariant -/

/-- `initiateDuplication` is due: the end of the stream was seen, and by the filter that starts
the duplication. -/
def Due (req : RequestRec) (es : List Event) : Prop :=
  .eos ∈ responseBuckets es ∧ (hasDupLog req = true ∨ HeadersAfterEos es)

/-- The invariant of the runs of a request in a location where requests are duplicated. -/
structure DupInv (srv : DupServer) (addr : ℕ) (req : RequestRec) (es : List Event) (s : DupState) :
    Prop where
  /-- Nobody touches `X_DUP_LOG`. -/
  dupLog : hasDupLog s.req = hasDupLog req
  /-- Without info no output filter has run. -/
  fresh : s.info = none → s.bodyCtx = .null ∧ s.headersCtx = .null ∧ responseBuckets es = []
  eos : ∀ r, s.info = some r → (r.mEOS = true ↔ .eos ∈ responseBuckets es)
  /-- The body filter is done from the end of the stream on. -/
  bodyDone : s.bodyCtx = .done ↔ .eos ∈ responseBuckets es
  /-- The headers filter is done from its first call after that on. -/
  headersDone : s.headersCtx = .done ↔ HeadersAfterEos es
  /-- The duplication was not due yet, or it was started once, with the answer. -/
  started : (¬ Due req es ∧ s.initiated = [] ∧
      ((srv.tConf addr).mHighestDuplicationType = .requestWithAnswer →
        ∀ r, s.info = some r → r.mAnswer = answerOf (responseBuckets es))) ∨
    (Due req es ∧ ∃ r, s.initiated = [r] ∧
      ((srv.tConf addr).mHighestDuplicationType = .requestWithAnswer →
        r.mAnswer = answerOf (responseBuckets es)))
  /-- What was pushed was pushed by the headers filter. -/
  pushed : 0 < s.pushed → s.headersCtx = .done

section Inv

variable {srv : DupServer} {addr : ℕ} {req : RequestRec} {es es' : List Event} {s : DupState}

theorem DupInv.congr_events (h : DupInv srv addr req es s)
    (hnil : responseBuckets es = [] → responseBuckets es' = [])
    (heos : .eos ∈ responseBuckets es' ↔ .eos ∈ responseBuckets es)
    (hanswer : answerOf (responseBuckets es') = answerOf (responseBuckets es))
    (hheaders : HeadersAfterEos es' ↔ HeadersAfterEos es) : DupInv srv addr req es' s := by
  have hdue : Due req es' ↔ Due req es := by rw [Due, heos, hheaders, Due]
  refine ⟨h.dupLog, fun hnone => ?_, ?_, ?_, ?_, ?_, h.pushed⟩
  · exact ⟨(h.fresh hnone).1, (h.fresh hnone).2.1, hnil (h.fresh hnone).2.2⟩
  · simpa only [heos] using h.eos
  · simpa only [heos] using h.bodyDone
  · simpa only [hheaders] using h.headersDone
  · simpa only [hdue, hanswer] using h.started

/-- An event that brings nothing of the response and, if it is a call of the headers filter, none
after the end of the stream. -/
theorem DupInv.congr_quiet (h : DupInv srv addr req es s) {e : Event} (hquiet : e.buckets = [])
    (hheaders : HeadersAfterEos (es ++ [e]) ↔ HeadersAfterEos es) :
    DupInv srv addr req (es ++ [e]) s := by
  have hbuckets := responseBuckets_snoc_of_nil es hquiet
  refine h.congr_events (fun hnil => hbuckets.trans hnil) ?_ ?_ hheaders
  · rw [hbuckets]
  · rw [hbuckets]

theorem DupInv.modifyInfo (h : DupInv srv addr req es s) {f : RequestInfo → RequestInfo}
    (hf : ∀ r, (f r).mEOS = r.mEOS ∧ (f r).mAnswer = r.mAnswer) :
    DupInv srv addr req es (s.modifyInfo f) := by
  refine ⟨h.dupLog, fun hnone => h.fresh (Option.map_eq_none_iff.1 hnone), fun r hr => ?_,
    h.bodyDone, h.headersDone, ?_, h.pushed⟩
  · obtain ⟨r₀, hr₀, rfl⟩ := Option.map_eq_some_iff.1 hr
    rw [(hf r₀).1]
    exact h.eos r₀ hr₀
  · refine h.started.imp_left fun ⟨hdue, hinit, hans⟩ => ⟨hdue, hinit, fun htype r hr => ?_⟩
    obtain ⟨r₀, hr₀, rfl⟩ := Option.map_eq_some_iff.1 hr
    rw [(hf r₀).2]
    exact hans htype r₀ hr₀

theorem DupInv.ensureInfo (h : DupInv srv addr req es s) :
    DupInv srv addr req es (srv.ensureInfo addr s) := by
  obtain ⟨r, req', hs, hlog, hr⟩ := ensureInfo_spec srv addr s
  rw [hs]
  rcases hr with hr | ⟨hnone, heos, hanswer, -⟩
  · refine ⟨hlog.trans h.dupLog, fun hnone => by simp at hnone, ?_, h.bodyDone, h.headersDone, ?_,
      h.pushed⟩
    · rw [← hr]
      exact h.eos
    · rw [← hr]
      exact h.started
  · obtain ⟨-, -, hnil⟩ := h.fresh hnone
    refine ⟨hlog.trans h.dupLog, fun hnone => by simp at hnone, ?_, h.bodyDone, h.headersDone, ?_,
      h.pushed⟩
    · rintro _ ⟨⟩
      simp [heos, hnil]
    · refine h.started.imp_left fun ⟨hdue, hinit, _⟩ => ⟨hdue, hinit, fun _ => ?_⟩
      rintro _ ⟨⟩
      simp [hanswer, hnil, answerOf]

theorem inv_input (haddr : srv.conf = some addr) (h : DupInv srv addr req es s) (success : Bool)
    (pB : Brigade) :
    DupInv srv addr req es (srv.inputFilterHandler s success pB) := by
  have hctx : ∀ {s : DupState} (c : FilterCtx), DupInv srv addr req es s →
      DupInv srv addr req es { s with inputCtx := c } := fun _ h =>
    ⟨h.dupLog, h.fresh, h.eos, h.bodyDone, h.headersDone, h.started, h.pushed⟩
  have hopen : DupInv srv addr req es (srv.openInput addr s) := by
    unfold DupServer.openInput
    split_ifs
    · exact hctx _ h.ensureInfo
    · exact h
  simp only [DupServer.inputFilterHandler, haddr, DupServer.readInput]
  split_ifs
  · exact h
  · exact hopen
  · exact hctx _ hopen
  · exact hopen.modifyInfo fun _ => ⟨rfl, rfl⟩

/-- As long as the body filter is open the end of the stream has not come, and nothing is due. -/
theorem DupInv.open (h : DupInv srv addr req es s) (hopen : s.bodyCtx ≠ .done) :
    .eos ∉ responseBuckets es ∧ ¬ HeadersAfterEos es ∧ ¬ Due req es := by
  have heos : .eos ∉ responseBuckets es := fun heos => hopen (h.bodyDone.2 heos)
  exact ⟨heos, fun hh => heos hh.eos, fun hd => heos hd.1⟩

theorem inv_addAnswer (h : DupInv srv addr req es s) (hopen : s.bodyCtx ≠ .done)
    (hinfo : s.info ≠ none) (now : ℤ) {bs : Brigade} (hbs : .eos ∉ bs) :
    DupInv srv addr req (es ++ [.body now bs]) (srv.addAnswer addr (answerOf bs) s) := by
  obtain ⟨heos, hheaders, hdue⟩ := h.open hopen
  obtain ⟨r, hr⟩ := Option.ne_none_iff_exists'.1 hinfo
  have heos' : .eos ∉ responseBuckets (es ++ [.body now bs]) := by
    rw [responseBuckets_snoc, List.mem_append, not_or]
    exact ⟨heos, hbs⟩
  have hheaders' : ¬ HeadersAfterEos (es ++ [.body now bs]) := fun hh => heos' hh.eos
  have hanswer := answerOf_snoc_body heos now bs
  rw [addAnswer_eq srv _ hr]
  refine ⟨h.dupLog, fun hnone => by simp at hnone, ?_, ?_, ?_, ?_, h.pushed⟩
  · rintro _ ⟨⟩
    rw [iff_false_right heos']
    exact fun he => heos ((h.eos r hr).1 he)
  · rw [iff_false_right heos']
    exact hopen
  · rw [iff_false_right hheaders']
    exact fun hd => hheaders (h.headersDone.1 hd)
  · obtain ⟨-, hinit, hans⟩ | ⟨hd, -⟩ := h.started
    · refine .inl ⟨fun hd => heos' hd.1, hinit, fun htype => ?_⟩
      rintro _ ⟨⟩
      simp only [if_pos htype, hanswer, hans htype r hr]
    · exact absurd hd hdue

theorem inv_endOfStream (h : DupInv srv addr req es s) (hopen : s.bodyCtx ≠ .done)
    (hinfo : s.info ≠ none) (now : ℤ) {bs : Brigade} (hbs : .eos ∈ bs) :
    DupInv srv addr req (es ++ [.body now bs])
      (srv.endOfStream addr now (srv.addAnswer addr (answerOf bs) s)) := by
  obtain ⟨heos, hheaders, hdue⟩ := h.open hopen
  obtain ⟨r, hr⟩ := Option.ne_none_iff_exists'.1 hinfo
  have heos' : .eos ∈ responseBuckets (es ++ [.body now bs]) := by
    rw [responseBuckets_snoc]
    exact List.mem_append_right _ hbs
  have hheaders' : ¬ HeadersAfterEos (es ++ [.body now bs]) := by
    rw [headersAfterEos_snoc]
    rintro (hh | ⟨-, hh⟩)
    · exact hheaders hh
    · cases hh
  have hclosed : s.headersCtx ≠ .done := fun hd => hheaders (h.headersDone.1 hd)
  have hanswer := answerOf_snoc_body heos now bs
  obtain ⟨-, hinit, hans⟩ | ⟨hd, -⟩ := h.started
  swap
  · exact absurd hd hdue
  -- the info at the end of the stream
  rw [addAnswer_eq srv _ hr]
  unfold DupServer.endOfStream DupState.modifyInfo
  simp only [Option.map_some]
  set r₁ : RequestInfo := RequestInfo.eosSeen { r with
    mAnswer := if (srv.tConf addr).mHighestDuplicationType = .requestWithAnswer then
      r.mAnswer ++ answerOf bs else r.mAnswer } now true with hr₁
  have hseen : r₁.mEOS = true := rfl
  have hans₁ : (srv.tConf addr).mHighestDuplicationType = .requestWithAnswer →
      r₁.mAnswer = answerOf (responseBuckets (es ++ [.body now bs])) := by
    intro htype
    rw [hanswer, ← hans htype r hr]
    exact if_pos htype
  split_ifs with hlog
  · -- the body filter starts the duplication itself
    set r₂ : RequestInfo := { r₁ with mHeadersOut := r₁.mHeadersOut ++ s.req.headersOut }
    rw [captureHeaders_eq (r := r₁) rfl]
    obtain ⟨ri, req', pushed', hs, hri, -, hreq, hpush⟩ :=
      initiateDuplication_spec srv addr (s := { s with info := some r₂ }) rfl
    rw [hs]
    refine ⟨?_, fun hnone => by simp at hnone, ?_, ?_, ?_, .inr ⟨⟨heos', ?_⟩, ?_⟩, ?_⟩
    · rw [← h.dupLog, hasDupLog, hreq, hasDupLog]
    · rintro _ ⟨⟩
      exact iff_of_true (hri.trans hseen) heos'
    · exact iff_of_true rfl heos'
    · exact iff_of_false hclosed hheaders'
    · exact .inl (h.dupLog ▸ hlog)
    · exact ⟨r₂, by simp only [hinit, List.nil_append], hans₁⟩
    · intro hpos
      rw [hpush hlog] at hpos
      exact h.pushed hpos
  · -- it leaves that to the headers filter, which was not called since
    refine ⟨h.dupLog, fun hnone => by simp at hnone, ?_, ?_, ?_, .inl ⟨?_, hinit, ?_⟩, h.pushed⟩
    · rintro _ ⟨⟩
      exact iff_of_true hseen heos'
    · exact iff_of_true rfl heos'
    · exact iff_of_false hclosed hheaders'
    · rintro ⟨-, hd | hd⟩
      · exact hlog (h.dupLog.trans hd)
      · exact hheaders' hd
    · intro htype
      rintro _ ⟨⟩
      exact hans₁ htype

theorem inv_body (haddr : srv.conf = some addr) (hdup : srv.duplicates addr = true)
    (h : DupInv srv addr req es s) (now : ℤ) (bs : Brigade) :
    DupInv srv addr req (es ++ [.body now bs]) (srv.outputBodyFilterHandler s now bs) := by
  simp only [DupServer.outputBodyFilterHandler, haddr, hdup]
  by_cases hdone : s.bodyCtx = .done
  · -- after the end of the stream nothing is new
    have heos := h.bodyDone.1 hdone
    simp only [hdone]
    refine h.congr_events (fun hnil => ?_) ?_ ?_ ?_
    · rw [hnil] at heos
      cases heos
    · rw [responseBuckets_snoc, List.mem_append]
      exact iff_of_true (.inl heos) heos
    · rw [responseBuckets_snoc, answerOf_append, if_pos heos]
    · rw [headersAfterEos_snoc]
      simp
  · have hinv : ∀ {s}, DupInv srv addr req es s → s.bodyCtx ≠ .done → s.info ≠ none →
        DupInv srv addr req (es ++ [.body now bs]) (srv.bodyLoop addr now bs s) := by
      intro s h hopen hinfo
      rw [bodyLoop_eq]
      split_ifs with hbs
      · exact inv_endOfStream h hopen hinfo now hbs
      · exact inv_addAnswer h hopen hinfo now hbs
    cases hinfo : s.info with
    | some r =>
      simp only [hdone, DupServer.openBody, hinfo]
      exact hinv h hdone (by simp [hinfo])
    | none =>
      -- the first filter that runs makes the info
      obtain ⟨hnull, -⟩ := h.fresh hinfo
      obtain ⟨r, req', hs, -⟩ := ensureInfo_spec srv addr s
      have hensured := h.ensureInfo
      simp only [hnull, DupServer.openBody, hinfo]
      refine hinv ?_ (by simp) (by simp [hs])
      rw [hs] at hensured ⊢
      refine ⟨hensured.dupLog, fun hnone => by simp at hnone, hensured.eos, ?_,
        hensured.headersDone, hensured.started, hensured.pushed⟩
      rw [← hensured.bodyDone]
      simp [hnull]

section Headers

variable {r : RequestInfo}

theorem headersAfterEos_snoc_headers (hheaders : ¬ HeadersAfterEos es) :
    HeadersAfterEos (es ++ [.headers]) ↔ .eos ∈ responseBuckets es := by
  rw [headersAfterEos_snoc, iff_false_intro hheaders, false_or, and_iff_left rfl]

/-- The headers filter after the end of the stream, where the body filter has started the
duplication. -/
theorem inv_headers_started (h : DupInv srv addr req es s) (hinfo : s.info = some r)
    (hheaders : ¬ HeadersAfterEos es) (heos : .eos ∈ responseBuckets es)
    (hlog : hasDupLog s.req = true) :
    DupInv srv addr req (es ++ [.headers]) { s with headersCtx := .done } := by
  have hbuckets : responseBuckets (es ++ [.headers]) = responseBuckets es :=
    responseBuckets_snoc_of_nil es rfl
  have hheaders' := headersAfterEos_snoc_headers hheaders
  have hlog' : hasDupLog req = true := h.dupLog ▸ hlog
  obtain ⟨hdue, -⟩ | ⟨-, hstarted⟩ := h.started
  · exact absurd ⟨heos, .inl hlog'⟩ hdue
  · rw [← hbuckets] at hstarted
    refine ⟨h.dupLog, fun hnone => ?_, ?_, ?_, ?_, .inr ⟨⟨?_, .inl hlog'⟩, hstarted⟩, fun _ => rfl⟩
    · simp [hinfo] at hnone
    · simpa only [hbuckets] using h.eos
    · simpa only [hbuckets] using h.bodyDone
    · exact iff_of_true rfl (hheaders'.2 heos)
    · rw [hbuckets]
      exact heos

/-- The headers filter after the end of the stream, where it has to start the duplication. -/
theorem inv_headers_starts (h : DupInv srv addr req es s) (hinfo : s.info = some r)
    (hheaders : ¬ HeadersAfterEos es) (heos : .eos ∈ responseBuckets es)
    (hlog : ¬ hasDupLog s.req = true) :
    DupInv srv addr req (es ++ [.headers])
      { srv.initiateDuplication addr s with headersCtx := .done } := by
  have hbuckets : responseBuckets (es ++ [.headers]) = responseBuckets es :=
    responseBuckets_snoc_of_nil es rfl
  have hheaders' := headersAfterEos_snoc_headers hheaders
  -- before this call the headers filter had not seen the end of the stream
  obtain ⟨-, hinit, hans⟩ | ⟨⟨-, hdue⟩, -⟩ := h.started
  swap
  · rcases hdue with hdue | hdue
    · exact absurd (h.dupLog.trans hdue) hlog
    · exact absurd hdue hheaders
  obtain ⟨ri, req', pushed', hs, hri, -, hreq, -⟩ := initiateDuplication_spec srv addr hinfo
  rw [hs]
  refine ⟨?_, fun hnone => by simp at hnone, ?_, ?_, ?_, .inr ⟨⟨?_, .inr ?_⟩, r, ?_, ?_⟩,
    fun _ => rfl⟩
  · rw [← h.dupLog, hasDupLog, hreq, hasDupLog]
  · rintro _ ⟨⟩
    rw [hri, hbuckets]
    exact h.eos r hinfo
  · rw [hbuckets]
    exact h.bodyDone
  · exact iff_of_true rfl (hheaders'.2 heos)
  · rw [hbuckets]
    exact heos
  · exact hheaders'.2 heos
  · simp only [hinit, List.nil_append]
  · intro htype
    rw [hbuckets]
    exact hans htype r hinfo

/-- A call of the headers filter that is not done: it collects the headers, and after the end of
the stream it is done and starts the duplication, unless the body filter did. -/
theorem inv_headersSeen (h : DupInv srv addr req es s) (hopen : s.headersCtx ≠ .done)
    (hinfo : s.info ≠ none) :
    DupInv srv addr req (es ++ [.headers]) (srv.headersSeen addr s) := by
  obtain ⟨r, hr⟩ := Option.ne_none_iff_exists'.1 hinfo
  have hheaders : ¬ HeadersAfterEos es := fun hh => hopen (h.headersDone.2 hh)
  set r₁ : RequestInfo := { r with mHeadersOut := r.mHeadersOut ++ s.req.headersOut }
  have hcaptured : DupInv srv addr req es { s with info := some r₁ } := by
    have := h.modifyInfo (f := fun r => { r with mHeadersOut := r.mHeadersOut ++ s.req.headersOut })
      fun _ => ⟨rfl, rfl⟩
    rwa [DupState.modifyInfo, hr, Option.map_some] at this
  unfold DupServer.headersSeen
  rw [captureHeaders_eq hr]
  simp only [Option.any_some]
  split_ifs with hseen hlog
  · -- the end of the stream was not seen
    have heos : .eos ∉ responseBuckets es := fun heos => by
      have := (h.eos r hr).2 heos
      simp [this] at hseen
    refine hcaptured.congr_quiet rfl ?_
    rw [headersAfterEos_snoc_headers hheaders, iff_false_intro heos, iff_false_intro hheaders]
  · have heos : .eos ∈ responseBuckets es := (h.eos r hr).1 (by simpa [r₁] using hseen)
    exact inv_headers_started hcaptured rfl hheaders heos hlog
  · have heos : .eos ∈ responseBuckets es := (h.eos r hr).1 (by simpa [r₁] using hseen)
    exact inv_headers_starts hcaptured rfl hheaders heos hlog

end Headers

theorem inv_headers (haddr : srv.conf = some addr) (hdup : srv.duplicates addr = true)
    (h : DupInv srv addr req es s) :
    DupInv srv addr req (es ++ [.headers]) (srv.outputHeadersFilterHandler s) := by
  by_cases hdone : s.headersCtx = .done
  · have hheaders := h.headersDone.1 hdone
    simp only [DupServer.outputHeadersFilterHandler, hdone]
    refine h.congr_quiet rfl ?_
    rw [headersAfterEos_snoc]
    exact iff_of_true (.inl hheaders) hheaders
  · simp only [DupServer.outputHeadersFilterHandler, haddr, hdup, hdone]
    cases hinfo : s.info with
    | some r => exact inv_headersSeen h hdone (by simp [hinfo])
    | none =>
      obtain ⟨-, hnull, -⟩ := h.fresh hinfo
      obtain ⟨r, req', hs, -⟩ := ensureInfo_spec srv addr s
      have hensured := h.ensureInfo
      simp only [hnull]
      refine inv_headersSeen ?_ (by simp) (by simp [hs])
      rw [hs] at hensured ⊢
      refine ⟨hensured.dupLog, fun hnone => by simp at hnone, hensured.eos, hensured.bodyDone, ?_,
        hensured.started, fun hpos => ?_⟩
      · rw [← hensured.headersDone]
        simp [hnull]
      · exact absurd (hensured.pushed hpos) (by simp [hnull])

theorem inv_step (haddr : srv.conf = some addr) (hdup : srv.duplicates addr = true)
    (h : DupInv srv addr req es s) (e : Event) :
    DupInv srv addr req (es ++ [e]) (srv.step s e) := by
  -- the other events tell the output filters nothing
  have hquiet : ∀ {s}, DupInv srv addr req es s → e.buckets = [] → e ≠ .headers →
      DupInv srv addr req (es ++ [e]) s := by
    intro s h hnone hne
    refine h.congr_quiet hnone ?_
    rw [headersAfterEos_snoc]
    simp [hne]
  cases e with
  | input success pB => exact hquiet (inv_input haddr h success pB) rfl (by simp)
  | body now bs => exact inv_body haddr hdup h now bs
  | headers => exact inv_headers haddr hdup h
  | server headersOut status =>
    refine hquiet ?_ rfl (by simp)
    exact ⟨h.dupLog, h.fresh, h.eos, h.bodyDone, h.headersDone, h.started, h.pushed⟩
  | worker =>
    refine hquiet ?_ rfl (by simp)
    have hrun := h.modifyInfo (f := srv.runOne) (runOne_frame srv)
    rw [DupServer.step]
    split_ifs
    · exact ⟨hrun.dupLog, hrun.fresh, hrun.eos, hrun.bodyDone, hrun.headersDone, hrun.started,
        hrun.pushed⟩
    · exact h

/-- **Every run satisfies the invariant.** -/
theorem inv_run (haddr : srv.conf = some addr) (hdup : srv.duplicates addr = true)
    (req : RequestRec) (es : List Event) : DupInv srv addr req es (srv.run req es) := by
  -- the invariant speaks of all events so far, so they are taken away from the end
  induction es using List.reverseRecOn with
  | nil =>
    refine ⟨rfl, fun _ => ⟨rfl, rfl, rfl⟩, by simp [DupServer.run], ?_, ?_, .inl ⟨?_, rfl, ?_⟩, ?_⟩
    · simp [DupServer.run, responseBuckets]
    · simp [DupServer.run, HeadersAfterEos]
    · simp [Due, responseBuckets]
    · simp [DupServer.run]
    · simp [DupServer.run]
  | append_singleton es e ih =>
    rw [DupServer.run, List.foldl_append]
    exact inv_step haddr hdup ih e

theorem idle_step (h : ∀ addr, srv.conf = some addr → srv.duplicates addr = false) (s : DupState)
    (e : Event) :
    (srv.step s e).pushed = s.pushed ∧ (srv.step s e).initiated = s.initiated := by
  cases e with
  | input success pB =>
    simp only [DupServer.step, DupServer.inputFilterHandler]
    cases srv.conf with
    | none => exact ⟨rfl, rfl⟩
    | some addr =>
      obtain ⟨r, req', hs, -⟩ := ensureInfo_spec srv addr s
      have hopen : (srv.openInput addr s).pushed = s.pushed ∧
          (srv.openInput addr s).initiated = s.initiated := by
        unfold DupServer.openInput
        split_ifs
        · rw [hs]
          exact ⟨rfl, rfl⟩
        · exact ⟨rfl, rfl⟩
      simp only [DupServer.readInput]
      split_ifs
      · exact ⟨rfl, rfl⟩
      · exact hopen
      · exact hopen
      · exact hopen
  | body now bs =>
    simp only [DupServer.step, DupServer.outputBodyFilterHandler]
    cases haddr : srv.conf with
    | none => exact ⟨rfl, rfl⟩
    | some addr => simp [h addr haddr]
  | headers =>
    by_cases hdone : s.headersCtx = .done
    · simp only [DupServer.step, DupServer.outputHeadersFilterHandler, if_pos hdone, and_self]
    · simp only [DupServer.step, DupServer.outputHeadersFilterHandler, if_neg hdone]
      cases haddr : srv.conf with
      | none => exact ⟨rfl, rfl⟩
      | some addr => simp [h addr haddr]
  | server headersOut status => exact ⟨rfl, rfl⟩
  | worker =>
    rw [DupServer.step]
    split_ifs <;> exact ⟨rfl, rfl⟩

theorem duplicates_of_active (hactive : (srv.tConf addr).dirName ≠ none)
    (hhighest : (srv.tConf addr).mHighestDuplicationType ≠ .none) :
    srv.duplicates addr = true := by
  simp [DupServer.duplicates, Option.isSome_iff_ne_none, hactive, hhighest]

end Inv

/-- **Exactly one duplication.**  `initiateDuplication` is called at most once, not before the
end of the stream has reached the body filter, and once it has, as soon as the request asks for
its log or the headers filter is called.  The answer it finds is the data of the response up to
the first end of stream. -/
theorem duplicated_exactly_once (srv : DupServer) (addr : ℕ) (req : RequestRec) (es : List Event)
    (haddr : srv.conf = some addr) (hactive : (srv.tConf addr).dirName ≠ none)
    (hhighest : (srv.tConf addr).mHighestDuplicationType ≠ .none) :
    (srv.run req es).initiated.length ≤ 1 ∧
      ((srv.run req es).initiated ≠ [] → .eos ∈ responseBuckets es) ∧
      (.eos ∈ responseBuckets es → hasDupLog req = true ∨ HeadersAfterEos es →
        (srv.run req es).initiated.length = 1) ∧
      ((srv.tConf addr).mHighestDuplicationType = .requestWithAnswer →
        ∀ r ∈ (srv.run req es).initiated, r.mAnswer = answerOf (responseBuckets es)) := by
  have hdup := duplicates_of_active hactive hhighest
  obtain ⟨hdue, hinit, -⟩ | ⟨hdue, r, hinit, hans⟩ := (inv_run haddr hdup req es).started
  · rw [hinit]
    exact ⟨Nat.zero_le _, fun h => absurd rfl h, fun heos hby => absurd ⟨heos, hby⟩ hdue, by simp⟩
  · rw [hinit]
    exact ⟨le_rfl, fun _ => hdue.1, fun _ _ => rfl, by simpa using hans⟩

/-- A location that duplicates requests with their answer. -/
def answerServer : DupServer where
  ops := [.setActive 1 (str "/"), .setCurrentDuplicationType 1 .requestWithAnswer]
  conf := some 1
  env := ⟨fun _ => none, fun _ => true, fun _ => ([], 0)⟩
  nextReqId := 7
  strerror := fun _ => []

theorem duplicated_exactly_once_abc :
    let s := answerServer.run {} [.body 0 [.data (str "ab")], .headers,
      .body 1 [.metadata, .data (str "c"), .eos], .headers]
    s.initiated.length = 1 ∧ ∀ r ∈ s.initiated, r.mAnswer = str "abc" := by
  obtain ⟨-, -, honce, hanswer⟩ := duplicated_exactly_once answerServer 1 {}
    [.body 0 [.data (str "ab")], .headers, .body 1 [.metadata, .data (str "c"), .eos], .headers]
    rfl (by decide) (by decide)
  refine ⟨honce (by decide) (.inr ⟨[.body 0 [.data (str "ab")], .headers,
    .body 1 [.metadata, .data (str "c"), .eos]], [.headers], rfl, by decide, by simp⟩), ?_⟩
  exact fun r hr => (hanswer (by decide) r hr).trans (by decide)

end ModDup
