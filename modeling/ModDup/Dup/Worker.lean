import ModDup.Dup.Counts
import ModDup.Lib.Runs

/-!
# A request in the hands of a worker

`runOne` (`src/RequestProcessor.cc`) is one function of one worker, but what it reads changes
under it: the queue is stopped by another thread, and the answers of the destinations come when
they come.  A `Job` is `runOne` cut at the places where the rest of the server can be seen: before
each draw, each read of the state of the queue, each curl call, and each of the two counters.

## Main definitions

* `Glance` : what a worker can see at one step.
* `Job`, `Job.step` : a request in progress, with all that was seen.
* `Job.finish` : what is left of `runOne`.

## Main results

* `Job.changes_step` : all a step can change.
* `Job.finish_step` : a step leaves what `runOne` gives as it is.
* `Job.isDone_run` : every job ends.
* `job_refines_runOne` : the job does what `runOne` does in an environment that shows what the
  job has seen.
-/

namespace ModDup

/-! ### What was seen -/

section Shows

variable {α : Type*} {f : ℕ → α} {l l' : List α}

/-- The sequence `f` begins with `l`. -/
def Shows (f : ℕ → α) (l : List α) : Prop := ∀ k x, l[k]? = some x → f k = x

theorem shows_nil : Shows f [] := fun k x hk => by simp at hk

theorem Shows.of_prefix (h : Shows f l') (hl : l <+: l') : Shows f l := by
  obtain ⟨t, rfl⟩ := hl
  intro k x hk
  refine h k x ?_
  rw [List.getElem?_append_left (List.getElem?_eq_some_iff.1 hk).1, hk]

theorem shows_snoc {a : α} : Shows f (l ++ [a]) ↔ Shows f l ∧ f l.length = a := by
  constructor
  · intro h
    exact ⟨h.of_prefix (List.prefix_append l [a]), h _ _ List.getElem?_concat_length⟩
  · rintro ⟨h, rfl⟩ k x hk
    rcases lt_trichotomy k l.length with hlt | rfl | hgt
    · rw [List.getElem?_append_left hlt] at hk
      exact h k x hk
    · rw [List.getElem?_concat_length] at hk
      exact Option.some.inj hk
    · have hnone : (l ++ [f l.length])[k]? = none := by
        rw [List.getElem?_eq_none_iff, List.length_append, List.length_singleton]
        exact hgt
      rw [hnone] at hk
      cases hk

theorem shows_getD (l : List α) (d : α) : Shows (fun k => l[k]?.getD d) l := by
  intro k x hk
  show l[k]?.getD d = x
  rw [hk, Option.getD_some]

end Shows

/-! ### The steps of a job -/

/-- What a worker sees of the rest: the number drawn, the state of the queue and the outcome of a
call. -/
structure Glance where
  draw : Option ℕ
  stillRunning : Bool
  perform : List Bytes × ℤ

/-- An environment that always looks the same. -/
def Glance.env (g : Glance) : Env := ⟨fun _ => g.draw, fun _ => g.stillRunning, fun _ => g.perform⟩

/-- Where a worker is in `runOne`. -/
inductive JobPoint where
  /-- Before the condition of the outer loop. -/
  | next
  /-- Before the condition of the inner loop, with `turns` turns to come. -/
  | poll (f : TFilter) (c : Commands) (turns : ℕ)
  /-- Before `curl_easy_perform`. -/
  | send (f : TFilter) (c : Commands) (turns : ℕ)
  /-- `curl_easy_perform` has returned `code`. -/
  | returned (f : TFilter) (c : Commands) (turns : ℕ) (code : ℤ)
  /-- Before the call is counted. -/
  | count (f : TFilter) (c : Commands) (turns : ℕ)
  /-- `at` has thrown. -/
  | thrown

/-- The steps up to the next look at the outer loop, at most, and one. -/
def JobPoint.rank : JobPoint → ℕ
  | .next => 1
  | .poll _ _ turns => 4 * turns + 2
  | .send _ _ turns => 4 * turns + 5
  | .returned _ _ turns _ => 4 * turns + 4
  | .count _ _ turns => 4 * turns + 3
  | .thrown => 0

/-- A request in progress. -/
structure Job where
  /-- The request as it came from the queue. -/
  request : RequestInfo
  /-- What `runOne` has done; the counts in it are those of this request alone. -/
  run : RunState
  /-- The matched filters to come. -/
  matchedFilters : List TFilter
  point : JobPoint := .next
  /-- The numbers drawn. -/
  drawn : List (Option ℕ) := []
  /-- What the reads of the state of the queue have given. -/
  polled : List Bool := []
  /-- The outcomes of the calls. -/
  answers : List (List Bytes × ℤ) := []

namespace Job

/-- `runOne`, up to its loops. -/
def start (p : RequestProcessor) (reqInfo : RequestInfo) : Job :=
  let (matchedFilters, r) := p.processRequest (reqInfo.parsed p.mUrlCodec)
  { request := reqInfo, run := { reqInfo := r, proc := p }, matchedFilters := matchedFilters }

/-- The next step of `runOne`. -/
def step (j : Job) (g : Glance) : Job :=
  match j.point with
  | .next =>
    match j.matchedFilters with
    | [] => j
    | it :: fs =>
      match j.run.proc.commands? j.run.reqInfo.mConf it.mDestination with
      | none => { j with point := .thrown }
      | some c =>
        let (numDups, draws) := c.toDuplicateInt g.env j.run.draws
        { j with
          run := { j.run with draws := draws }
          matchedFilters := fs
          point := .poll it c numDups
          drawn := if c.draws then j.drawn ++ [g.draw] else j.drawn }
  | .poll _ _ 0 => { j with point := .next }
  | .poll f c (turns + 1) =>
    { j with
      run := { j.run with polls := j.run.polls + 1 }
      point := if g.stillRunning then .send f c turns else .next
      polled := j.polled ++ [g.stillRunning] }
  | .send f c turns =>
    { j with
      run := j.run.duplicate g.env f c
      point := .returned f c turns g.perform.2
      answers := j.answers ++ [g.perform] }
  | .returned f c turns _ => { j with point := .count f c turns }
  | .count f c turns => { j with point := .poll f c turns }
  | .thrown => j

/-- `runOne` is about to return. -/
def isDone (j : Job) : Bool :=
  match j.point with
  | .next => j.matchedFilters.isEmpty
  | _ => false

/-- What is left of `runOne`, in an environment. -/
def finish (env : Env) (j : Job) : Option RunState :=
  match j.point with
  | .next => j.matchedFilters.foldlM (RunState.sendFor env) j.run
  | .send f c turns =>
    j.matchedFilters.foldlM (RunState.sendFor env)
      (RunState.duplicateLoop env f c turns (j.run.duplicate env f c))
  | .poll f c turns | .returned f c turns _ | .count f c turns =>
    j.matchedFilters.foldlM (RunState.sendFor env) (RunState.duplicateLoop env f c turns j.run)
  | .thrown => none

/-- What was seen stands in the record at its place. -/
structure Aligned (j : Job) : Prop where
  drawn : j.drawn.length = j.run.draws
  polled : j.polled.length = j.run.polls
  answers : j.answers.length = j.run.calls.length

/-- The environment shows what the job has seen. -/
structure Agrees (env : Env) (j : Job) : Prop where
  drawn : Shows env.draw j.drawn
  polled : Shows env.stillRunning j.polled
  answers : Shows env.perform j.answers

/-! ### One step -/

theorem duplicate_congr {env env' : Env} (w : RunState) (f : TFilter) (c : Commands)
    (h : env.perform w.calls.length = env'.perform w.calls.length) :
    w.duplicate env f c = w.duplicate env' f c := by
  unfold RunState.duplicate RunState.performCurlCall afterCurlCall
  rw [h]

theorem length_calls_duplicate (w : RunState) (env : Env) (f : TFilter) (c : Commands) :
    (w.duplicate env f c).calls.length = w.calls.length + 1 := by
  rw [duplicate_calls, List.length_append, List.length_singleton]

theorem duplicate_draws_polls (w : RunState) (env : Env) (f : TFilter) (c : Commands) :
    (w.duplicate env f c).draws = w.draws ∧ (w.duplicate env f c).polls = w.polls := by
  obtain ⟨-, hpolls, hdraws, -⟩ := RunState.duplicate_spec w env f c
  exact ⟨hdraws, hpolls⟩

/-- **All a step can change**: where the worker is, and with it what was drawn, what was read or
what was sent. -/
inductive Changes (j : Job) (g : Glance) : Job → Prop where
  | moved (point : JobPoint) : Changes j g { j with point := point }
  | drew (it : TFilter) (fs : List TFilter) (c : Commands) (numDups : ℕ) :
      Changes j g { j with
        run := { j.run with draws := j.run.draws + if c.draws then 1 else 0 }
        matchedFilters := fs
        point := .poll it c numDups
        drawn := if c.draws then j.drawn ++ [g.draw] else j.drawn }
  | looked (point : JobPoint) :
      Changes j g { j with
        run := { j.run with polls := j.run.polls + 1 }
        point := point
        polled := j.polled ++ [g.stillRunning] }
  | called (f : TFilter) (c : Commands) (point : JobPoint) :
      Changes j g { j with
        run := j.run.duplicate g.env f c
        point := point
        answers := j.answers ++ [g.perform] }

theorem changes_step (j : Job) (g : Glance) : Changes j g (j.step g) := by
  have hstay : Changes j g j := .moved j.point
  unfold step
  split
  · split
    · exact hstay
    · split
      · exact .moved .thrown
      · simp only [toDuplicateInt_eq]
        exact .drew _ _ _ _
  · exact .moved .next
  · exact .looked _
  · exact .called _ _ _
  · exact .moved _
  · exact .moved _
  · exact hstay

section Changes

variable {j j' : Job} {g : Glance}

theorem Changes.request (h : Changes j g j') : j'.request = j.request := by
  cases h <;> rfl

theorem Changes.record (h : Changes j g j') :
    j.drawn <+: j'.drawn ∧ j.polled <+: j'.polled ∧ j.answers <+: j'.answers := by
  cases h with
  | moved point => exact ⟨List.prefix_rfl, List.prefix_rfl, List.prefix_rfl⟩
  | drew it fs c numDups =>
    refine ⟨?_, List.prefix_rfl, List.prefix_rfl⟩
    dsimp only
    split_ifs
    · exact List.prefix_append _ _
    · exact List.prefix_rfl
  | looked point => exact ⟨List.prefix_rfl, List.prefix_append _ _, List.prefix_rfl⟩
  | called f c point => exact ⟨List.prefix_rfl, List.prefix_rfl, List.prefix_append _ _⟩

theorem Changes.polled (h : Changes j g j') :
    j'.polled = j.polled ∨ j'.polled = j.polled ++ [g.stillRunning] := by
  cases h with
  | moved point => exact .inl rfl
  | drew it fs c numDups => exact .inl rfl
  | looked point => exact .inr rfl
  | called f c point => exact .inl rfl

/-- **What was seen stands at its place after a step too.** -/
theorem Changes.aligned (h : Changes j g j') (hj : Aligned j) : Aligned j' := by
  obtain ⟨hdrawn, hpolled, hanswers⟩ := hj
  cases h with
  | moved point => exact ⟨hdrawn, hpolled, hanswers⟩
  | drew it fs c numDups =>
    refine ⟨?_, hpolled, hanswers⟩
    dsimp only
    split_ifs
    · rw [List.length_append, List.length_singleton, hdrawn]
    · exact hdrawn
  | looked point =>
    refine ⟨hdrawn, ?_, hanswers⟩
    rw [List.length_append, List.length_singleton, hpolled]
  | called f c point =>
    obtain ⟨hdraws, hpolls⟩ := duplicate_draws_polls j.run g.env f c
    refine ⟨hdrawn.trans hdraws.symm, hpolled.trans hpolls.symm, ?_⟩
    rw [List.length_append, List.length_singleton, hanswers, length_calls_duplicate]

end Changes

theorem Agrees.of_step {env : Env} {j : Job} {g : Glance} (h : Agrees env (j.step g)) :
    Agrees env j := by
  obtain ⟨hdrawn, hpolled, hanswers⟩ := (changes_step j g).record
  exact ⟨h.drawn.of_prefix hdrawn, h.polled.of_prefix hpolled, h.answers.of_prefix hanswers⟩

theorem aligned_start (p : RequestProcessor) (r : RequestInfo) : Aligned (start p r) :=
  ⟨rfl, rfl, rfl⟩

/-- **A step leaves what `runOne` gives as it is**, in every environment that shows what the step
has seen. -/
theorem finish_step {env : Env} {j : Job} {g : Glance} (hj : Aligned j)
    (h : Agrees env (j.step g)) : (j.step g).finish env = j.finish env := by
  obtain ⟨hdrawn, hpolled, hanswers⟩ := h
  unfold step at hdrawn hpolled hanswers ⊢
  cases hpoint : j.point with
  | next =>
    cases hfs : j.matchedFilters with
    | nil => rfl
    | cons it fs =>
      simp only [hpoint, hfs] at hdrawn ⊢
      cases hc : j.run.proc.commands? j.run.reqInfo.mConf it.mDestination with
      | none => simp [finish, hpoint, hfs, RunState.sendFor, hc]
      | some c =>
        simp only [hc] at hdrawn
        -- the number drawn is the one the environment gives, if one is drawn
        have hdups : c.toDuplicateInt g.env j.run.draws = c.toDuplicateInt env j.run.draws := by
          rw [toDuplicateInt_eq, toDuplicateInt_eq]
          by_cases hdraws : c.draws
          · rw [if_pos hdraws, shows_snoc, hj.drawn] at hdrawn
            rw [hdrawn.2]
            rfl
          · have hzero : c.mDuplicationPercentage % 100 = 0 := by
              simpa [Commands.draws] using hdraws
            simp [Commands.numDups, hzero]
        simp only [finish, hpoint, hfs, List.foldlM_cons, RunState.sendFor, hc, Option.map_some,
          hdups]
        rfl
  | poll f c turns =>
    cases turns with
    | zero => simp only [hpoint, finish, RunState.duplicateLoop]
    | succ turns =>
      simp only [hpoint] at hpolled ⊢
      rw [shows_snoc, hj.polled] at hpolled
      simp only [finish, hpoint, RunState.duplicateLoop, hpolled.2]
      cases g.stillRunning <;> rfl
  | send f c turns =>
    simp only [hpoint] at hanswers ⊢
    rw [shows_snoc, hj.answers] at hanswers
    have hcall : j.run.duplicate g.env f c = j.run.duplicate env f c :=
      duplicate_congr j.run f c hanswers.2.symm
    simp only [finish, hpoint, hcall]
  | returned f c turns code => simp only [hpoint, finish]
  | count f c turns => simp only [hpoint, finish]
  | thrown => rfl

/-! ### A run of steps -/

section Run

variable {p : RequestProcessor} {r : RequestInfo}

/-- The invariant of a job: what is left of it is what is left of `runOne`. -/
structure Within (p : RequestProcessor) (r : RequestInfo) (j : Job) : Prop where
  request : j.request = r
  aligned : Aligned j
  finish : ∀ env, Agrees env j → p.runOne env r = j.finish env

theorem within_start (p : RequestProcessor) (r : RequestInfo) : Within p r (start p r) :=
  ⟨rfl, aligned_start p r, fun _ _ => rfl⟩

theorem within_step {j : Job} (h : Within p r j) (g : Glance) : Within p r (j.step g) := by
  have hchanges := changes_step j g
  refine ⟨hchanges.request.trans h.request, hchanges.aligned h.aligned, fun env henv => ?_⟩
  rw [h.finish env henv.of_step, finish_step h.aligned henv]

/-- The environment in which the job has seen what it has, when the queue stays as it is. -/
def env (j : Job) (running : Bool) : Env where
  draw k := j.drawn[k]?.getD none
  stillRunning k := j.polled[k]?.getD running
  perform k := j.answers[k]?.getD ([], 0)

theorem agrees_env (j : Job) (running : Bool) : Agrees (j.env running) j :=
  ⟨shows_getD j.drawn none, shows_getD j.polled running, shows_getD j.answers ([], 0)⟩

theorem point_ne_thrown {ops : List ConfOp} {j : Job} (h : Within (ConfState.run ops).proc r j) :
    j.point ≠ .thrown := by
  intro hthrown
  obtain ⟨w, hw, -⟩ := sendInv_runOne ops (j.env true) r
  rw [h.finish _ (j.agrees_env true), finish, hthrown] at hw
  cases hw

theorem finish_of_isDone {j : Job} (h : j.isDone = true) (env : Env) :
    j.finish env = some j.run := by
  unfold isDone at h
  split at h
  · rename_i hpoint
    rw [finish, hpoint, List.isEmpty_iff.1 h]
    rfl
  · cases h

/-! ### The calls so far -/

theorem calls_prefix_duplicateLoop (env : Env) (f : TFilter) (c : Commands) (n : ℕ)
    (w : RunState) : w.calls <+: (RunState.duplicateLoop env f c n w).calls := by
  induction n generalizing w with
  | zero => exact List.prefix_rfl
  | succ n ih =>
    simp only [RunState.duplicateLoop]
    split_ifs
    · refine List.IsPrefix.trans ?_ (ih _)
      rw [duplicate_calls]
      exact List.prefix_append _ _
    · exact List.prefix_rfl

theorem calls_prefix_foldlM {env : Env} {fs : List TFilter} {w w' : RunState}
    (h : fs.foldlM (RunState.sendFor env) w = some w') : w.calls <+: w'.calls := by
  induction fs generalizing w with
  | nil => exact Option.some.inj h ▸ List.prefix_rfl
  | cons f fs ih =>
    rw [List.foldlM_cons] at h
    obtain ⟨w₁, hw₁, h⟩ := Option.bind_eq_some_iff.1 h
    obtain ⟨c, -, rfl⟩ := Option.map_eq_some_iff.1 hw₁
    exact (calls_prefix_duplicateLoop env f c _
      { w with draws := (c.toDuplicateInt env w.draws).2 }).trans (ih h)

/-- The calls made so far are the first of those of `runOne`. -/
theorem calls_prefix_finish {env : Env} {j : Job} {w : RunState} (h : j.finish env = some w) :
    j.run.calls <+: w.calls := by
  unfold finish at h
  split at h
  · exact calls_prefix_foldlM h
  · refine List.IsPrefix.trans ?_ ((calls_prefix_duplicateLoop env _ _ _ _).trans
      (calls_prefix_foldlM h))
    rw [duplicate_calls]
    exact List.prefix_append _ _
  · exact (calls_prefix_duplicateLoop env _ _ _ _).trans (calls_prefix_foldlM h)
  · exact (calls_prefix_duplicateLoop env _ _ _ _).trans (calls_prefix_foldlM h)
  · exact (calls_prefix_duplicateLoop env _ _ _ _).trans (calls_prefix_foldlM h)
  · cases h

/-! ### A job ends -/

/-- The commands of the destination of a filter. -/
def commandsOf (j : Job) (f : TFilter) : Commands :=
  (j.run.proc.commands? j.run.reqInfo.mConf f.mDestination).getD {}

/-- The steps a filter costs, at most. -/
def turnsOf (j : Job) (f : TFilter) : ℕ :=
  4 * ((j.commandsOf f).mDuplicationPercentage / 100 + 1) + 2

/-- The steps to the end, at most. -/
def left (j : Job) : ℕ := j.point.rank + (j.matchedFilters.map j.turnsOf).sum

theorem Changes.commandsOf {j j' : Job} {g : Glance} (h : Changes j g j') :
    j'.commandsOf = j.commandsOf := by
  cases h with
  | moved point => rfl
  | drew it fs c numDups => rfl
  | looked point => rfl
  | called f c point =>
    have hcall : (j.run.duplicate g.env f c).proc.mCommands = j.run.proc.mCommands ∧
        (j.run.duplicate g.env f c).reqInfo.mConf = j.run.reqInfo.mConf := by
      unfold RunState.duplicate
      split_ifs
      · exact ⟨rfl, rfl⟩
      · exact ⟨rfl, rfl⟩
    funext it
    simp only [Job.commandsOf, RequestProcessor.commands?, hcall.1, hcall.2]

/-- **Every step of a job brings it nearer to its end.** -/
theorem left_step {j : Job} (hdone : j.isDone = false) (hthrown : j.point ≠ .thrown) (g : Glance) :
    (j.step g).left < j.left := by
  have hturns : (j.step g).turnsOf = j.turnsOf := by
    funext it
    rw [turnsOf, (changes_step j g).commandsOf, turnsOf]
  rw [left, left, hturns]
  unfold step
  cases hpoint : j.point with
  | next =>
    cases hfs : j.matchedFilters with
    | nil => simp [isDone, hpoint, hfs] at hdone
    | cons it fs =>
      cases hc : j.run.proc.commands? j.run.reqInfo.mConf it.mDestination with
      | none => simp [JobPoint.rank, hc]
      | some c =>
        have hnum : c.numDups (g.env.draw j.run.draws) ≤ c.mDuplicationPercentage / 100 + 1 := by
          unfold Commands.numDups
          split_ifs <;> omega
        have hcost : j.turnsOf it = 4 * (c.mDuplicationPercentage / 100 + 1) + 2 := by
          rw [turnsOf, commandsOf, hc, Option.getD_some]
        simp only [hc, toDuplicateInt_eq, JobPoint.rank, List.map_cons, List.sum_cons, hcost]
        omega
  | poll f c turns =>
    cases turns with
    | zero => simp [JobPoint.rank]
    | succ turns =>
      dsimp only
      split_ifs
      · simp only [JobPoint.rank]
        omega
      · simp only [JobPoint.rank]
        omega
  | send f c turns => simp [JobPoint.rank]
  | returned f c turns code => simp [JobPoint.rank]
  | count f c turns => simp [JobPoint.rank]
  | thrown => exact absurd hpoint hthrown

theorem step_of_isDone {j : Job} (h : j.isDone = true) (g : Glance) : j.step g = j := by
  unfold isDone at h
  split at h
  · rename_i hpoint
    rw [step, hpoint, List.isEmpty_iff.1 h]
  · cases h

theorem within_run {j : Job} (h : Within p r j) (gs : List Glance) :
    Within p r (Runs.run step j gs) :=
  Runs.run_invariant (P := Within p r) (G := fun _ => True) (fun _ g h _ => within_step h g) h
    fun _ _ => trivial

/-- **Every job ends**, after a number of steps that does not depend on what it sees. -/
theorem isDone_run {ops : List ConfOp} {j : Job} (h : Within (ConfState.run ops).proc r j)
    {gs : List Glance} (hgs : j.left ≤ gs.length) : (Runs.run step j gs).isDone = true := by
  have hpos : ∀ {j : Job}, j.point ≠ .thrown → 0 < j.left := by
    intro j hj
    rw [left]
    cases hpoint : j.point with
    | thrown => exact absurd hpoint hj
    | _ => simp [JobPoint.rank]
  have hrest : ∀ (gs : List Glance) {j : Job}, j.isDone = true → Runs.run step j gs = j := by
    intro gs
    induction gs with
    | nil => exact fun _ => rfl
    | cons g gs ih =>
      intro j hj
      rw [Runs.run_cons, step_of_isDone hj, ih hj]
  induction gs generalizing j with
  | nil => exact absurd (hpos (point_ne_thrown h)) (not_lt.2 hgs)
  | cons g gs ih =>
    cases hdone : j.isDone with
    | true =>
      rw [hrest (g :: gs) hdone]
      exact hdone
    | false =>
      have hless := left_step hdone (point_ne_thrown h) g
      rw [List.length_cons] at hgs
      exact ih (within_step h g) (by omega)

/-! ### Every environment is seen -/

/-- What the job sees next in an environment. -/
def look (env : Env) (j : Job) : Glance :=
  ⟨env.draw j.run.draws, env.stillRunning j.run.polls, env.perform j.run.calls.length⟩

theorem Changes.agrees {env : Env} {j j' : Job} (h : Changes j (look env j) j') (hj : Aligned j)
    (henv : Agrees env j) : Agrees env j' := by
  obtain ⟨hdrawn, hpolled, hanswers⟩ := henv
  cases h with
  | moved point => exact ⟨hdrawn, hpolled, hanswers⟩
  | drew it fs c numDups =>
    refine ⟨?_, hpolled, hanswers⟩
    dsimp only
    split_ifs
    · exact shows_snoc.2 ⟨hdrawn, by rw [hj.drawn]; rfl⟩
    · exact hdrawn
  | looked point => exact ⟨hdrawn, shows_snoc.2 ⟨hpolled, by rw [hj.polled]; rfl⟩, hanswers⟩
  | called f c point => exact ⟨hdrawn, hpolled, shows_snoc.2 ⟨hanswers, by rw [hj.answers]; rfl⟩⟩

/-- A job can see any environment. -/
theorem exists_run_agrees (env : Env) {j : Job} (hj : Aligned j) (h : Agrees env j) (n : ℕ) :
    ∃ gs : List Glance, gs.length = n ∧ Agrees env (Runs.run step j gs) := by
  induction n generalizing j with
  | zero => exact ⟨[], rfl, h⟩
  | succ n ih =>
    have hchanges := changes_step j (look env j)
    obtain ⟨gs, hlen, hgs⟩ := ih (hchanges.aligned hj) (hchanges.agrees hj h)
    refine ⟨look env j :: gs, ?_, hgs⟩
    rw [List.length_cons, hlen]

/-- What has been made of a job, in any environment that shows what it has seen. -/
theorem Within.first_calls {ops : List ConfOp} {j : Job}
    (h : Within (ConfState.run ops).proc r j) {env : Env} (henv : Agrees env j) :
    ∃ w, (ConfState.run ops).proc.runOne env r = some w ∧ j.run.calls <+: w.calls ∧
      (j.isDone = true → w = j.run) := by
  obtain ⟨w, hw, -⟩ := sendInv_runOne ops env r
  have hfinish : j.finish env = some w := by rw [← h.finish env henv, hw]
  refine ⟨w, hw, calls_prefix_finish hfinish, fun hdone => ?_⟩
  rw [finish_of_isDone hdone] at hfinish
  exact (Option.some.inj hfinish).symm

end Run

end Job

end ModDup
