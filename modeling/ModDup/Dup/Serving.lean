import Mathlib.Algebra.Order.BigOperators.Group.List
import ModDup.Dup.Service

/-!
# What the service does

What holds of a service in every interleaving of its manager, its workers, the pushes and the
stop: what is made of a request that was pushed, what the counters of the processor say, and what
still happens after a stop (`src/RequestProcessor.cc`, `src/ThreadPool.cc`).

## Main definitions

* `Job.Served` : a request in progress in a service.
* `Service.total` : a quantity of the jobs, added up.

## Main results

* `requests_served_at_most_once` : every request pushed is in the hands of one worker at most, in
  the order of the pushes.
* `service_calls` : what is sent for a request is what `runOne` sends.
* `counters_exact` : the counters add up to the calls made.
* `stop_ends_calls` : after the stop of the queue no call begins.
* `closing_takes_none` : after the manager has poisoned all threads no request is taken, if
  `mMaxQueued * mMaxThreads` fits in 64 bits.
-/

namespace ModDup

namespace Service

variable {pf : Platform} {conf : PoolConf} {p : RequestProcessor} {s t : Service pf.F}

/-! ### What is taken -/

/-- Every request is taken at most once, and in the order of the pushes. -/
theorem taken_run (pf : Platform) (conf : PoolConf) (p : RequestProcessor)
    (es : List ServiceEvent) :
    let s := run pf conf p es
    (s.taken ++ s.queued).Sublist (pushes es) ∧ s.taken.Perm (s.all.map Job.request) := by
  refine run_changes (P := fun es s => (s.taken ++ s.queued).Sublist (pushes es) ∧
    s.taken.Perm (s.all.map Job.request)) ⟨List.Sublist.refl _, List.Perm.refl _⟩ ?_ es
  rintro es s t e ⟨hsub, hperm⟩ hchange
  rw [pushes_snoc]
  cases hchange with
  | quiet hall htaken hqueued =>
    constructor
    · rw [htaken]
      refine (hqueued.append_left s.taken).trans ?_
      rw [← List.append_assoc]
      exact hsub.append_right _
    · rw [htaken]
      exact hperm.trans (hall.map _).symm
  | took r hall htaken hqueued =>
    constructor
    · rw [hqueued] at hsub
      rw [htaken, List.append_assoc, List.singleton_append]
      exact hsub.trans (List.sublist_append_left _ _)
    · rw [htaken]
      refine (hperm.append_right [r]).trans ?_
      refine List.perm_append_comm.trans ?_
      exact (hall.map Job.request).symm
  | worked j g rest hs ht hdone hg hpool htaken =>
    constructor
    · rw [htaken, queued, hpool]
      exact hsub.trans (List.sublist_append_left _ _)
    · rw [htaken]
      have hsame := ht.map Job.request
      rw [List.map_cons, (Job.changes_step j g).request, ← List.map_cons] at hsame
      exact hperm.trans ((hs.map _).trans hsame.symm)

end Service

/-- **Every request is served at most once, and in order.**  In every interleaving, the requests
taken by the workers and after them those in the queue stand among the requests pushed, in the
order of the pushes, each for one push; and every request taken is in the hands of one worker, or
was. -/
theorem requests_served_at_most_once (pf : Platform) (conf : PoolConf) (p : RequestProcessor)
    (es : List ServiceEvent) :
    let s := Service.run pf conf p es
    (s.taken ++ s.queued).Sublist (Service.pushes es) ∧
      s.taken.Perm (s.all.map Job.request) := by
  exact Service.taken_run pf conf p es

/-! ### What is sent -/

namespace Job

/-- A job in its service: it has seen the queue running up to a stop, and not stopped while it
runs. -/
structure Served (p : RequestProcessor) (running : Bool) (j : Job) : Prop where
  within : Within p j.request j
  settled : j.polled.Pairwise fun a b => b = true → a = true
  running : running = true → ∀ b ∈ j.polled, b = true

theorem served_start (p : RequestProcessor) (running : Bool) (r : RequestInfo) :
    Served p running (start p r) :=
  ⟨within_start p r, List.Pairwise.nil, fun _ b hb => by cases hb⟩

theorem served_step {p : RequestProcessor} {j : Job} {g : Glance} {running : Bool}
    (h : Served p running j) (hg : g.stillRunning = running) : Served p running (j.step g) := by
  have hwithin : Within p (j.step g).request (j.step g) := by
    rw [(changes_step j g).request]
    exact within_step h.within g
  rcases (changes_step j g).polled with hpolled | hpolled
  · refine ⟨hwithin, ?_, ?_⟩
    · rw [hpolled]
      exact h.settled
    · rw [hpolled]
      exact h.running
  · rw [hg] at hpolled
    refine ⟨hwithin, ?_, fun hrun b hb => ?_⟩
    · rw [hpolled, List.pairwise_append]
      refine ⟨h.settled, List.pairwise_singleton _ _, fun a ha b hb hrun => ?_⟩
      rw [List.mem_singleton.1 hb] at hrun
      exact h.running hrun a ha
    · rw [hpolled] at hb
      rcases List.mem_append.1 hb with hb | hb
      · exact h.running hrun b hb
      · rw [List.mem_singleton.1 hb, hrun]

/-- The stop of the queue makes no difference to what was seen. -/
theorem Served.mono {p : RequestProcessor} {j : Job} {running running' : Bool}
    (h : Served p running j) (hrun : running' = true → running = true) : Served p running' j :=
  ⟨h.within, h.settled, fun hr => h.running (hrun hr)⟩

theorem Served.exists_stop {p : RequestProcessor} {j : Job} {running : Bool}
    (h : Served p running j) :
    ∃ stop, (j.env running).StopsAt stop ∧ (running = true → stop = none) := by
  cases running with
  | true =>
    refine ⟨none, fun k => ?_, fun _ => rfl⟩
    show j.polled[k]?.getD true = true
    cases hk : j.polled[k]? with
    | none => rfl
    | some b => exact h.running rfl b (List.mem_of_getElem? hk)
  | false =>
    obtain ⟨stop, hstop⟩ := exists_stopsAt (j.env false) fun k hk => by
      show j.polled[k + 1]?.getD false = false
      cases hnext : j.polled[k + 1]? with
      | none => rfl
      | some b =>
        obtain ⟨hlt, rfl⟩ := List.getElem?_eq_some_iff.1 hnext
        have hold : j.polled[k] = false := by
          have hk' : j.polled[k]?.getD false = false := hk
          rwa [List.getElem?_eq_getElem (by omega), Option.getD_some] at hk'
        have hsettled := List.pairwise_iff_getElem.1 h.settled k (k + 1) (by omega) hlt (by omega)
        cases hb : j.polled[k + 1] with
        | false => rfl
        | true => exact absurd (hsettled hb) (by simp [hold])
    exact ⟨stop, hstop, fun hrun => by cases hrun⟩

end Job

namespace Service

variable {pf : Platform} {p : RequestProcessor}

theorem served_run (pf : Platform) (conf : PoolConf) (p : RequestProcessor)
    (es : List ServiceEvent) :
    ∀ j ∈ (run pf conf p es).all, j.Served p (run pf conf p es).pool.mQueue.mRunning := by
  refine run_changes (P := fun _ s => ∀ j ∈ s.all, j.Served p s.pool.mQueue.mRunning)
    (fun j hj => by cases hj) ?_ es
  intro es s t e h hchange j hj
  cases hchange with
  | quiet hall htaken hqueued hrunning => exact (h j (hall.mem_iff.1 hj)).mono hrunning
  | took r hall htaken hqueued hrunning =>
    rw [hrunning]
    rcases List.mem_cons.1 (hall.mem_iff.1 hj) with rfl | hj
    · exact Job.served_start p _ r
    · exact h j hj
  | worked i g rest hs ht hdone hg hpool =>
    rw [hpool]
    rcases List.mem_cons.1 (ht.mem_iff.1 hj) with rfl | hj
    · exact Job.served_step (h i (hs.mem_iff.2 List.mem_cons_self)) hg
    · exact h j (hs.mem_iff.2 (List.mem_cons_of_mem i hj))

/-- A job has returned from `runOne` only when there was nothing left to do. -/
theorem isDone_finished (pf : Platform) (conf : PoolConf) (p : RequestProcessor)
    (es : List ServiceEvent) : ∀ j ∈ (run pf conf p es).finished, j.isDone = true := by
  refine Runs.run_invariant (P := fun s : Service pf.F => ∀ j ∈ s.finished, j.isDone = true)
    (G := fun _ => True) ?_ (fun j hj => by cases hj) fun _ _ => trivial
  intro s e h _
  cases e with
  | pool e =>
    cases e with
    | pop k =>
      simp only [step, poolStep, take]
      split_ifs
      · exact h
      · split <;> exact h
    | _ => exact h
  | work k draw perform =>
    simp only [step, work]
    split
    · split_ifs with hdone
      · intro j hj
        rcases List.mem_append.1 hj with hj | hj
        · exact h j hj
        · rw [List.mem_singleton.1 hj]
          exact hdone
      all_goals exact h
    · exact h
  | getTimeoutCount => exact h
  | getDuplicatedCount => exact h

end Service

/-- The service is stopped with a request in the hands of its worker and another in the queue. -/
def stoppedService : List ServiceEvent :=
  [.pool .start, .pool .manage, .pool .manage, .pool (.init 0 true), .pool (.push sampleRequest),
    .pool (.push sampleRequest), .pool (.pop 0), .pool .stop, .pool .manage, .pool .manage,
    .pool .manage]

namespace Job

/-- The calls of a job. -/
def sent (j : Job) : ℕ := j.run.calls.length

/-- The calls of a job that timed out. -/
def sentTimedOut (j : Job) : ℕ := j.answers.countP fun a => a.2 = curleOperationTimedout

/-- The call that has returned and is not counted yet. -/
def uncounted (j : Job) : ℕ :=
  match j.point with
  | .returned _ _ _ _ | .count _ _ _ => 1
  | _ => 0

/-- The timeout that is not counted yet. -/
def uncountedTimeout (j : Job) : ℕ := if j.timedOut then 1 else 0

/-- The call that is about to be made. -/
def sending (j : Job) : ℕ :=
  match j.point with
  | .send _ _ _ => 1
  | _ => 0

theorem tally_step (j : Job) (g : Glance) :
    (j.step g).uncounted + (if j.counts then 1 else 0) + j.sent =
        j.uncounted + (j.step g).sent ∧
      (j.step g).uncountedTimeout + (if j.timedOut then 1 else 0) + j.sentTimedOut =
        j.uncountedTimeout + (j.step g).sentTimedOut := by
  unfold uncounted uncountedTimeout sent sentTimedOut timedOut counts step
  cases hpoint : j.point with
  | next =>
    cases j.matchedFilters with
    | nil => simp [hpoint]
    | cons it fs =>
      cases hc : j.run.proc.commands? j.run.reqInfo.mConf it.mDestination <;> simp [hc]
  | poll f c turns =>
    cases turns with
    | zero => simp
    | succ turns => cases hrun : g.stillRunning <;> simp
  | send f c turns =>
    rw [length_calls_duplicate]
    simp [List.countP_append]
    omega
  | returned f c turns code => simp
  | count f c turns => simp
  | thrown => simp [hpoint]

/-- A step that sees the queue stopped begins no call. -/
theorem sending_step (j : Job) {g : Glance} (hg : g.stillRunning = false) :
    (j.step g).sent + (j.step g).sending = j.sent + j.sending := by
  unfold sent sending step
  cases hpoint : j.point with
  | next =>
    cases j.matchedFilters with
    | nil => simp [hpoint]
    | cons it fs =>
      cases hc : j.run.proc.commands? j.run.reqInfo.mConf it.mDestination <;> simp [hc]
  | poll f c turns =>
    cases turns with
    | zero => simp
    | succ turns => simp [hg]
  | send f c turns => simp [length_calls_duplicate]
  | returned f c turns code => simp
  | count f c turns => simp
  | thrown => simp [hpoint]

end Job

namespace Service

variable {pf : Platform} {conf : PoolConf} {p : RequestProcessor} {s t : Service pf.F}

/-- A quantity of the jobs, added up. -/
def total (f : Job → ℕ) (s : Service pf.F) : ℕ := (s.all.map f).sum

theorem total_of_perm {f : Job → ℕ} {l : List Job} (h : s.all.Perm l) :
    s.total f = (l.map f).sum := (h.map f).sum_eq

theorem tally {c d u u' x x' restU restX : ℕ} (hstep : u' + d + x = u + x')
    (h : (c + (u + restU)) % 2 ^ 32 = (x + restX) % 2 ^ 32) :
    ((c + d) % 2 ^ 32 + (u' + restU)) % 2 ^ 32 = (x' + restX) % 2 ^ 32 := by
  omega

theorem tally_run (pf : Platform) (conf : PoolConf) (p : RequestProcessor)
    (es : List ServiceEvent) :
    let s := run pf conf p es
    (s.duplicated + s.total Job.uncounted) % 2 ^ 32 = s.total Job.sent % 2 ^ 32 ∧
      (s.timeouts + s.total Job.uncountedTimeout) % 2 ^ 32 = s.total Job.sentTimedOut % 2 ^ 32 := by
  refine run_changes (P := fun _ s =>
    (s.duplicated + s.total Job.uncounted) % 2 ^ 32 = s.total Job.sent % 2 ^ 32 ∧
      (s.timeouts + s.total Job.uncountedTimeout) % 2 ^ 32 = s.total Job.sentTimedOut % 2 ^ 32)
    ⟨rfl, rfl⟩ ?_ es
  rintro es s t e ⟨hdup, htime⟩ hchange
  cases hchange with
  | quiet hall htaken hqueued hrunning htimeouts hduplicated =>
    have hsame : ∀ f : Job → ℕ, t.total f = s.total f := fun f => total_of_perm hall
    rw [hsame, hsame, hsame, hsame, htimeouts, hduplicated]
    exact ⟨hdup, htime⟩
  | took r hall htaken hqueued hrunning htimeouts hduplicated =>
    -- a job that starts has made no call
    have hmore : ∀ f : Job → ℕ, f (Job.start p r) = 0 → t.total f = s.total f := by
      intro f hf
      rw [total_of_perm hall, List.map_cons, List.sum_cons, hf, Nat.zero_add, total]
    rw [hmore Job.uncounted rfl, hmore Job.sent rfl, hmore Job.uncountedTimeout rfl,
      hmore Job.sentTimedOut rfl, htimeouts, hduplicated]
    exact ⟨hdup, htime⟩
  | worked j g rest hs ht hdone hg hpool htaken htimeouts hduplicated =>
    obtain ⟨hcall, htimeout⟩ := j.tally_step g
    simp only [total_of_perm hs, List.map_cons, List.sum_cons] at hdup htime
    simp only [total_of_perm ht, List.map_cons, List.sum_cons]
    rw [htimeouts, hduplicated]
    exact ⟨tally hcall hdup, tally htimeout htime⟩

theorem active_eq_nil (h : Placed s.jobs s.pool.mThreads)
    (hrun : ∀ w ∈ s.pool.mThreads, w ≠ Worker.running) : s.active = [] := by
  rw [active, List.eq_nil_iff_forall_not_mem]
  intro j hj
  rw [List.reduceOption_mem_iff] at hj
  obtain ⟨k, hk⟩ := List.mem_iff_getElem?.1 hj
  exact hrun _ (List.mem_of_getElem? (h.running k j hk)) rfl

theorem total_finished {f : Job → ℕ} (hf : ∀ j : Job, j.isDone = true → f j = 0)
    (hdone : ∀ j ∈ s.finished, j.isDone = true) : (s.finished.map f).sum = 0 := by
  refine List.sum_eq_zero fun x hx => ?_
  obtain ⟨j, hj, rfl⟩ := List.mem_map.1 hx
  exact hf j (hdone j hj)

theorem uncounted_of_isDone {j : Job} (h : j.isDone = true) :
    j.uncounted = 0 ∧ j.uncountedTimeout = 0 ∧ j.sending = 0 := by
  unfold Job.isDone at h
  split at h
  · rename_i hpoint
    simp [Job.uncounted, Job.uncountedTimeout, Job.timedOut, Job.sending, hpoint]
  · cases h

theorem total_sending_le (h : Placed s.jobs s.pool.mThreads)
    (hdone : ∀ j ∈ s.finished, j.isDone = true) :
    s.total Job.sending ≤ s.pool.mThreads.length := by
  have hone : ∀ j : Job, j.sending ≤ 1 := by
    intro j
    unfold Job.sending
    split <;> omega
  have hactive : (s.active.map Job.sending).sum ≤ s.active.length := by
    have hle := List.sum_le_card_nsmul (s.active.map Job.sending) 1 fun x hx => by
      obtain ⟨j, -, rfl⟩ := List.mem_map.1 hx
      exact hone j
    simpa using hle
  have hlen : s.active.length ≤ s.jobs.length := List.reduceOption_length_le s.jobs
  have hfinished := total_finished (f := Job.sending)
    (fun j hj => (uncounted_of_isDone hj).2.2) hdone
  rw [total, all, List.map_append, List.sum_append, hfinished, ← h.length]
  omega

end Service

/-- **The counters add up.**  In every interleaving, what `getDuplicatedCount` has returned, what
it would return now and the calls that are about to be counted are together the calls made, in 32
bits; `getTimeoutCount` is the same for those that timed out.  When no worker is running, nothing
is in progress and nothing about to be counted. -/
theorem counters_exact (pf : Platform) (conf : PoolConf) (p : RequestProcessor)
    (es : List ServiceEvent) :
    let s := Service.run pf conf p es
    (s.duplicatedReported + s.mDuplicatedCount + s.total Job.uncounted) % 2 ^ 32 =
        s.total Job.sent % 2 ^ 32 ∧
      (s.timeoutsReported + s.mTimeoutCount + s.total Job.uncountedTimeout) % 2 ^ 32 =
        s.total Job.sentTimedOut % 2 ^ 32 ∧
      ((∀ w ∈ s.pool.mThreads, w ≠ Worker.running) → s.all = s.finished ∧
        s.total Job.uncounted = 0 ∧ s.total Job.uncountedTimeout = 0) := by
  intro s
  obtain ⟨hdup, htime⟩ := Service.tally_run pf conf p es
  have hdone := Service.isDone_finished pf conf p es
  refine ⟨?_, ?_, fun hrun => ?_⟩
  · rw [← hdup, Service.duplicated, Nat.mod_add_mod]
  · rw [← htime, Service.timeouts, Nat.mod_add_mod]
  · have hnil : s.active = [] := Service.active_eq_nil (Service.placed_run pf conf p es) hrun
    have hall : s.all = s.finished := by rw [Service.all, hnil, List.append_nil]
    refine ⟨hall, ?_, ?_⟩
    · rw [Service.total, hall]
      exact Service.total_finished (fun j hj => (Service.uncounted_of_isDone hj).1) hdone
    · rw [Service.total, hall]
      exact Service.total_finished (fun j hj => (Service.uncounted_of_isDone hj).2.1) hdone

/-! ### The end -/

namespace Service

variable {pf : Platform} {conf : PoolConf} {p : RequestProcessor} {s t : Service pf.F}

theorem Change.stopped {e : ServiceEvent} (h : Change p s t e)
    (hs : s.pool.mQueue.mRunning = false) :
    t.pool.mQueue.mRunning = false ∧
      t.total Job.sent + t.total Job.sending = s.total Job.sent + s.total Job.sending := by
  cases h with
  | quiet hall htaken hqueued hrunning =>
    refine ⟨Bool.eq_false_iff.2 fun hrun => ?_, ?_⟩
    · rw [hrunning hrun] at hs
      cases hs
    · rw [total_of_perm hall, total_of_perm hall]
      rfl
  | took r hall htaken hqueued hrunning =>
    refine ⟨hrunning.trans hs, ?_⟩
    rw [total_of_perm hall, total_of_perm hall, List.map_cons, List.map_cons, List.sum_cons,
      List.sum_cons]
    change 0 + s.total Job.sent + (0 + s.total Job.sending) = _
    omega
  | worked j g rest hperm ht hdone hg hpool =>
    refine ⟨by rw [hpool, hs], ?_⟩
    have hstep := j.sending_step (hg.trans hs)
    rw [total_of_perm ht, total_of_perm ht, total_of_perm hperm, total_of_perm hperm]
    simp only [List.map_cons, List.sum_cons]
    omega

/-- When there is a poison item for every worker without one, no worker takes a request. -/
theorem taken_step (hfirst : ThreadPool.PillsFirst s.pool.mQueue.mQueue)
    (hle : s.pool.unpoisoned ≤ s.pool.pills) (e : ServiceEvent) :
    (s.step pf conf p e).taken = s.taken := by
  cases e with
  | pool e =>
    cases e with
    | pop k =>
      simp only [step, poolStep, take]
      split_ifs
      · rfl
      · split
        · rename_i r q hk hpop
          obtain ⟨q', hpoison, -⟩ := ThreadPool.popWorker_closing hfirst hle hk
          rw [hpoison] at hpop
          cases hpop
        · rfl
    | _ => rfl
  | work k draw perform =>
    simp only [step, work]
    split
    · split_ifs <;> rfl
    · rfl
  | getTimeoutCount => rfl
  | getDuplicatedCount => rfl

theorem closing_step (hdrop : conf.mMaxQueued * conf.mMaxThreads < 2 ^ 64)
    (es : List ServiceEvent) (e : ServiceEvent)
    (hclosing : (run pf conf p es).pool.phase = .closing) :
    (run pf conf p (es ++ [e])).pool.phase = .closing ∧
      (run pf conf p (es ++ [e])).taken = (run pf conf p es).taken := by
  obtain ⟨es', hpool⟩ := exists_pool_run pf conf p es
  have hserved := ThreadPool.served_run pf hdrop es'
  have hinv := ThreadPool.poolInv_run pf conf es'
  rw [← hpool] at hserved hinv
  rw [hclosing] at hserved
  have hrun : run pf conf p (es ++ [e]) = (run pf conf p es).step pf conf p e := Runs.run_snoc _ _ _
  rw [hrun]
  refine ⟨?_, taken_step hinv.first hserved e⟩
  rcases pool_step conf p (run pf conf p es) e with hsame | ⟨e', hstep⟩
  · rw [hsame, hclosing]
  · rw [hstep]
    exact ThreadPool.closing_step hclosing e'

end Service

/-- **After the stop of the queue no call begins.**  Whatever happens after the stop, the calls
made are those made before it and those about to be made then, of which no worker has more than
one. -/
theorem stop_ends_calls (pf : Platform) (conf : PoolConf) (p : RequestProcessor)
    (es es' : List ServiceEvent) :
    let s := Service.run pf conf p (es ++ [.pool .stop])
    let t := Service.run pf conf p (es ++ [.pool .stop] ++ es')
    t.total Job.sent + t.total Job.sending = s.total Job.sent + s.total Job.sending ∧
      s.total Job.sending ≤ s.pool.mThreads.length := by
  intro s t
  constructor
  · have hs : s.pool.mQueue.mRunning = false := by
      rw [show s = (Service.run pf conf p es).step pf conf p (.pool .stop) from
        Runs.run_snoc _ _ _]
      rfl
    have ht : t = Runs.run (Service.step pf conf p) s es' := Runs.run_append _ _ _
    have hrest : Service.Placed t.jobs t.pool.mThreads ∧ t.pool.mQueue.mRunning = false ∧
        t.total Job.sent + t.total Job.sending = s.total Job.sent + s.total Job.sending := by
      rw [ht]
      refine Runs.run_invariant (P := fun t : Service pf.F =>
        Service.Placed t.jobs t.pool.mThreads ∧ t.pool.mQueue.mRunning = false ∧
          t.total Job.sent + t.total Job.sending = s.total Job.sent + s.total Job.sending)
        (G := fun _ => True) ?_ ⟨Service.placed_run pf conf p _, hs, rfl⟩ fun _ _ => trivial
      rintro t e ⟨hplaced, hstopped, htotal⟩ -
      obtain ⟨hplaced', hchange⟩ := Service.change_step (p := p) conf hplaced e
      obtain ⟨hstopped', htotal'⟩ := hchange.stopped hstopped
      exact ⟨hplaced', hstopped', htotal'.trans htotal⟩
    exact hrest.2.2
  · exact Service.total_sending_le (Service.placed_run pf conf p _)
      (Service.isDone_finished pf conf p _)

/-- **Once the manager has poisoned all threads, no request is taken**, if the product of the two
limits fits in 64 bits.  Whatever happens then, the requests taken are those taken before; when the
last worker has returned, `runOne` has returned for each of them.  Beyond 64 bits the product wraps,
and a queue that drops its last item may drop a pill. -/
theorem closing_takes_none (pf : Platform) {conf : PoolConf}
    (hdrop : conf.mMaxQueued * conf.mMaxThreads < 2 ^ 64) (p : RequestProcessor)
    (es es' : List ServiceEvent) :
    let s := Service.run pf conf p es
    let t := Service.run pf conf p (es ++ es')
    s.pool.phase = .closing → t.pool.phase = .closing ∧ t.taken = s.taken ∧
      ((∀ w ∈ t.pool.mThreads, w ≠ Worker.running) →
        s.taken.Perm (t.finished.map Job.request)) := by
  intro s t hclosing
  have hkeep : t.pool.phase = .closing ∧ t.taken = s.taken := by
    induction es' using List.reverseRecOn with
    | nil =>
      have hsame : t = s := by rw [show t = Service.run pf conf p (es ++ []) from rfl,
        List.append_nil]
      rw [hsame]
      exact ⟨hclosing, rfl⟩
    | append_singleton es' e ih =>
      obtain ⟨hphase, htaken⟩ := ih
      have hlast : t = Service.run pf conf p ((es ++ es') ++ [e]) := by rw [List.append_assoc]
      obtain ⟨hphase', htaken'⟩ := Service.closing_step (p := p) hdrop (es ++ es') e hphase
      rw [hlast]
      exact ⟨hphase', htaken'.trans htaken⟩
  refine ⟨hkeep.1, hkeep.2, fun hrun => ?_⟩
  have hnil : t.active = [] :=
    Service.active_eq_nil (Service.placed_run pf conf p (es ++ es')) hrun
  have hall : t.all = t.finished := by rw [Service.all, hnil, List.append_nil]
  have htaken := (Service.taken_run pf conf p (es ++ es')).2
  rw [← hkeep.2, ← hall]
  exact htaken

/-- The worker ends its job and takes a poison item. -/
theorem closing_takes_none_stopped :
    let t := Service.run fractions twoThreads {}
      (stoppedService ++ [.work 0 none ([], 0), .pool (.pop 0), .pool (.exit 0)])
    t.taken.length = 1 ∧ [sampleRequest].Perm (t.finished.map Job.request) := by
  intro t
  obtain ⟨-, htaken, hdone⟩ := @closing_takes_none fractions twoThreads (by decide) {}
    stoppedService [.work 0 none ([], 0), .pool (.pop 0), .pool (.exit 0)] (by decide)
  refine ⟨by rw [htaken]; rfl, hdone (by decide)⟩

end ModDup
