import Mathlib.Data.List.ReduceOption
import ModDup.Dup.Worker
import ModDup.Pool.Shutdown

/-!
# The service

The filters push requests to the queue of the pool, the workers take them and work on them step
by step, and the manager reads the two counters of the processor when it reports
(`RequestProcessor::run`, `getTimeoutCount` and `getDuplicatedCount` in
`src/RequestProcessor.cc`).  All of this happens in any order.

## Main definitions

* `Service` : the pool, what each worker has in hand, and the counters.
* `ServiceEvent`, `Service.run` : any interleaving of the manager, the steps of the workers, the
  pushes and the reads of the counters.
* `Service.Change` : all an event can do to the requests.

## Main results

* `Service.change_step` : the events do nothing else.
* `Service.run_changes` : the rule for runs.
* `Service.exists_pool_run` : the pool of a service is a pool.
-/

namespace ModDup

/-! ### A place in a list -/

theorem reduceOption_perm {α : Type*} {l : List (Option α)} {k : ℕ} {x : Option α}
    (h : l[k]? = some x) : ∃ rest : List α, l.reduceOption.Perm (x.toList ++ rest) ∧
      (l.eraseIdx k).reduceOption = rest ∧
      ∀ y : Option α, (l.set k y).reduceOption.Perm (y.toList ++ rest) := by
  obtain ⟨hlt, rfl⟩ := List.getElem?_eq_some_iff.1 h
  have hmove : ∀ y : Option α, (l.take k ++ y :: l.drop (k + 1)).reduceOption.Perm
      (y.toList ++ (l.eraseIdx k).reduceOption) := by
    intro y
    rw [List.eraseIdx_eq_take_drop_succ]
    have hperm : (l.take k ++ y :: l.drop (k + 1)).Perm (y :: (l.take k ++ l.drop (k + 1))) :=
      List.perm_middle
    have hcons : (y :: (l.take k ++ l.drop (k + 1))).reduceOption =
        y.toList ++ (l.take k ++ l.drop (k + 1)).reduceOption := by
      cases y with
      | none => rfl
      | some a => rfl
    rw [← hcons]
    exact hperm.filterMap id
  refine ⟨_, ?_, rfl, fun y => ?_⟩
  · have hsplit : l.take k ++ l[k] :: l.drop (k + 1) = l := by
      rw [List.getElem_cons_drop, List.take_append_drop]
    have hl := hmove l[k]
    rwa [hsplit] at hl
  · rw [List.set_eq_take_append_cons_drop, if_pos hlt]
    exact hmove y

/-! ### The state -/

/-- What is to do in an item. -/
def Item.object {α : Type*} : Item α → Option α
  | .poison => none
  | .work object => some object

/-- `runOne` is about to count a timeout. -/
def Job.timedOut (j : Job) : Bool :=
  match j.point with
  | .returned _ _ _ code => code = curleOperationTimedout
  | _ => false

/-- `runOne` is about to count a call. -/
def Job.counts (j : Job) : Bool :=
  match j.point with
  | .count _ _ _ => true
  | _ => false

/-- The pool of a process with its processor. -/
structure Service (F : Type) where
  pool : ThreadPool F RequestInfo := {}
  /-- What each worker has in hand, in the order of the threads. -/
  jobs : List (Option Job) := []
  /-- The requests taken from the queue, in order. -/
  taken : List RequestInfo := []
  /-- The jobs that have returned from `runOne`. -/
  finished : List Job := []
  /-- `unsigned`. -/
  mTimeoutCount : ℕ := 0
  /-- `unsigned`. -/
  mDuplicatedCount : ℕ := 0
  /-- What `getTimeoutCount` has returned so far. -/
  timeoutsReported : ℕ := 0
  /-- What `getDuplicatedCount` has returned so far. -/
  duplicatedReported : ℕ := 0

/-- What can happen to a service. -/
inductive ServiceEvent where
  | pool (e : PoolEvent RequestInfo)
  /-- Worker `k` makes the next step of `runOne`. -/
  | work (k : ℕ) (draw : Option ℕ) (perform : List Bytes × ℤ)
  | getTimeoutCount
  | getDuplicatedCount

namespace Service

variable (pf : Platform) (conf : PoolConf) (p : RequestProcessor)

/-! ### The events -/

section Events

variable (s : Service pf.F)

/-- Worker `k` is in `runOne`. -/
def isBusy (k : ℕ) : Bool := (s.jobs[k]?.getD none).isSome

/-- Worker `k` takes an item from the queue, and enters `runOne` with it. -/
def take (k : ℕ) : Service pf.F :=
  match s.pool.mThreads[k]?, s.pool.mQueue.pop with
  | some .running, some (.work r, _) =>
    { s with
      pool := s.pool.popWorker pf k
      jobs := s.jobs.set k (some (Job.start p r))
      taken := s.taken ++ [r] }
  | _, _ => { s with pool := s.pool.popWorker pf k }

/-- What the workers have in hand after a step of the manager, which may collect a thread or make
one. -/
def jobsAfterManage : List (Option Job) :=
  match s.pool.manager with
  | .collecting _ it | .collectingLast it =>
    if s.pool.mThreads[it]?.any Worker.joinable then s.jobs.eraseIdx it else s.jobs
  | _ =>
    s.jobs ++ List.replicate ((s.pool.manage pf conf).mThreads.length - s.jobs.length) none

/-- An event of the pool.  A worker asks for the next item only after `runOne` has returned. -/
def poolStep : PoolEvent RequestInfo → Service pf.F
  | .pop k => if s.isBusy pf k then s else s.take pf p k
  | .manage =>
    { s with pool := s.pool.manage pf conf, jobs := s.jobsAfterManage pf conf }
  | e => { s with pool := s.pool.step pf conf e }

/-- The next step of worker `k` in `runOne`. -/
def work (k : ℕ) (draw : Option ℕ) (perform : List Bytes × ℤ) : Service pf.F :=
  match s.jobs[k]? with
  | some (some j) =>
    if j.isDone then { s with jobs := s.jobs.set k none, finished := s.finished ++ [j] }
    else
      { s with
        jobs := s.jobs.set k (some (j.step ⟨draw, s.pool.mQueue.mRunning, perform⟩))
        mTimeoutCount :=
          if j.timedOut then (s.mTimeoutCount + 1) % 2 ^ 32 else s.mTimeoutCount
        mDuplicatedCount :=
          if j.counts then (s.mDuplicatedCount + 1) % 2 ^ 32 else s.mDuplicatedCount }
  | _ => s

/-- `getTimeoutCount`: the counter, which is reset. -/
def getTimeoutCount : Service pf.F :=
  { s with mTimeoutCount := 0, timeoutsReported := s.timeoutsReported + s.mTimeoutCount }

/-- `getDuplicatedCount`. -/
def getDuplicatedCount : Service pf.F :=
  { s with mDuplicatedCount := 0, duplicatedReported := s.duplicatedReported + s.mDuplicatedCount }

/-- One event. -/
def step : ServiceEvent → Service pf.F
  | .pool e => s.poolStep pf conf p e
  | .work k draw perform => s.work pf k draw perform
  | .getTimeoutCount => s.getTimeoutCount pf
  | .getDuplicatedCount => s.getDuplicatedCount pf

end Events

/-- A new service, after a sequence of events. -/
def run (es : List ServiceEvent) : Service pf.F := Runs.run (step pf conf p) {} es

variable {pf conf p} {s : Service pf.F}

/-! ### The requests -/

/-- The jobs in progress. -/
def active (s : Service pf.F) : List Job := s.jobs.reduceOption

/-- All jobs. -/
def all (s : Service pf.F) : List Job := s.finished ++ s.active

/-- The requests in the queue. -/
def queued (s : Service pf.F) : List RequestInfo :=
  s.pool.mQueue.mQueue.filterMap Item.object

/-- The timeouts counted so far, in 32 bits. -/
def timeouts (s : Service pf.F) : ℕ := (s.timeoutsReported + s.mTimeoutCount) % 2 ^ 32

/-- The calls counted so far, in 32 bits. -/
def duplicated (s : Service pf.F) : ℕ := (s.duplicatedReported + s.mDuplicatedCount) % 2 ^ 32

/-- The request an event pushes. -/
def pushed : ServiceEvent → List RequestInfo
  | .pool (.push r) => [r]
  | _ => []

/-- **All an event can do to the requests**: nothing much, let a worker take one, or let one make
a step. -/
inductive Change (p : RequestProcessor) (s t : Service pf.F) (e : ServiceEvent) : Prop where
  | quiet (hall : t.all.Perm s.all) (htaken : t.taken = s.taken)
      (hqueued : t.queued.Sublist (s.queued ++ pushed e))
      (hrunning : t.pool.mQueue.mRunning = true → s.pool.mQueue.mRunning = true)
      (htimeouts : t.timeouts = s.timeouts) (hduplicated : t.duplicated = s.duplicated)
  | took (r : RequestInfo) (hall : t.all.Perm (Job.start p r :: s.all))
      (htaken : t.taken = s.taken ++ [r]) (hqueued : s.queued = r :: t.queued)
      (hrunning : t.pool.mQueue.mRunning = s.pool.mQueue.mRunning)
      (htimeouts : t.timeouts = s.timeouts) (hduplicated : t.duplicated = s.duplicated)
  | worked (j : Job) (g : Glance) (rest : List Job) (hs : s.all.Perm (j :: rest))
      (ht : t.all.Perm (j.step g :: rest)) (hdone : j.isDone = false)
      (hg : g.stillRunning = s.pool.mQueue.mRunning) (hpool : t.pool = s.pool)
      (htaken : t.taken = s.taken)
      (htimeouts : t.timeouts = (s.timeouts + if j.timedOut then 1 else 0) % 2 ^ 32)
      (hduplicated : t.duplicated = (s.duplicated + if j.counts then 1 else 0) % 2 ^ 32)

/-! ### What each worker has in hand -/

/-- There is a place for what each thread has in hand, and only a running one has something. -/
structure Placed (jobs : List (Option Job)) (threads : List Worker) : Prop where
  length : jobs.length = threads.length
  running : ∀ (k : ℕ) (j : Job), jobs[k]? = some (some j) → threads[k]? = some Worker.running

section Placed

variable {jobs : List (Option Job)} {threads : List Worker}

theorem Placed.eq_none (h : Placed jobs threads) {k : ℕ} {w : Worker} (hk : threads[k]? = some w)
    (hw : w ≠ .running) : jobs[k]? = some none := by
  have hlt : k < jobs.length := by
    rw [h.length]
    exact (List.getElem?_eq_some_iff.1 hk).1
  rw [List.getElem?_eq_getElem hlt]
  cases hj : jobs[k] with
  | none => rfl
  | some j =>
    have hrun := h.running k j (by rw [List.getElem?_eq_getElem hlt, hj])
    rw [hk] at hrun
    exact absurd (Option.some.inj hrun) hw

theorem Placed.append (h : Placed jobs threads) (n : ℕ) :
    Placed (jobs ++ List.replicate n none) (threads ++ List.replicate n .starting) := by
  refine ⟨by simp [h.length], fun k j hk => ?_⟩
  by_cases hlt : k < jobs.length
  · rw [List.getElem?_append_left hlt] at hk
    rw [List.getElem?_append_left (h.length ▸ hlt)]
    exact h.running k j hk
  · rw [List.getElem?_append_right (not_lt.1 hlt)] at hk
    have hnone := List.eq_of_mem_replicate (List.mem_of_getElem? hk)
    cases hnone

theorem Placed.eraseIdx (h : Placed jobs threads) (it : ℕ) :
    Placed (jobs.eraseIdx it) (threads.eraseIdx it) := by
  refine ⟨by rw [List.length_eraseIdx, List.length_eraseIdx, h.length], fun k j hk => ?_⟩
  rw [List.getElem?_eraseIdx] at hk ⊢
  split_ifs at hk ⊢
  · exact h.running k j hk
  · exact h.running (k + 1) j hk

theorem Placed.set_thread (h : Placed jobs threads) {k : ℕ} (hk : ∀ j, jobs[k]? ≠ some (some j))
    (w : Worker) : Placed jobs (threads.set k w) := by
  refine ⟨by rw [List.length_set, h.length], fun i j hi => ?_⟩
  have hne : k ≠ i := fun heq => hk j (heq ▸ hi)
  rw [List.getElem?_set_ne hne]
  exact h.running i j hi

theorem Placed.set_job (h : Placed jobs threads) {k : ℕ} (hk : threads[k]? = some .running)
    (x : Option Job) : Placed (jobs.set k x) threads := by
  refine ⟨by rw [List.length_set, h.length], fun i j hi => ?_⟩
  by_cases heq : k = i
  · rw [← heq, hk]
  · rw [List.getElem?_set_ne heq] at hi
    exact h.running i j hi

end Placed

/-- The manager makes threads at the end, when it does not collect them. -/
theorem threads_manage (conf : PoolConf) (t : ThreadPool pf.F RequestInfo)
    (hit : ∀ load it, t.manager ≠ .collecting load it)
    (hlast : ∀ it, t.manager ≠ .collectingLast it) :
    ∃ n, (t.manage pf conf).mThreads = t.mThreads ++ List.replicate n .starting := by
  have hnone : t.mThreads = t.mThreads ++ List.replicate 0 .starting := (List.append_nil _).symm
  have hnew : ∀ next, ∃ n,
      (t.newThread pf next).mThreads = t.mThreads ++ List.replicate n .starting := by
    intro next
    unfold ThreadPool.newThread
    split_ifs
    · exact ⟨1, rfl⟩
    · exact ⟨0, hnone⟩
  unfold ThreadPool.manage
  cases hm : t.manager with
  | created => exact ⟨0, hnone⟩
  | starting i =>
    dsimp only
    split_ifs
    · exact hnew _
    · exact ⟨0, hnone⟩
  | top =>
    dsimp only
    split_ifs
    · exact ⟨0, hnone⟩
    · exact ⟨0, hnone⟩
  | collecting load it => exact absurd hm (hit load it)
  | deciding load =>
    dsimp only
    unfold ThreadPool.adjustThreads
    split_ifs
    · exact hnew _
    · exact ⟨0, hnone⟩
    · exact ⟨0, hnone⟩
  | stats =>
    refine ⟨0, ?_⟩
    dsimp only
    unfold ThreadPool.reportStats
    dsimp only
    split_ifs
    · exact hnone
    · exact hnone
  | poisoning i =>
    dsimp only
    split_ifs
    · exact ⟨0, hnone⟩
    · exact ⟨0, hnone⟩
  | collectingLast it => exact absurd hm (hlast it)
  | finished => exact ⟨0, hnone⟩
  | crashed => exact ⟨0, hnone⟩

theorem threads_collectKilled (t : ThreadPool pf.F RequestInfo) (it : ℕ)
    (resume : ℕ → Manager pf.F) (next : Manager pf.F) :
    (t.collectKilled pf it resume next).mThreads =
      if t.mThreads[it]?.any Worker.joinable then t.mThreads.eraseIdx it else t.mThreads := by
  unfold ThreadPool.collectKilled
  cases t.mThreads[it]? with
  | none => rfl
  | some w => cases hw : w.joinable <;> simp [hw]

/-- What the manager does to the threads it does to what they have in hand. -/
theorem placed_manage (conf : PoolConf) (h : Placed s.jobs s.pool.mThreads) :
    Placed (s.jobsAfterManage pf conf) (s.pool.manage pf conf).mThreads ∧
      (s.jobsAfterManage pf conf).reduceOption.Perm s.jobs.reduceOption := by
  -- the manager looks at a thread, and collects it if it has returned
  have hcollect : ∀ (it : ℕ),
      let erase := s.pool.mThreads[it]?.any Worker.joinable
      Placed (if erase then s.jobs.eraseIdx it else s.jobs)
        (if erase then s.pool.mThreads.eraseIdx it else s.pool.mThreads) ∧
      (if erase then s.jobs.eraseIdx it else s.jobs).reduceOption.Perm s.jobs.reduceOption := by
    intro it erase
    cases hw : s.pool.mThreads[it]? with
    | none => simpa [erase, hw] using h
    | some w =>
      cases hjoin : w.joinable with
      | false => simpa [erase, hw, hjoin] using h
      | true =>
        have hne : w ≠ .running := by
          rintro rfl
          cases hjoin
        obtain ⟨rest, hperm, hrest, -⟩ := reduceOption_perm (h.eq_none hw hne)
        have herase : erase = true := by simp [erase, hw, hjoin]
        rw [if_pos herase, if_pos herase, hrest]
        exact ⟨h.eraseIdx it, hperm.symm⟩
  -- otherwise it may make threads
  have hmake : (∀ load it, s.pool.manager ≠ .collecting load it) →
      (∀ it, s.pool.manager ≠ .collectingLast it) →
      let more := (s.pool.manage pf conf).mThreads.length - s.jobs.length
      Placed (s.jobs ++ List.replicate more none) (s.pool.manage pf conf).mThreads ∧
        (s.jobs ++ List.replicate more none).reduceOption.Perm s.jobs.reduceOption := by
    intro hit hlast more
    obtain ⟨n, hn⟩ := threads_manage conf s.pool hit hlast
    have hmore : more = n := by
      simp only [more, hn, List.length_append, List.length_replicate, h.length]
      omega
    rw [hmore, hn, List.reduceOption_append, List.reduceOption_replicate_none, List.append_nil]
    exact ⟨h.append n, List.Perm.refl _⟩
  unfold jobsAfterManage
  cases hm : s.pool.manager with
  | collecting load it =>
    rw [ThreadPool.manage, hm, threads_collectKilled]
    exact hcollect it
  | collectingLast it =>
    rw [ThreadPool.manage, hm, threads_collectKilled]
    exact hcollect it
  | _ => exact hmake (by simp [hm]) (by simp [hm])

/-! ### What the events do -/

theorem queued_pushFront (q : MultiThreadQueue (Item RequestInfo)) :
    ((q.pushFront .poison).mQueue.filterMap Item.object).Sublist
      (q.mQueue.filterMap Item.object) := by
  have hcons : (Item.poison :: q.mQueue).filterMap Item.object =
      q.mQueue.filterMap Item.object := List.filterMap_cons_none rfl
  rw [MultiThreadQueue.pushFront_mQueue]
  split_ifs
  · rw [← hcons]
    exact (List.dropLast_sublist _).filterMap _
  · rw [hcons]

theorem queued_push (q : MultiThreadQueue (Item RequestInfo)) (r : RequestInfo) :
    ((q.push (.work r)).mQueue.filterMap Item.object).Sublist
      (q.mQueue.filterMap Item.object ++ [r]) := by
  have happend : (q.mQueue ++ [Item.work r]).filterMap Item.object =
      q.mQueue.filterMap Item.object ++ [r] := by
    rw [List.filterMap_append]
    rfl
  rw [MultiThreadQueue.push_mQueue, ← happend]
  split_ifs
  · exact (List.dropLast_sublist _).filterMap _
  · exact List.Sublist.refl _

/-- A step of the manager leaves the queue alone, sends a poison item, or resets the counters. -/
theorem mQueue_manage (conf : PoolConf) (t : ThreadPool pf.F RequestInfo) :
    (t.manage pf conf).mQueue = t.mQueue ∨
      (t.manage pf conf).mQueue = t.mQueue.pushFront .poison ∨
      (t.manage pf conf).mQueue = t.mQueue.getCounters.2 := by
  have hnew : ∀ next, (t.newThread pf next).mQueue = t.mQueue := by
    intro next
    unfold ThreadPool.newThread
    split_ifs <;> rfl
  have hcollect : ∀ it resume next, (t.collectKilled pf it resume next).mQueue = t.mQueue := by
    intro it resume next
    unfold ThreadPool.collectKilled
    split
    · rfl
    · split_ifs <;> rfl
  unfold ThreadPool.manage
  cases t.manager with
  | created => exact .inl rfl
  | starting i =>
    dsimp only
    split_ifs
    · exact .inl (hnew _)
    · exact .inl rfl
  | top =>
    dsimp only
    split_ifs
    · exact .inl rfl
    · exact .inl rfl
  | collecting load it => exact .inl (hcollect _ _ _)
  | deciding load =>
    dsimp only
    unfold ThreadPool.adjustThreads
    split_ifs
    · exact .inl (hnew _)
    · exact .inr (.inl rfl)
    · exact .inl rfl
  | stats =>
    dsimp only
    unfold ThreadPool.reportStats
    dsimp only
    split_ifs
    · exact .inr (.inr rfl)
    · exact .inl rfl
  | poisoning i =>
    dsimp only
    split_ifs
    · exact .inr (.inl rfl)
    · exact .inl rfl
  | collectingLast it => exact .inl (hcollect _ _ _)
  | finished => exact .inl rfl
  | crashed => exact .inl rfl

theorem queue_manage (conf : PoolConf) (t : ThreadPool pf.F RequestInfo) :
    (t.manage pf conf).mQueue.mRunning = t.mQueue.mRunning ∧
      ((t.manage pf conf).mQueue.mQueue.filterMap Item.object).Sublist
        (t.mQueue.mQueue.filterMap Item.object) := by
  rcases mQueue_manage conf t with hq | hq | hq
  · rw [hq]
    exact ⟨rfl, List.Sublist.refl _⟩
  · rw [hq]
    refine ⟨?_, queued_pushFront t.mQueue⟩
    unfold MultiThreadQueue.pushFront
    split_ifs <;> rfl
  · rw [hq]
    exact ⟨rfl, List.Sublist.refl _⟩

/-- An event after which every worker has in hand what it had. -/
theorem Change.of_pool {e : ServiceEvent} {pool : ThreadPool pf.F RequestInfo}
    {jobs : List (Option Job)} (hjobs : jobs.reduceOption.Perm s.jobs.reduceOption)
    (hqueued : (pool.mQueue.mQueue.filterMap Item.object).Sublist (s.queued ++ pushed e))
    (hrunning : pool.mQueue.mRunning = true → s.pool.mQueue.mRunning = true) :
    Change p s { s with pool := pool, jobs := jobs } e :=
  .quiet (hjobs.append_left s.finished) rfl hqueued hrunning rfl rfl

theorem change_pool (h : Placed s.jobs s.pool.mThreads) {e : PoolEvent RequestInfo}
    (hpop : ∀ k, e ≠ .pop k) (hmanage : e ≠ .manage) :
    Placed s.jobs (s.pool.step pf conf e).mThreads ∧
      Change p s { s with pool := s.pool.step pf conf e } (.pool e) := by
  have hsame : ∀ {pool : ThreadPool pf.F RequestInfo}, pool.mQueue.mQueue = s.pool.mQueue.mQueue →
      (pool.mQueue.mRunning = true → s.pool.mQueue.mRunning = true) →
      Change p s { s with pool := pool } (.pool e) := by
    intro pool hqueue hrunning
    refine .of_pool (List.Perm.refl _) ?_ hrunning
    rw [hqueue]
    exact List.sublist_append_left _ _
  have hother : ∀ {k : ℕ} {w : Worker}, s.pool.mThreads[k]? = some w → w ≠ .running →
      ∀ j, s.jobs[k]? ≠ some (some j) := by
    intro k w hk hw j hj
    rw [h.eq_none hk hw] at hj
    cases hj
  cases e with
  | pop k => exact absurd rfl (hpop k)
  | manage => exact absurd rfl hmanage
  | start =>
    simp only [ThreadPool.step, ThreadPool.start]
    split
    · exact ⟨h, hsame rfl id⟩
    · exact ⟨h, hsame rfl id⟩
  | stop => exact ⟨h, hsame rfl fun hstop => by cases hstop⟩
  | push r =>
    refine ⟨h, .of_pool (List.Perm.refl _) (queued_push _ _) ?_⟩
    simp only [ThreadPool.step, MultiThreadQueue.push]
    split_ifs <;> exact id
  | init k curl =>
    simp only [ThreadPool.step, ThreadPool.initWorker]
    split
    · rename_i hk
      exact ⟨h.set_thread (hother hk (by decide)) _, hsame rfl id⟩
    · exact ⟨h, hsame rfl id⟩
  | exit k =>
    simp only [ThreadPool.step, ThreadPool.exitWorker]
    split
    · rename_i hk
      exact ⟨h.set_thread (hother hk (by decide)) _, hsame rfl id⟩
    · exact ⟨h, hsame rfl id⟩

theorem change_take (h : Placed s.jobs s.pool.mThreads) {k : ℕ} (hbusy : s.isBusy pf k = false) :
    Placed (s.take pf p k).jobs (s.take pf p k).pool.mThreads ∧
      Change p s (s.take pf p k) (.pool (.pop k)) := by
  have hnone : ∀ j, s.jobs[k]? ≠ some (some j) := by
    intro j hj
    rw [isBusy, hj] at hbusy
    cases hbusy
  have hrunning : ∀ {x : Item RequestInfo} {q : MultiThreadQueue (Item RequestInfo)},
      s.pool.mQueue.pop = some (x, q) → q.mRunning = s.pool.mQueue.mRunning := by
    intro x q hpop
    unfold MultiThreadQueue.pop at hpop
    split at hpop
    · cases hpop
    · obtain ⟨-, rfl⟩ := Prod.mk.inj (Option.some.inj hpop)
      rfl
  unfold take
  split
  · -- it takes a request
    rename_i r q hk hpop
    obtain ⟨hq, -⟩ := MultiThreadQueue.pop_eq_some hpop
    have hpool : s.pool.popWorker pf k = { s.pool with mQueue := q } := by
      simp only [ThreadPool.popWorker, hk, hpop]
    have hplace : s.jobs[k]? = some none := by
      have hlt : k < s.jobs.length := by
        rw [h.length]
        exact (List.getElem?_eq_some_iff.1 hk).1
      cases hj : s.jobs[k]? with
      | none => exact absurd (List.getElem?_eq_none_iff.1 hj) (not_le.2 hlt)
      | some x =>
        cases x with
        | none => rfl
        | some j => exact absurd hj (hnone j)
    obtain ⟨rest, hold, -, hnew⟩ := reduceOption_perm hplace
    rw [hpool]
    refine ⟨h.set_job hk _, .took r ?_ rfl ?_ (hrunning hpop) rfl rfl⟩
    · have hjobs := (hnew (some (Job.start p r))).trans (hold.symm.cons (Job.start p r))
      exact (hjobs.append_left s.finished).trans List.perm_middle
    · simp only [queued, hq]
      rfl
  · rename_i hneg
    unfold ThreadPool.popWorker
    split
    · -- it takes a poison item
      rename_i q hk hpop
      obtain ⟨hq, -⟩ := MultiThreadQueue.pop_eq_some hpop
      refine ⟨h.set_thread hnone _, .of_pool (List.Perm.refl _) ?_ fun hrun => ?_⟩
      · rw [queued, hq]
        exact List.sublist_append_left _ _
      · rw [← hrunning hpop]
        exact hrun
    · rename_i r q hk hpop
      exact (hneg r q hk hpop).elim
    · exact ⟨h, .of_pool (List.Perm.refl _) (List.sublist_append_left _ _) id⟩

theorem change_work (h : Placed s.jobs s.pool.mThreads) (k : ℕ) (draw : Option ℕ)
    (perform : List Bytes × ℤ) :
    Placed (s.work pf k draw perform).jobs (s.work pf k draw perform).pool.mThreads ∧
      Change p s (s.work pf k draw perform) (.work k draw perform) := by
  have hcount : ∀ (a b : ℕ) (c : Bool), (a + if c then (b + 1) % 2 ^ 32 else b) % 2 ^ 32 =
      ((a + b) % 2 ^ 32 + if c then 1 else 0) % 2 ^ 32 := by
    intro a b c
    cases c with
    | false => simp
    | true =>
      simp only [if_true]
      omega
  unfold work
  split
  · rename_i j hj
    have hrun := h.running k j hj
    obtain ⟨rest, hold, -, hnew⟩ := reduceOption_perm hj
    by_cases hdone : j.isDone = true
    · -- `runOne` returns
      rw [if_pos hdone]
      refine ⟨h.set_job hrun _, .quiet ?_ rfl (List.sublist_append_left _ _) id rfl rfl⟩
      have hrest : (s.jobs.set k none).reduceOption.Perm rest := hnew none
      have hmove : (s.finished ++ [j] ++ rest).Perm (s.finished ++ s.active) := by
        rw [List.append_assoc]
        exact (hold.symm.append_left s.finished)
      exact (hrest.append_left (s.finished ++ [j])).trans hmove
    · rw [if_neg hdone]
      refine ⟨h.set_job hrun _, .worked j ⟨draw, s.pool.mQueue.mRunning, perform⟩
        (s.finished ++ rest) ?_ ?_ (Bool.eq_false_iff.2 hdone) rfl rfl rfl
        (hcount s.timeoutsReported s.mTimeoutCount j.timedOut)
        (hcount s.duplicatedReported s.mDuplicatedCount j.counts)⟩
      · exact (hold.append_left s.finished).trans List.perm_middle
      · exact ((hnew (some (j.step ⟨draw, s.pool.mQueue.mRunning, perform⟩))).append_left
          s.finished).trans List.perm_middle
  · exact ⟨h, .quiet (List.Perm.refl _) rfl (List.sublist_append_left _ _) id rfl rfl⟩

/-- **The events do nothing else.** -/
theorem change_step (conf : PoolConf) (h : Placed s.jobs s.pool.mThreads) (e : ServiceEvent) :
    Placed (s.step pf conf p e).jobs (s.step pf conf p e).pool.mThreads ∧
      Change p s (s.step pf conf p e) e := by
  have hread : ∀ {t : Service pf.F}, t.jobs = s.jobs → t.finished = s.finished →
      t.pool = s.pool → t.taken = s.taken → t.timeouts = s.timeouts →
      t.duplicated = s.duplicated →
      Placed t.jobs t.pool.mThreads ∧ Change p s t e := by
    intro t hjobs hfinished hpool htaken htimeouts hduplicated
    refine ⟨by rw [hjobs, hpool]; exact h, .quiet ?_ htaken ?_ ?_ htimeouts hduplicated⟩
    · rw [all, all, active, active, hjobs, hfinished]
    · rw [queued, hpool]
      exact List.sublist_append_left _ _
    · rw [hpool]
      exact id
  cases e with
  | pool e =>
    by_cases hmanage : e = .manage
    · subst hmanage
      obtain ⟨hplaced, hjobs⟩ := placed_manage conf h
      obtain ⟨hrunning, hqueued⟩ := queue_manage conf s.pool
      refine ⟨hplaced, .of_pool hjobs (hqueued.trans (List.sublist_append_left _ _)) ?_⟩
      rw [hrunning]
      exact id
    · by_cases hpop : ∃ k, e = .pop k
      · obtain ⟨k, rfl⟩ := hpop
        change Placed (if s.isBusy pf k then s else s.take pf p k).jobs
          (if s.isBusy pf k then s else s.take pf p k).pool.mThreads ∧
          Change p s (if s.isBusy pf k then s else s.take pf p k) _
        split_ifs with hbusy
        · exact hread rfl rfl rfl rfl rfl rfl
        · exact change_take h (Bool.eq_false_iff.2 hbusy)
      · have hsame : s.step pf conf p (.pool e) = { s with pool := s.pool.step pf conf e } := by
          cases e with
          | pop k => exact absurd ⟨k, rfl⟩ hpop
          | manage => exact absurd rfl hmanage
          | _ => rfl
        rw [hsame]
        exact change_pool h (fun k hk => hpop ⟨k, hk⟩) hmanage
  | work k draw perform => exact change_work h k draw perform
  | getTimeoutCount => exact hread rfl rfl rfl rfl rfl rfl
  | getDuplicatedCount => exact hread rfl rfl rfl rfl rfl rfl

/-! ### Runs -/

theorem placed_run (pf : Platform) (conf : PoolConf) (p : RequestProcessor)
    (es : List ServiceEvent) :
    Placed (run pf conf p es).jobs (run pf conf p es).pool.mThreads :=
  Runs.run_invariant (P := fun s : Service pf.F => Placed s.jobs s.pool.mThreads)
    (G := fun _ => True) (fun _ e h _ => (change_step conf h e).1)
    ⟨rfl, fun k j hk => by simp at hk⟩ fun _ _ => trivial

/-- **The rule for runs**: what holds at first and after every change holds in every run. -/
theorem run_changes {P : List ServiceEvent → Service pf.F → Prop} (hstart : P [] {})
    (hchange : ∀ es s t e, P es s → Change p s t e → P (es ++ [e]) t) (es : List ServiceEvent) :
    P es (run pf conf p es) := by
  have h : Placed (run pf conf p es).jobs (run pf conf p es).pool.mThreads ∧
      P es (run pf conf p es) := by
    refine Runs.run_history (P := fun es s => Placed s.jobs s.pool.mThreads ∧ P es s)
      ⟨placed_run pf conf p [], hstart⟩ ?_ es
    rintro es s e ⟨hplaced, hs⟩
    obtain ⟨hplaced', hs'⟩ := change_step (p := p) conf hplaced e
    exact ⟨hplaced', hchange es s _ e hs hs'⟩
  exact h.2

/-- The requests pushed in a run. -/
def pushes (es : List ServiceEvent) : List RequestInfo := es.flatMap pushed

theorem pushes_snoc (es : List ServiceEvent) (e : ServiceEvent) :
    pushes (es ++ [e]) = pushes es ++ pushed e := by
  rw [pushes, List.flatMap_append]
  simp [pushes]

/-! ### The pool -/

theorem pool_step (conf : PoolConf) (p : RequestProcessor) (s : Service pf.F) (e : ServiceEvent) :
    (s.step pf conf p e).pool = s.pool ∨
      ∃ e', (s.step pf conf p e).pool = s.pool.step pf conf e' := by
  cases e with
  | pool e =>
    cases e with
    | pop k =>
      simp only [step, poolStep, take]
      split_ifs
      · exact .inl rfl
      · split <;> exact .inr ⟨.pop k, rfl⟩
    | start => exact .inr ⟨.start, rfl⟩
    | stop => exact .inr ⟨.stop, rfl⟩
    | manage => exact .inr ⟨.manage, rfl⟩
    | push r => exact .inr ⟨.push r, rfl⟩
    | init k curl => exact .inr ⟨.init k curl, rfl⟩
    | exit k => exact .inr ⟨.exit k, rfl⟩
  | work k draw perform =>
    simp only [step, work]
    split
    · split_ifs <;> exact .inl rfl
    · exact .inl rfl
  | getTimeoutCount => exact .inl rfl
  | getDuplicatedCount => exact .inl rfl

/-- **The pool of a service is a pool**: what holds of the pool in every run holds here. -/
theorem exists_pool_run (pf : Platform) (conf : PoolConf) (p : RequestProcessor)
    (es : List ServiceEvent) : ∃ es' : List (PoolEvent RequestInfo),
      (run pf conf p es).pool = ThreadPool.run pf conf es' := by
  refine Runs.run_invariant (P := fun s : Service pf.F => ∃ es' : List (PoolEvent RequestInfo),
    s.pool = ThreadPool.run pf conf es') (G := fun _ => True) ?_ ⟨[], rfl⟩ fun _ _ => trivial
  rintro s e ⟨es', hpool⟩ -
  rcases pool_step conf p s e with hsame | ⟨e', hstep⟩
  · exact ⟨es', hsame.trans hpool⟩
  · refine ⟨es' ++ [e'], hstep.trans ?_⟩
    rw [hpool, ThreadPool.run, ThreadPool.run, Runs.run_snoc]

end Service

end ModDup
