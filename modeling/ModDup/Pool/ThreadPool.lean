import Mathlib.Algebra.Ring.Nat
import Mathlib.Data.List.Basic
import Mathlib.Data.List.Perm.Basic
import Mathlib.Tactic.SplitIfs
import ModDup.Pool.Queue

/-!
# The thread pool

A manager thread starts workers while the queue is long and sends them a poison item while it is
short (`src/ThreadPool.cc`).  The workers of `mod_dup` take requests from the queue until they
take a poison item, or end at once when there is no curl handle for them
(`RequestProcessor::run` in `src/RequestProcessor.cc`).

The manager runs beside the workers and beside those who push, so its loop is cut at every place
where the others can be seen to have run: the load is read, the threads that ended are collected
one by one, and the decision is taken on the load that was read.  `boost::thread` and the
arithmetic of `float` are given by a `Platform`.

## Main definitions

* `Worker`, `Manager`, `ThreadPool` : a thread of the pool, where the manager is, and the pool.
* `ThreadPool.manage` : the next step of `start` and `run`.
* `PoolEvent`, `ThreadPool.run` : any interleaving of the manager, the workers and the pushes.

## Main results

* `ThreadPool.outside_step` : what the others can do to the pool between two manager steps.
* `ThreadPool.countP_pushFront` : a poison item is only lost to a queue full of them.
-/

namespace ModDup

/-! ### The state of a pool -/

/-- What stands in the queue: the poison item, or something to do. -/
inductive Item (α : Type*) where
  | poison
  | work (object : α)

/-- `isPoison`. -/
def Item.isPoison {α : Type*} : Item α → Bool
  | .poison => true
  | .work _ => false

/-- A worker thread, as `RequestProcessor::run` goes. -/
inductive Worker where
  /-- It has no curl handle yet. -/
  | starting
  /-- It takes items from the queue. -/
  | running
  /-- It has taken a poison item. -/
  | poisoned
  /-- It has returned after that. -/
  | ended
  /-- It has returned because `initCurl` gave `NULL`. -/
  | failed
  deriving DecidableEq, Repr

/-- The thread has returned, so joining it succeeds. -/
def Worker.joinable : Worker → Bool
  | .ended => true
  | .failed => true
  | _ => false

/-- The worker has taken a poison item. -/
def Worker.isPoisoned : Worker → Bool
  | .poisoned => true
  | .ended => true
  | _ => false

/-- The worker is at work, with no poison item. -/
def Worker.isAlive : Worker → Bool
  | .starting => true
  | .running => true
  | _ => false

/-- The threads and the `float` of the platform. -/
structure Platform where
  /-- The number of threads beyond which `boost::thread` throws. -/
  threadLimit : ℕ
  /-- No system has as many threads as there are values of `unsigned`. -/
  threadLimit_lt : threadLimit < 2 ^ 32
  /-- `float`. -/
  F : Type
  ofSize : ℕ → F
  div : F → F → F
  lt : F → F → Bool

/-- Where the manager is: in `start`, in the loop of `run`, or in what follows the loop. -/
inductive Manager (F : Type) where
  | created
  /-- The loop of `start` that makes the first threads. -/
  | starting (i : ℕ)
  /-- Before the condition of the loop. -/
  | top
  /-- In `collectKilled`, after the load was read. -/
  | collecting (lQueuedPerThread : F) (it : ℕ)
  | deciding (lQueuedPerThread : F)
  | stats
  /-- The loop that poisons all threads. -/
  | poisoning (i : ℕ)
  | collectingLast (it : ℕ)
  | finished
  /-- A thread could not be made. -/
  | crashed

/-- The configuration of a pool, as `setThreads` and `setQueue` of `mod_dup` accept it. -/
structure PoolConf where
  mMinThreads : ℕ := 1
  mMaxThreads : ℕ := 10
  mMinQueued : ℕ := 1
  mMaxQueued : ℕ := 10
  mStatsInterval : ℕ := 10000000
  threads_le : mMinThreads ≤ mMaxThreads := by decide
  queued_le : mMinQueued ≤ mMaxQueued := by decide

/-- `mManageInterval`. -/
def manageInterval : ℕ := 100000

/-- `ThreadPool`. -/
structure ThreadPool (F : Type) (α : Type*) where
  mThreads : List Worker := []
  /-- `unsigned`. -/
  mBeingKilled : ℕ := 0
  mQueue : MultiThreadQueue (Item α) := {}
  mRunning : Bool := false
  manager : Manager F := .created
  iterationsSinceStats : ℕ := 0
  /-- How often a poison item was sent. -/
  sent : ℕ := 0
  /-- How many threads were collected. -/
  collected : ℕ := 0

namespace ThreadPool

variable {α : Type*} (pf : Platform) (conf : PoolConf)

/-! ### The manager -/

section Manage

variable (s : ThreadPool pf.F α)

/-- `newThread`; an exception of `boost::thread` ends the process. -/
def newThread (next : Manager pf.F) : ThreadPool pf.F α :=
  if s.mThreads.length < pf.threadLimit then
    { s with mThreads := s.mThreads ++ [.starting], manager := next }
  else { s with manager := .crashed }

/-- `poisonThread`. -/
def poisonThread (next : Manager pf.F) : ThreadPool pf.F α :=
  { s with
    mQueue := s.mQueue.pushFront .poison
    mBeingKilled := (s.mBeingKilled + 1) % 2 ^ 32
    sent := s.sent + 1
    manager := next }

/-- One turn of the loop of `collectKilled`. -/
def collectKilled (it : ℕ) (resume : ℕ → Manager pf.F) (next : Manager pf.F) :
    ThreadPool pf.F α :=
  match s.mThreads[it]? with
  | none => { s with manager := next }
  | some w =>
    if w.joinable then
      { s with
        mThreads := s.mThreads.eraseIdx it
        mBeingKilled := (s.mBeingKilled + (2 ^ 32 - 1)) % 2 ^ 32
        collected := s.collected + 1
        manager := resume it }
    else { s with manager := resume (it + 1) }

/-- `mThreads.size() - mBeingKilled`, in `size_t`. -/
def notBeingKilled : ℕ := (s.mThreads.length + (2 ^ 64 - s.mBeingKilled)) % 2 ^ 64

/-- The decision of an iteration of the manager. -/
def adjustThreads (lQueuedPerThread : pf.F) : ThreadPool pf.F α :=
  if pf.lt (pf.ofSize conf.mMaxQueued) lQueuedPerThread &&
      s.mThreads.length < conf.mMaxThreads then
    s.newThread pf .stats
  else if pf.lt lQueuedPerThread (pf.ofSize conf.mMinQueued) &&
      s.notBeingKilled pf > conf.mMinThreads then
    s.poisonThread pf .stats
  else { s with manager := .stats }

/-- The end of an iteration: the counters of the queue are reported, and reset, now and then. -/
def reportStats : ThreadPool pf.F α :=
  let n := (s.iterationsSinceStats + 1) % 2 ^ 32
  if n * manageInterval % 2 ^ 32 ≥ conf.mStatsInterval then
    { s with mQueue := s.mQueue.getCounters.2, iterationsSinceStats := 0, manager := .top }
  else { s with iterationsSinceStats := n, manager := .top }

/-- The next step of `start` and then of `run`. -/
def manage : ThreadPool pf.F α :=
  match s.manager with
  | .created => s
  | .starting i =>
    if i < conf.mMinThreads then s.newThread pf (.starting ((i + 1) % 2 ^ 32))
    else { s with manager := .top }
  | .top =>
    let lQueuedPerThread := pf.div (pf.ofSize s.mQueue.size) (pf.ofSize s.mThreads.length)
    if s.mRunning then { s with manager := .collecting lQueuedPerThread 0 }
    else { s with manager := .poisoning 0 }
  | .collecting load it => s.collectKilled pf it (.collecting load) (.deciding load)
  | .deciding load => s.adjustThreads pf conf load
  | .stats => s.reportStats pf conf
  | .poisoning i =>
    if i < s.mThreads.length then s.poisonThread pf (.poisoning ((i + 1) % 2 ^ 32))
    else { s with manager := .collectingLast 0 }
  | .collectingLast it => s.collectKilled pf it .collectingLast .finished
  | .finished => s
  | .crashed => s

end Manage

/-! ### The others -/

/-- Give worker `k` a new state. -/
def setWorker (s : ThreadPool pf.F α) (k : ℕ) (w : Worker) : ThreadPool pf.F α :=
  { s with mThreads := s.mThreads.set k w }

/-- Worker `k` calls `initCurl`. -/
def initWorker (s : ThreadPool pf.F α) (k : ℕ) (curl : Bool) : ThreadPool pf.F α :=
  match s.mThreads[k]? with
  | some .starting => s.setWorker pf k (if curl then .running else .failed)
  | _ => s

/-- Worker `k` takes an item from the queue; what it then does with a request is not seen by
the pool. -/
def popWorker (s : ThreadPool pf.F α) (k : ℕ) : ThreadPool pf.F α :=
  match s.mThreads[k]?, s.mQueue.pop with
  | some .running, some (.poison, q) => { s with mQueue := q }.setWorker pf k .poisoned
  | some .running, some (.work _, q) => { s with mQueue := q }
  | _, _ => s

/-- Worker `k` returns after its poison item. -/
def exitWorker (s : ThreadPool pf.F α) (k : ℕ) : ThreadPool pf.F α :=
  match s.mThreads[k]? with
  | some .poisoned => s.setWorker pf k .ended
  | _ => s

/-- `start`, up to its loop. -/
def start (s : ThreadPool pf.F α) : ThreadPool pf.F α :=
  match s.manager with
  | .created =>
    { s with
      mRunning := true
      mQueue := s.mQueue.setDropSize (conf.mMaxQueued * conf.mMaxThreads % 2 ^ 64)
      manager := .starting 0 }
  | _ => s

/-- `stop`, up to where it waits for the manager. -/
def stop (s : ThreadPool pf.F α) : ThreadPool pf.F α :=
  { s with mRunning := false, mQueue := s.mQueue.stop }

end ThreadPool

/-- What can happen to a pool. -/
inductive PoolEvent (α : Type*) where
  | start
  | stop
  | manage
  | push (object : α)
  | init (k : ℕ) (curl : Bool)
  | pop (k : ℕ)
  | exit (k : ℕ)

/-- A worker ends because `initCurl` returned `NULL`. -/
def PoolEvent.curlFails {α : Type*} : PoolEvent α → Bool
  | .init _ curl => !curl
  | _ => false

namespace ThreadPool

variable {α : Type*} (pf : Platform) (conf : PoolConf)

/-- One event. -/
def step (s : ThreadPool pf.F α) : PoolEvent α → ThreadPool pf.F α
  | .start => s.start pf conf
  | .stop => s.stop pf
  | .manage => s.manage pf conf
  | .push object => { s with mQueue := s.mQueue.push (.work object) }
  | .init k curl => s.initWorker pf k curl
  | .pop k => s.popWorker pf k
  | .exit k => s.exitWorker pf k

/-- A new pool, after a sequence of events. -/
def run (es : List (PoolEvent α)) : ThreadPool pf.F α := Runs.run (step pf conf) {} es

/-! ### Counting -/

section Count

variable {pf}

/-- The poison items in the queue. -/
def pills (s : ThreadPool pf.F α) : ℕ := s.mQueue.mQueue.countP Item.isPoison

/-- The workers that have taken a poison item and are not collected yet. -/
def poisoned (s : ThreadPool pf.F α) : ℕ := s.mThreads.countP Worker.isPoisoned

/-- The workers that have not taken one. -/
def unpoisoned (s : ThreadPool pf.F α) : ℕ := s.mThreads.countP fun w => !w.isPoisoned

/-- The workers that ended without one. -/
def failures (s : ThreadPool pf.F α) : ℕ := s.mThreads.count .failed

/-- The workers that have not taken one and have not ended. -/
def alive (s : ThreadPool pf.F α) : ℕ := s.mThreads.countP Worker.isAlive

theorem length_mThreads (s : ThreadPool pf.F α) :
    s.mThreads.length = s.poisoned + s.unpoisoned := by
  rw [poisoned, unpoisoned, List.length_eq_countP_add_countP Worker.isPoisoned]
  simp

theorem unpoisoned_eq (s : ThreadPool pf.F α) : s.unpoisoned = s.alive + s.failures := by
  unfold unpoisoned alive failures
  induction s.mThreads with
  | nil => rfl
  | cons w ws ih =>
    rw [List.countP_cons, List.countP_cons, List.count_cons, ih]
    cases w <;> simp [Worker.isPoisoned, Worker.isAlive] <;> omega

theorem countP_set (p : Worker → Bool) {l : List Worker} {k : ℕ} {w : Worker}
    (hk : l[k]? = some w) (w' : Worker) :
    (l.set k w').countP p + (if p w then 1 else 0) = l.countP p + (if p w' then 1 else 0) := by
  obtain ⟨hlt, rfl⟩ := List.getElem?_eq_some_iff.1 hk
  rw [List.countP_set hlt]
  have hpos : p l[k] = true → 0 < l.countP p := fun hp =>
    List.countP_pos_iff.2 ⟨l[k], List.getElem_mem hlt, hp⟩
  by_cases hp : p l[k] = true
  · have := hpos hp
    simp only [hp, if_true]
    omega
  · simp [hp]

theorem countP_eraseIdx (p : Worker → Bool) {l : List Worker} {k : ℕ} {w : Worker}
    (hk : l[k]? = some w) :
    (l.eraseIdx k).countP p + (if p w then 1 else 0) = l.countP p := by
  obtain ⟨hlt, rfl⟩ := List.getElem?_eq_some_iff.1 hk
  rw [← (List.getElem_cons_eraseIdx_perm hlt).countP_eq p, List.countP_cons]

/-- No poison item stands behind something to do. -/
def PillsFirst (l : List (Item α)) : Prop :=
  l.Pairwise fun a b => b.isPoison = true → a.isPoison = true

/-- A queue that ends with a poison item has nothing else. -/
theorem PillsFirst.countP_eq_length {l : List (Item α)} (h : PillsFirst l) {x : Item α}
    (hx : l.getLast? = some x) (hpoison : x.isPoison = true) :
    l.countP Item.isPoison = l.length := by
  rw [List.countP_eq_length]
  intro a ha
  obtain ⟨init, rfl⟩ := List.getLast?_eq_some_iff.1 hx
  rcases List.mem_append.1 ha with ha | ha
  · exact (List.pairwise_append.1 h).2.2 a ha x (List.mem_singleton_self x) hpoison
  · rwa [List.mem_singleton.1 ha]

/-- **A poison item is only lost to a queue full of them.** -/
theorem countP_pushFront {q : MultiThreadQueue (Item α)} (h : PillsFirst q.mQueue) :
    (q.pushFront .poison).mQueue.countP Item.isPoison = q.mQueue.countP Item.isPoison + 1 ∨
      ((q.pushFront .poison).mQueue.countP Item.isPoison = q.mQueue.countP Item.isPoison ∧
        0 < q.mDropSize ∧ q.mDropSize ≤ q.mQueue.countP Item.isPoison) := by
  unfold MultiThreadQueue.pushFront
  split_ifs with hfull
  · have hne := MultiThreadQueue.ne_nil_of_full hfull
    simp only [MultiThreadQueue.full, Bool.and_eq_true, decide_eq_true_eq] at hfull
    obtain ⟨init, x, hq⟩ := (List.eq_nil_or_concat q.mQueue).resolve_left hne
    rw [List.concat_eq_append] at hq
    have hsplit : q.mQueue.countP Item.isPoison =
        init.countP Item.isPoison + [x].countP Item.isPoison := by
      rw [hq, List.countP_append]
    have hnew : (Item.poison :: q.mQueue.dropLast).countP Item.isPoison =
        init.countP Item.isPoison + 1 := by
      rw [hq, List.dropLast_concat, List.countP_cons]
      rfl
    cases hx : x.isPoison with
    | false =>
      left
      have hnone : [x].countP Item.isPoison = 0 := by simp [hx]
      rw [hnew, hsplit, hnone]
    | true =>
      -- the last element is a poison item, so all of them are
      right
      have hone : [x].countP Item.isPoison = 1 := by simp [hx]
      have hall := h.countP_eq_length (x := x) (by rw [hq, List.getLast?_concat]) hx
      refine ⟨?_, hfull.1, ?_⟩
      · rw [hnew, hsplit, hone]
      · rw [hall]
        exact hfull.2
  · left
    rw [List.countP_cons]
    rfl

theorem pillsFirst_pushFront {q : MultiThreadQueue (Item α)} (h : PillsFirst q.mQueue) :
    PillsFirst (q.pushFront .poison).mQueue := by
  have hcons : PillsFirst (.poison :: q.mQueue) := List.pairwise_cons.2 ⟨fun _ _ _ => rfl, h⟩
  rw [MultiThreadQueue.pushFront_mQueue]
  split_ifs
  · exact hcons.sublist (List.dropLast_sublist _)
  · exact hcons

end Count

/-! ### What the others do -/

section Outside

variable {pf conf}

/-- What the workers, those who push and those who stop the pool can do to it: a number of
workers take a poison item each, and nothing else is seen by the manager. -/
structure Outside (s s' : ThreadPool pf.F α) : Prop where
  manager : s'.manager = s.manager
  killed : s'.mBeingKilled = s.mBeingKilled
  sent : s'.sent = s.sent
  collected : s'.collected = s.collected
  dropSize : s'.mQueue.mDropSize = s.mQueue.mDropSize
  length : s'.mThreads.length = s.mThreads.length
  running : s'.mRunning = true → s.mRunning = true
  first : PillsFirst s.mQueue.mQueue → PillsFirst s'.mQueue.mQueue
  taken : ∃ d, s.pills = s'.pills + d ∧ s.unpoisoned = s'.unpoisoned + d ∧
    s'.poisoned = s.poisoned + d

theorem Outside.refl (s : ThreadPool pf.F α) : Outside s s :=
  ⟨rfl, rfl, rfl, rfl, rfl, rfl, id, id, 0, rfl, rfl, rfl⟩

theorem outside_setWorker (s : ThreadPool pf.F α) {k : ℕ} {w w' : Worker}
    (hk : s.mThreads[k]? = some w) (hw : w'.isPoisoned = w.isPoisoned) :
    Outside s (s.setWorker pf k w') := by
  have hpois := countP_set Worker.isPoisoned hk w'
  have hunpois := countP_set (fun w => !w.isPoisoned) hk w'
  rw [hw] at hpois hunpois
  refine ⟨rfl, rfl, rfl, rfl, rfl, by simp [setWorker], id, id, 0, rfl, ?_, ?_⟩
  · simp only [unpoisoned, setWorker]
    omega
  · simp only [poisoned, setWorker]
    omega

theorem outside_push (s : ThreadPool pf.F α) (object : α) :
    Outside s { s with mQueue := s.mQueue.push (.work object) } := by
  have hdrop : (s.mQueue.push (.work object)).mDropSize = s.mQueue.mDropSize := by
    unfold MultiThreadQueue.push
    split_ifs <;> rfl
  have hpills : (s.mQueue.push (.work object)).mQueue.countP Item.isPoison =
      s.mQueue.mQueue.countP Item.isPoison := by
    rw [MultiThreadQueue.push_mQueue]
    split_ifs <;> simp [Item.isPoison]
  refine ⟨rfl, rfl, rfl, rfl, hdrop, rfl, id, fun h => ?_, 0, hpills.symm, rfl, rfl⟩
  have happend : PillsFirst (s.mQueue.mQueue ++ [.work object]) := by
    refine List.pairwise_append.2 ⟨h, List.pairwise_singleton _ _, fun a _ b hb hpoison => ?_⟩
    rw [List.mem_singleton.1 hb] at hpoison
    cases hpoison
  rw [MultiThreadQueue.push_mQueue]
  split_ifs
  · exact happend.sublist (List.dropLast_sublist _)
  · exact happend

theorem outside_popWorker (s : ThreadPool pf.F α) (k : ℕ) : Outside s (s.popWorker pf k) := by
  unfold popWorker
  split
  · rename_i q hk hpop
    obtain ⟨hq, hdrop⟩ := MultiThreadQueue.pop_eq_some hpop
    have hpois := countP_set Worker.isPoisoned hk .poisoned
    have hunpois := countP_set (fun w => !w.isPoisoned) hk .poisoned
    refine ⟨rfl, rfl, rfl, rfl, hdrop, by simp [setWorker], id, fun h => ?_, 1, ?_, ?_, ?_⟩
    · rw [hq] at h
      exact (List.pairwise_cons.1 h).2
    · simp only [pills, setWorker, hq, List.countP_cons]
      rfl
    · exact hunpois.symm
    · exact hpois
  · rename_i object q hk hpop
    obtain ⟨hq, hdrop⟩ := MultiThreadQueue.pop_eq_some hpop
    refine ⟨rfl, rfl, rfl, rfl, hdrop, rfl, id, fun h => ?_, 0, ?_, rfl, rfl⟩
    · rw [hq] at h
      exact (List.pairwise_cons.1 h).2
    · simp [pills, hq, Item.isPoison]
  · exact Outside.refl s

/-- **What can happen between two steps of the manager.** -/
theorem outside_step (s : ThreadPool pf.F α) {e : PoolEvent α} (hstart : e ≠ .start)
    (hmanage : e ≠ .manage) : Outside s (s.step pf conf e) := by
  cases e with
  | start => exact absurd rfl hstart
  | manage => exact absurd rfl hmanage
  | stop =>
    exact ⟨rfl, rfl, rfl, rfl, rfl, rfl, fun h => (Bool.false_ne_true h).elim, id, 0, rfl, rfl, rfl⟩
  | push object => exact outside_push s object
  | init k curl =>
    simp only [step, initWorker]
    split
    · rename_i hk
      refine outside_setWorker s hk ?_
      cases curl <;> rfl
    · exact Outside.refl s
  | pop k => exact outside_popWorker s k
  | exit k =>
    simp only [step, exitWorker]
    split
    · rename_i hk
      exact outside_setWorker s hk rfl
    · exact Outside.refl s

/-- A worker ends without a poison item only when it gets no curl handle. -/
theorem failures_step (s : ThreadPool pf.F α) {e : PoolEvent α} (hmanage : e ≠ .manage)
    (hcurl : e.curlFails = false) : (s.step pf conf e).failures = s.failures := by
  have hset : ∀ {s : ThreadPool pf.F α} {k : ℕ} {w w' : Worker}, s.mThreads[k]? = some w →
      w ≠ .failed → w' ≠ .failed → (s.setWorker pf k w').failures = s.failures := by
    intro s k w w' hk hw hw'
    have hcount := countP_set (· == Worker.failed) hk w'
    simpa [hw, hw', failures, setWorker, List.count] using hcount
  cases e with
  | manage => exact absurd rfl hmanage
  | start =>
    simp only [step, start]
    split <;> rfl
  | stop => rfl
  | push object => rfl
  | init k curl =>
    simp only [step, initWorker]
    split
    · rename_i hk
      have htrue : curl = true := by simpa [PoolEvent.curlFails] using hcurl
      exact hset hk (by decide) (by simp [htrue])
    · rfl
  | pop k =>
    simp only [step, popWorker]
    split
    · rename_i q hk hpop
      exact hset (s := { s with mQueue := q }) hk (by decide) (by decide)
    · rfl
    · rfl
  | exit k =>
    simp only [step, exitWorker]
    split
    · rename_i hk
      exact hset hk (by decide) (by decide)
    · rfl

end Outside

end ThreadPool

end ModDup
