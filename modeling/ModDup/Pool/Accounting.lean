import ModDup.Pool.ThreadPool

/-!
# The accounts of the manager

The manager counts the threads it has sent a poison item to and that it has not collected yet
(`mBeingKilled` in `src/ThreadPool.hh`).  The count is right as long as a thread only ends after
a poison item.  A worker that ends because it has no curl handle is collected like the others.

## Main definitions

* `Phase`, `ThreadPool.ManageStep` : all a step of the manager can do.
* `ThreadPool.PoolInv`, `ThreadPool.Accounts` : the invariants.

## Main results

* `ThreadPool.manageStep_manage` : the manager does nothing else.
* `ThreadPool.poolInv_run`, `ThreadPool.accounts_run`, `ThreadPool.exact_run` : the invariants hold
  in every run.
* `pool_accounting` : the counter against the queue and the threads.
* `kill_counter_sound` : when the counter does not wrap.
-/

namespace ModDup

/-! ### The steps of the manager -/

/-- What the pool is doing. -/
inductive Phase where
  | created
  | starting (i : ℕ)
  /-- In the loop of `run`. -/
  | looping
  | poisoning (i : ℕ)
  /-- After all threads were poisoned. -/
  | closing
  | crashed
  deriving DecidableEq, Repr

/-- The part of the code the manager is in. -/
def Manager.phase {F : Type} : Manager F → Phase
  | .created => .created
  | .starting i => .starting i
  | .top => .looping
  | .collecting _ _ => .looping
  | .deciding _ => .looping
  | .stats => .looping
  | .poisoning i => .poisoning i
  | .collectingLast _ => .closing
  | .finished => .closing
  | .crashed => .crashed

/-- The pool has not begun to poison all threads. -/
def Phase.isOpen : Phase → Bool
  | .poisoning _ => false
  | .closing => false
  | _ => true

namespace ThreadPool

variable {α : Type*} {pf : Platform} {conf : PoolConf} {s : ThreadPool pf.F α}

/-- Where the pool is. -/
def phase (s : ThreadPool pf.F α) : Phase := s.manager.phase

/-- The two states differ in where the manager is, and in the statistics. -/
structure Same (s s' : ThreadPool pf.F α) : Prop where
  threads : s'.mThreads = s.mThreads
  killed : s'.mBeingKilled = s.mBeingKilled
  queue : s'.mQueue.mQueue = s.mQueue.mQueue
  dropSize : s'.mQueue.mDropSize = s.mQueue.mDropSize
  running : s'.mRunning = s.mRunning
  sent : s'.sent = s.sent
  collected : s'.collected = s.collected

/-- The passages from one phase to another that nothing else comes with. -/
def Passage (conf : PoolConf) (s : ThreadPool pf.F α) (p : Phase) : Prop :=
  p = s.phase ∨ (∃ i, s.phase = .starting i ∧ conf.mMinThreads ≤ i ∧ p = .looping) ∨
    (s.phase = .looping ∧ s.mRunning = false ∧ p = .poisoning 0) ∨
    (∃ i, s.phase = .poisoning i ∧ s.mThreads.length ≤ i ∧ p = .closing) ∨
    (((∃ i, s.phase = .starting i) ∨ s.phase = .looping) ∧ p = .crashed)

/-- **All a step of the manager can do**: pass on, make a thread, send a poison item or collect a
thread that has returned. -/
inductive ManageStep (conf : PoolConf) (s : ThreadPool pf.F α) : ThreadPool pf.F α → Prop where
  | passed {t : ThreadPool pf.F α} (same : Same s t) (passage : Passage conf s t.phase) :
      ManageStep conf s t
  | made {next : Manager pf.F} (room : s.mThreads.length < pf.threadLimit)
      (why : (∃ i, s.phase = .starting i ∧ i < conf.mMinThreads ∧
          next.phase = .starting ((i + 1) % 2 ^ 32)) ∨
        (s.phase = .looping ∧ next.phase = .looping ∧ s.mThreads.length < conf.mMaxThreads)) :
      ManageStep conf s { s with mThreads := s.mThreads ++ [.starting], manager := next }
  | sent {next : Manager pf.F}
      (why : (s.phase = .looping ∧ next.phase = .looping ∧
          conf.mMinThreads < s.notBeingKilled pf) ∨
        (∃ i, s.phase = .poisoning i ∧ i < s.mThreads.length ∧
          next.phase = .poisoning ((i + 1) % 2 ^ 32))) :
      ManageStep conf s (s.poisonThread pf next)
  | joined {k : ℕ} {w : Worker} {next : Manager pf.F} (hk : s.mThreads[k]? = some w)
      (hw : w.joinable = true) (kept : next.phase = s.phase)
      (place : s.phase = .looping ∨ s.phase = .closing) :
      ManageStep conf s { s with
        mThreads := s.mThreads.eraseIdx k
        mBeingKilled := (s.mBeingKilled + (2 ^ 32 - 1)) % 2 ^ 32
        collected := s.collected + 1
        manager := next }

theorem manageStep_newThread {next : Manager pf.F}
    (why : (∃ i, s.phase = .starting i ∧ i < conf.mMinThreads ∧
        next.phase = .starting ((i + 1) % 2 ^ 32)) ∨
      (s.phase = .looping ∧ next.phase = .looping ∧ s.mThreads.length < conf.mMaxThreads)) :
    ManageStep conf s (s.newThread pf next) := by
  unfold newThread
  split_ifs with hroom
  · exact .made hroom why
  · have hphase : (∃ i, s.phase = .starting i) ∨ s.phase = .looping := by
      rcases why with ⟨i, hphase, -⟩ | ⟨hphase, -⟩
      · exact .inl ⟨i, hphase⟩
      · exact .inr hphase
    exact .passed ⟨rfl, rfl, rfl, rfl, rfl, rfl, rfl⟩ (.inr (.inr (.inr (.inr ⟨hphase, rfl⟩))))

theorem manageStep_collectKilled {it : ℕ} {resume : ℕ → Manager pf.F} {next : Manager pf.F}
    (hresume : ∀ it, (resume it).phase = s.phase) (hnext : next.phase = s.phase)
    (hphase : s.phase = .looping ∨ s.phase = .closing) :
    ManageStep conf s (s.collectKilled pf it resume next) := by
  unfold collectKilled
  split
  · exact .passed ⟨rfl, rfl, rfl, rfl, rfl, rfl, rfl⟩ (.inl hnext)
  · rename_i w hw
    split_ifs with hjoin
    · exact .joined hw hjoin (hresume it) hphase
    · exact .passed ⟨rfl, rfl, rfl, rfl, rfl, rfl, rfl⟩ (.inl (hresume (it + 1)))

/-- **The manager does nothing else.** -/
theorem manageStep_manage (s : ThreadPool pf.F α) : ManageStep conf s (s.manage pf conf) := by
  have hstay : ManageStep conf s s := .passed ⟨rfl, rfl, rfl, rfl, rfl, rfl, rfl⟩ (.inl rfl)
  unfold manage
  cases hm : s.manager with
  | created => exact hstay
  | finished => exact hstay
  | crashed => exact hstay
  | starting i =>
    have hphase : s.phase = .starting i := by rw [phase, hm, Manager.phase]
    dsimp only
    split_ifs with hi
    · exact manageStep_newThread (.inl ⟨i, hphase, hi, rfl⟩)
    · exact .passed ⟨rfl, rfl, rfl, rfl, rfl, rfl, rfl⟩ (.inr (.inl ⟨i, hphase, not_lt.1 hi, rfl⟩))
  | top =>
    have hphase : s.phase = .looping := by rw [phase, hm, Manager.phase]
    dsimp only
    split_ifs with hrun
    · exact .passed ⟨rfl, rfl, rfl, rfl, rfl, rfl, rfl⟩ (.inl hphase.symm)
    · exact .passed ⟨rfl, rfl, rfl, rfl, rfl, rfl, rfl⟩
        (.inr (.inr (.inl ⟨hphase, Bool.eq_false_iff.2 hrun, rfl⟩)))
  | collecting load it =>
    have hphase : s.phase = .looping := by rw [phase, hm, Manager.phase]
    exact manageStep_collectKilled (fun _ => hphase.symm) hphase.symm (.inl hphase)
  | deciding load =>
    have hphase : s.phase = .looping := by rw [phase, hm, Manager.phase]
    dsimp only
    unfold adjustThreads
    split_ifs with hhigh hlow
    · rw [Bool.and_eq_true, decide_eq_true_eq] at hhigh
      exact manageStep_newThread (.inr ⟨hphase, rfl, hhigh.2⟩)
    · rw [Bool.and_eq_true, decide_eq_true_eq] at hlow
      exact .sent (.inl ⟨hphase, rfl, hlow.2⟩)
    · exact .passed ⟨rfl, rfl, rfl, rfl, rfl, rfl, rfl⟩ (.inl hphase.symm)
  | stats =>
    have hphase : s.phase = .looping := by rw [phase, hm, Manager.phase]
    dsimp only
    unfold reportStats
    dsimp only
    split_ifs
    · exact .passed ⟨rfl, rfl, rfl, rfl, rfl, rfl, rfl⟩ (.inl hphase.symm)
    · exact .passed ⟨rfl, rfl, rfl, rfl, rfl, rfl, rfl⟩ (.inl hphase.symm)
  | poisoning i =>
    have hphase : s.phase = .poisoning i := by rw [phase, hm, Manager.phase]
    dsimp only
    split_ifs with hi
    · exact .sent (.inr ⟨i, hphase, hi, rfl⟩)
    · exact .passed ⟨rfl, rfl, rfl, rfl, rfl, rfl, rfl⟩
        (.inr (.inr (.inr (.inl ⟨i, hphase, not_lt.1 hi, rfl⟩))))
  | collectingLast it =>
    have hphase : s.phase = .closing := by rw [phase, hm, Manager.phase]
    exact manageStep_collectKilled (fun _ => hphase.symm) hphase.symm (.inr hphase)

/-- **All an event can do to a pool**, whoever makes it. -/
theorem step_cases (conf : PoolConf) (s : ThreadPool pf.F α) (e : PoolEvent α) :
    (e = .manage ∧ ManageStep conf s (s.step pf conf e)) ∨
      (e = .start ∧ s.phase = .created ∧ s.step pf conf e = { s with
        mRunning := true
        mQueue := s.mQueue.setDropSize (conf.mMaxQueued * conf.mMaxThreads % 2 ^ 64)
        manager := .starting 0 }) ∨
      (e = .start ∧ s.step pf conf e = s) ∨
      (e ≠ .start ∧ e ≠ .manage ∧ Outside s (s.step pf conf e)) := by
  by_cases hmanage : e = .manage
  · subst hmanage
    exact .inl ⟨rfl, manageStep_manage s⟩
  · by_cases hstart : e = .start
    · subst hstart
      cases hm : s.manager with
      | created =>
        have hphase : s.phase = .created := by rw [phase, hm, Manager.phase]
        exact .inr (.inl ⟨rfl, hphase, by simp only [step, start, hm]⟩)
      | _ => exact .inr (.inr (.inl ⟨rfl, by simp only [step, start, hm]⟩))
    · exact .inr (.inr (.inr ⟨hstart, hmanage, outside_step s hstart hmanage⟩))

/-! ### What every pool satisfies -/

/-- What the phase says about the state. -/
def PhaseOk (s : ThreadPool pf.F α) : Phase → Prop
  | .created => s.mThreads = [] ∧ s.mRunning = false
  | .starting i => s.mThreads.length = i
  | .poisoning _ => s.mRunning = false
  | .closing => s.mRunning = false
  | _ => True

/-- The invariant of all runs. -/
structure PoolInv (conf : PoolConf) (s : ThreadPool pf.F α) : Prop where
  first : PillsFirst s.mQueue.mQueue
  fits : s.mThreads.length ≤ conf.mMaxThreads
  limited : s.mThreads.length ≤ pf.threadLimit
  dropSize : s.phase ≠ .created →
    s.mQueue.mDropSize = conf.mMaxQueued * conf.mMaxThreads % 2 ^ 64
  phaseOk : PhaseOk s s.phase

theorem PoolInv.length_lt (h : PoolInv conf s) : s.mThreads.length < 2 ^ 32 :=
  lt_of_le_of_lt h.limited pf.threadLimit_lt

theorem Outside.phase {s s' : ThreadPool pf.F α} (h : Outside s s') : s'.phase = s.phase := by
  rw [ThreadPool.phase, h.manager, ThreadPool.phase]

theorem PoolInv.outside {s' : ThreadPool pf.F α} (h : PoolInv conf s) (ho : Outside s s') :
    PoolInv conf s' := by
  refine ⟨ho.first h.first, by rw [ho.length]; exact h.fits, by rw [ho.length]; exact h.limited,
    fun hp => ?_, ?_⟩
  · rw [ho.dropSize]
    exact h.dropSize (by rwa [← ho.phase])
  · have hok := h.phaseOk
    rw [ho.phase]
    have hstopped : s.mRunning = false → s'.mRunning = false := by
      intro hs
      rw [Bool.eq_false_iff]
      intro hs'
      rw [ho.running hs'] at hs
      cases hs
    cases hp : s.phase with
    | created =>
      rw [hp] at hok
      obtain ⟨hnil, hstop⟩ : s.mThreads = [] ∧ s.mRunning = false := hok
      exact ⟨List.length_eq_zero_iff.1 (by rw [ho.length, hnil, List.length_nil]), hstopped hstop⟩
    | starting i =>
      rw [hp] at hok
      exact ho.length.trans hok
    | looping => trivial
    | poisoning i =>
      rw [hp] at hok
      exact hstopped hok
    | closing =>
      rw [hp] at hok
      exact hstopped hok
    | crashed => trivial

/-- Passing on keeps the threads and the queue, so only the phase is new. -/
theorem PoolInv.passed {s' : ThreadPool pf.F α} (h : PoolInv conf s) (same : Same s s')
    (passage : Passage conf s s'.phase) : PoolInv conf s' := by
  have hok := h.phaseOk
  have hlen : s'.mThreads.length = s.mThreads.length := by rw [same.threads]
  refine ⟨by rw [same.queue]; exact h.first, by rw [hlen]; exact h.fits,
    by rw [hlen]; exact h.limited, fun hp => ?_, ?_⟩
  · rw [same.dropSize]
    refine h.dropSize fun hcreated => ?_
    rcases passage with hp' | ⟨i, hp', -⟩ | ⟨hp', -⟩ | ⟨i, hp', -⟩ | ⟨⟨i, hp'⟩ | hp', -⟩
    · exact hp (hp'.trans hcreated)
    · simp [hcreated] at hp'
    · simp [hcreated] at hp'
    · simp [hcreated] at hp'
    · simp [hcreated] at hp'
    · simp [hcreated] at hp'
  · rcases passage with hp | ⟨i, -, -, hp⟩ | ⟨-, hstop, hp⟩ | ⟨i, hp', -, hp⟩ | ⟨-, hp⟩
    · rw [hp]
      cases hphase : s.phase with
      | created =>
        rw [hphase] at hok
        exact ⟨same.threads.trans hok.1, same.running.trans hok.2⟩
      | starting i => rw [hphase] at hok; exact hlen.trans hok
      | looping => trivial
      | poisoning i => rw [hphase] at hok; exact same.running.trans hok
      | closing => rw [hphase] at hok; exact same.running.trans hok
      | crashed => trivial
    · rw [hp]; trivial
    · rw [hp]; exact same.running.trans hstop
    · rw [hp]
      rw [hp'] at hok
      exact same.running.trans hok
    · rw [hp]; trivial

theorem PoolInv.manageStep {s' : ThreadPool pf.F α} (h : PoolInv conf s)
    (hs : ManageStep conf s s') : PoolInv conf s' := by
  have hok := h.phaseOk
  cases hs with
  | passed same passage => exact h.passed same passage
  | @made next room why =>
    have hlen := h.length_lt
    have hmin := conf.threads_le
    have hlimit := pf.threadLimit_lt
    rcases why with ⟨i, hphase, hi, hnext⟩ | ⟨hphase, hnext, hmax⟩
    · -- in `start` there are as many threads as turns of the loop, so the index does not wrap
      rw [hphase] at hok
      have hi' : s.mThreads.length = i := hok
      refine ⟨h.first, ?_, ?_, fun _ => h.dropSize (by simp [hphase]), ?_⟩
      · simp only [List.length_append, List.length_singleton]
        omega
      · simp only [List.length_append, List.length_singleton]
        omega
      · change PhaseOk _ next.phase
        rw [hnext, Nat.mod_eq_of_lt (by omega)]
        simp [PhaseOk, hi']
    · refine ⟨h.first, ?_, ?_, fun _ => h.dropSize (by simp [hphase]), ?_⟩
      · simp only [List.length_append, List.length_singleton]
        omega
      · simp only [List.length_append, List.length_singleton]
        omega
      · change PhaseOk _ next.phase
        rw [hnext]
        trivial
  | @sent next why =>
    have hdrop : (s.mQueue.pushFront .poison).mDropSize = s.mQueue.mDropSize := by
      unfold MultiThreadQueue.pushFront
      split_ifs <;> rfl
    refine ⟨pillsFirst_pushFront h.first, h.fits, h.limited, fun _ => ?_, ?_⟩
    · change (s.mQueue.pushFront .poison).mDropSize = _
      rw [hdrop]
      exact h.dropSize (by rcases why with ⟨hp, -⟩ | ⟨i, hp, -⟩ <;> simp [hp])
    · change PhaseOk _ next.phase
      rcases why with ⟨-, hnext, -⟩ | ⟨i, hp, -, hnext⟩
      · rw [hnext]; trivial
      · rw [hp] at hok
        rw [hnext]
        exact hok
  | @joined k w next hk hw kept place =>
    have hlen : (s.mThreads.eraseIdx k).length ≤ s.mThreads.length := List.length_eraseIdx_le _ _
    refine ⟨h.first, hlen.trans h.fits, hlen.trans h.limited, fun _ => ?_, ?_⟩
    · exact h.dropSize (by rcases place with hp | hp <;> simp [hp])
    · change PhaseOk _ next.phase
      rw [kept]
      rcases place with hp | hp
      · rw [hp]; trivial
      · rw [hp] at hok ⊢
        exact hok

theorem poolInv_step (h : PoolInv conf s) (e : PoolEvent α) : PoolInv conf (s.step pf conf e) := by
  obtain ⟨-, hs⟩ | ⟨-, hphase, hs⟩ | ⟨-, hs⟩ | ⟨-, -, hs⟩ := step_cases conf s e
  · exact h.manageStep hs
  · have hok := h.phaseOk
    rw [hphase] at hok
    rw [hs]
    exact ⟨h.first, h.fits, h.limited, fun _ => rfl, List.length_eq_zero_iff.2 hok.1⟩
  · rw [hs]
    exact h
  · exact h.outside hs

/-- **The invariant of all runs.** -/
theorem poolInv_run (pf : Platform) (conf : PoolConf) (es : List (PoolEvent α)) :
    PoolInv conf (run pf conf es) := by
  refine Runs.run_invariant (P := PoolInv conf) (G := fun _ => True)
    (fun s e hs _ => poolInv_step hs e) ?_ fun _ _ => trivial
  exact ⟨List.Pairwise.nil, Nat.zero_le _, Nat.zero_le _, fun h => absurd rfl h, rfl, rfl⟩

/-! ### The accounts -/

/-- The invariant of the runs in which no worker ends without a poison item. -/
structure Accounts (conf : PoolConf) (s : ThreadPool pf.F α) : Prop where
  failures : s.failures = 0
  /-- Who is being killed has a poison item, or one is in the queue. -/
  killed : s.phase.isOpen = true → s.pills + s.poisoned ≤ s.mBeingKilled
  balance : s.phase.isOpen = true → s.mBeingKilled + s.collected = s.sent
  fresh : (s.phase = .created ∨ ∃ i, s.phase = .starting i) → s.mBeingKilled = 0
  enough : s.phase = .looping → conf.mMinThreads + s.mBeingKilled ≤ s.mThreads.length

theorem Accounts.outside {s' : ThreadPool pf.F α} (h : Accounts conf s) (ho : Outside s s')
    (hfail : s'.failures = s.failures) : Accounts conf s' := by
  obtain ⟨d, hpills, -, hpois⟩ := ho.taken
  refine ⟨hfail.trans h.failures, fun hp => ?_, fun hp => ?_, fun hp => ?_, fun hp => ?_⟩
  · rw [ho.phase] at hp
    have := h.killed hp
    rw [ho.killed]
    omega
  · rw [ho.phase] at hp
    rw [ho.killed, ho.collected, ho.sent]
    exact h.balance hp
  · rw [ho.phase] at hp
    rw [ho.killed]
    exact h.fresh hp
  · rw [ho.phase] at hp
    rw [ho.killed, ho.length]
    exact h.enough hp

theorem Passage.isOpen {p : Phase} (h : Passage conf s p) (hp : p.isOpen = true) :
    s.phase.isOpen = true := by
  rcases h with rfl | ⟨i, hs, -⟩ | ⟨hs, -⟩ | ⟨i, -, -, rfl⟩ | ⟨⟨i, hs⟩ | hs, -⟩
  · exact hp
  · rw [hs]; rfl
  · rw [hs]; rfl
  · cases hp
  · rw [hs]; rfl
  · rw [hs]; rfl

theorem Accounts.passed {s' : ThreadPool pf.F α} (hinv : PoolInv conf s) (h : Accounts conf s)
    (same : Same s s') (passage : Passage conf s s'.phase) : Accounts conf s' := by
  have hpills : s'.pills = s.pills := by rw [pills, same.queue, pills]
  have hpois : s'.poisoned = s.poisoned := by rw [poisoned, same.threads, poisoned]
  refine ⟨by rw [ThreadPool.failures, same.threads]; exact h.failures, fun hp => ?_, fun hp => ?_,
    fun hp => ?_, fun hp => ?_⟩
  · rw [hpills, hpois, same.killed]
    exact h.killed (passage.isOpen hp)
  · rw [same.killed, same.collected, same.sent]
    exact h.balance (passage.isOpen hp)
  · rw [same.killed]
    refine h.fresh ?_
    rcases passage with hp' | ⟨i, -, -, hp'⟩ | ⟨-, -, hp'⟩ | ⟨i, -, -, hp'⟩ | ⟨-, hp'⟩
    · rwa [← hp']
    · simp [hp'] at hp
    · simp [hp'] at hp
    · simp [hp'] at hp
    · simp [hp'] at hp
  · rw [same.killed, same.threads]
    rcases passage with hp' | ⟨i, hs, hmin, -⟩ | ⟨-, -, hp'⟩ | ⟨i, -, -, hp'⟩ | ⟨-, hp'⟩
    · exact h.enough (hp'.symm.trans hp)
    · -- the loop of `start` is over
      have hlen : s.mThreads.length = i := by simpa [hs, PhaseOk] using hinv.phaseOk
      rw [h.fresh (.inr ⟨i, hs⟩), hlen]
      exact hmin
    · simp [hp'] at hp
    · simp [hp'] at hp
    · simp [hp'] at hp

theorem Accounts.notBeingKilled_eq (hinv : PoolInv conf s) (h : Accounts conf s)
    (hp : s.phase = .looping) :
    s.notBeingKilled pf = s.mThreads.length - s.mBeingKilled := by
  have henough := h.enough hp
  have hlen := hinv.length_lt
  unfold notBeingKilled
  omega

/-- A poison item is only sent when a thread more than needed is not being killed; the counter
does not wrap. -/
theorem Accounts.killed_poisonThread (hinv : PoolInv conf s) (h : Accounts conf s)
    (hp : s.phase = .looping) (hmin : conf.mMinThreads < s.notBeingKilled pf)
    (next : Manager pf.F) :
    conf.mMinThreads + s.mBeingKilled < s.mThreads.length ∧
      (s.poisonThread pf next).mBeingKilled = s.mBeingKilled + 1 := by
  have henough := h.enough hp
  have hlen := hinv.length_lt
  rw [h.notBeingKilled_eq hinv hp] at hmin
  exact ⟨by omega, Nat.mod_eq_of_lt (by omega)⟩

theorem Accounts.killed_joined (hinv : PoolInv conf s) (h : Accounts conf s)
    (hp : s.phase = .looping) {k : ℕ} (hk : s.mThreads[k]? = some .ended) :
    (s.mThreads.eraseIdx k).countP Worker.isPoisoned + 1 = s.poisoned ∧
      (s.mBeingKilled + (2 ^ 32 - 1)) % 2 ^ 32 + 1 = s.mBeingKilled := by
  have hpois := countP_eraseIdx Worker.isPoisoned hk
  simp only [Worker.isPoisoned, if_true] at hpois
  have hpoisoned : s.mThreads.countP Worker.isPoisoned = s.poisoned := rfl
  have hle := h.killed (by rw [hp]; rfl)
  have henough := h.enough hp
  have hlen := hinv.length_lt
  omega

theorem poisonThread_pills_le (s : ThreadPool pf.F α) (hfirst : PillsFirst s.mQueue.mQueue)
    (next : Manager pf.F) : (s.poisonThread pf next).pills ≤ s.pills + 1 := by
  have hcases := countP_pushFront hfirst
  simp only [pills, poisonThread]
  omega

/-- A thread that was joined had taken a poison item. -/
theorem Accounts.ended_of_joinable (h : Accounts conf s) {k : ℕ} {w : Worker}
    (hk : s.mThreads[k]? = some w) (hw : w.joinable = true) : w = .ended := by
  have hmem : w ∈ s.mThreads := List.mem_of_getElem? hk
  have hnot : .failed ∉ s.mThreads := List.count_eq_zero.1 h.failures
  cases w with
  | ended => rfl
  | failed => exact absurd hmem hnot
  | starting => cases hw
  | running => cases hw
  | poisoned => cases hw

theorem Accounts.manageStep {s' : ThreadPool pf.F α} (hinv : PoolInv conf s) (h : Accounts conf s)
    (hs : ManageStep conf s s') : Accounts conf s' := by
  cases hs with
  | passed same passage => exact h.passed hinv same passage
  | @made next room why =>
    have hopen : s.phase.isOpen = true := by
      rcases why with ⟨i, hp, -⟩ | ⟨hp, -⟩ <;> simp [hp, Phase.isOpen]
    have hpois : (s.mThreads ++ [Worker.starting]).countP Worker.isPoisoned = s.poisoned := by
      simp [poisoned, Worker.isPoisoned]
    refine ⟨?_, fun _ => ?_, fun _ => h.balance hopen, fun hp => ?_, fun hp => ?_⟩
    · have := h.failures
      simpa [ThreadPool.failures] using this
    · have := h.killed hopen
      simp only [poisoned, hpois]
      exact this
    · rcases why with ⟨i, hp', -⟩ | ⟨-, hnext, -⟩
      · exact h.fresh (.inr ⟨i, hp'⟩)
      · simp [ThreadPool.phase, hnext] at hp
    · simp only [List.length_append, List.length_singleton]
      rcases why with ⟨i, -, -, hnext⟩ | ⟨hp', -⟩
      · simp [ThreadPool.phase, hnext] at hp
      · have := h.enough hp'
        omega
  | @sent next why =>
    rcases why with ⟨hp, hnext, hmin⟩ | ⟨i, -, -, hnext⟩
    · have hopen : s.phase.isOpen = true := by rw [hp]; rfl
      obtain ⟨hless, hkilled⟩ := h.killed_poisonThread hinv hp hmin next
      have hbalance := h.balance hopen
      have hle := h.killed hopen
      have hpills := poisonThread_pills_le s hinv.first next
      refine ⟨h.failures, fun _ => ?_, fun _ => ?_, fun hq => ?_, fun _ => ?_⟩
      · rw [hkilled]
        change (s.poisonThread pf next).pills + s.poisoned ≤ _
        omega
      · rw [hkilled]
        change s.mBeingKilled + 1 + s.collected = s.sent + 1
        omega
      · simp [ThreadPool.phase, poisonThread, hnext] at hq
      · rw [hkilled]
        change _ ≤ s.mThreads.length
        omega
    · have hclosed : (s.poisonThread pf next).phase = .poisoning ((i + 1) % 2 ^ 32) := hnext
      refine ⟨h.failures, fun hq => ?_, fun hq => ?_, fun hq => ?_, fun hq => ?_⟩
      · simp [hclosed, Phase.isOpen] at hq
      · simp [hclosed, Phase.isOpen] at hq
      · simp [hclosed] at hq
      · simp [hclosed] at hq
  | @joined k w next hk hw kept place =>
    obtain rfl := h.ended_of_joinable hk hw
    have hfail : (s.mThreads.eraseIdx k).count .failed = 0 := by
      have hcount := countP_eraseIdx (· == Worker.failed) hk
      have := h.failures
      simp only [ThreadPool.failures, List.count] at this ⊢
      omega
    rcases place with hp | hp
    · have hopen : s.phase.isOpen = true := by rw [hp]; rfl
      obtain ⟨hpois, hkilled⟩ := h.killed_joined hinv hp hk
      have hle := h.killed hopen
      have hbalance := h.balance hopen
      have henough := h.enough hp
      have herase : (s.mThreads.eraseIdx k).length = s.mThreads.length - 1 :=
        List.length_eraseIdx_of_lt (List.getElem?_eq_some_iff.1 hk).1
      refine ⟨hfail, fun _ => ?_, fun _ => ?_, fun hq => ?_, fun _ => ?_⟩
      · change s.pills + (s.mThreads.eraseIdx k).countP Worker.isPoisoned ≤
          (s.mBeingKilled + (2 ^ 32 - 1)) % 2 ^ 32
        omega
      · change (s.mBeingKilled + (2 ^ 32 - 1)) % 2 ^ 32 + (s.collected + 1) = s.sent
        omega
      · simp [ThreadPool.phase, kept.trans hp] at hq
      · change conf.mMinThreads + (s.mBeingKilled + (2 ^ 32 - 1)) % 2 ^ 32 ≤
          (s.mThreads.eraseIdx k).length
        omega
    · refine ⟨hfail, fun hq => ?_, fun hq => ?_, fun hq => ?_, fun hq => ?_⟩
      · simp [ThreadPool.phase, kept.trans hp, Phase.isOpen] at hq
      · simp [ThreadPool.phase, kept.trans hp, Phase.isOpen] at hq
      · simp [ThreadPool.phase, kept.trans hp] at hq
      · simp [ThreadPool.phase, kept.trans hp] at hq

theorem accounts_step (hinv : PoolInv conf s) (h : Accounts conf s) {e : PoolEvent α}
    (hcurl : e.curlFails = false) : Accounts conf (s.step pf conf e) := by
  obtain ⟨-, hs⟩ | ⟨-, hphase, hs⟩ | ⟨-, hs⟩ | ⟨-, hmanage, hs⟩ := step_cases conf s e
  · exact h.manageStep hinv hs
  · have hopen : s.phase.isOpen = true := by rw [hphase]; rfl
    rw [hs]
    refine ⟨h.failures, fun _ => h.killed hopen, fun _ => h.balance hopen,
      fun _ => h.fresh (.inl hphase), fun hp => ?_⟩
    simp [phase, Manager.phase] at hp
  · rw [hs]
    exact h
  · exact h.outside hs (failures_step s hmanage hcurl)

/-- **The accounts are right in every run in which all workers get a curl handle.** -/
theorem accounts_run (pf : Platform) (conf : PoolConf) {es : List (PoolEvent α)}
    (hes : ∀ e ∈ es, e.curlFails = false) : Accounts conf (run pf conf es) := by
  suffices h : PoolInv conf (run pf conf es) ∧ Accounts conf (run pf conf es) from h.2
  refine Runs.run_invariant (P := fun s => PoolInv conf s ∧ Accounts conf s)
    (fun s e hs he => ⟨poolInv_step hs.1 e, accounts_step hs.1 hs.2 he⟩) ?_ hes
  refine ⟨poolInv_run pf conf [], rfl, fun _ => Nat.zero_le _, fun _ => rfl, fun _ => rfl, ?_⟩
  intro hp
  simp [phase, Manager.phase] at hp

/-! ### No poison item is evicted -/

/-- A bounded queue has room for one poison item for each thread. -/
theorem PoolInv.length_le_dropSize (h : PoolInv conf s)
    (hdrop : conf.mMaxQueued * conf.mMaxThreads < 2 ^ 64) (hp : s.phase ≠ .created)
    (hpos : 0 < s.mQueue.mDropSize) : s.mThreads.length ≤ s.mQueue.mDropSize := by
  have heq := h.dropSize hp
  rw [Nat.mod_eq_of_lt hdrop] at heq
  rw [heq] at hpos ⊢
  have hqueued : 0 < conf.mMaxQueued := Nat.pos_of_mul_pos_right hpos
  calc s.mThreads.length ≤ conf.mMaxThreads := h.fits
    _ ≤ conf.mMaxQueued * conf.mMaxThreads := Nat.le_mul_of_pos_left _ hqueued

/-- Who is being killed has a poison item, or one is in the queue, and nobody else has. -/
def Exact (s : ThreadPool pf.F α) : Prop :=
  s.phase.isOpen = true → s.mBeingKilled = s.pills + s.poisoned

theorem Exact.outside {s' : ThreadPool pf.F α} (h : Exact s) (ho : Outside s s') : Exact s' := by
  intro hp
  obtain ⟨d, hpills, -, hpois⟩ := ho.taken
  rw [ho.phase] at hp
  have := h hp
  rw [ho.killed]
  omega

theorem Exact.manageStep {s' : ThreadPool pf.F α}
    (hdrop : conf.mMaxQueued * conf.mMaxThreads < 2 ^ 64) (hinv : PoolInv conf s)
    (hacc : Accounts conf s) (h : Exact s) (hs : ManageStep conf s s') : Exact s' := by
  intro hopen
  cases hs with
  | passed same passage =>
    rw [same.killed, pills, same.queue, poisoned, same.threads]
    exact h (passage.isOpen hopen)
  | @made next room why =>
    have hs : s.phase.isOpen = true := by
      rcases why with ⟨i, hp, -⟩ | ⟨hp, -⟩ <;> simp [hp, Phase.isOpen]
    have hnew : (s.mThreads ++ [Worker.starting]).countP Worker.isPoisoned = s.poisoned := by
      simp [poisoned, Worker.isPoisoned]
    simp only [poisoned, hnew]
    exact h hs
  | @sent next why =>
    rcases why with ⟨hp, hnext, hmin⟩ | ⟨i, -, -, hnext⟩
    · have hs : s.mBeingKilled = s.pills + s.poisoned := h (by rw [hp]; rfl)
      obtain ⟨hless, hkilled⟩ := hacc.killed_poisonThread hinv hp hmin next
      have hpills : (s.poisonThread pf next).pills = s.pills + 1 := by
        rcases countP_pushFront hinv.first with hmore | ⟨-, hpos, hfull⟩
        · exact hmore
        · -- there are fewer poison items than threads
          have hroom := hinv.length_le_dropSize hdrop (by simp [hp]) hpos
          have hpills : s.mQueue.mQueue.countP Item.isPoison = s.pills := rfl
          omega
      rw [hkilled, hpills]
      change _ = s.pills + 1 + s.poisoned
      omega
    · have hclosed : (s.poisonThread pf next).phase = .poisoning ((i + 1) % 2 ^ 32) := hnext
      simp [hclosed, Phase.isOpen] at hopen
  | @joined k w next hk hw kept place =>
    obtain rfl := hacc.ended_of_joinable hk hw
    have hphase : next.phase.isOpen = true := hopen
    rcases place with hp | hp
    · have hs : s.mBeingKilled = s.pills + s.poisoned := h (by rw [hp]; rfl)
      obtain ⟨hpois, hkilled⟩ := hacc.killed_joined hinv hp hk
      change (s.mBeingKilled + (2 ^ 32 - 1)) % 2 ^ 32 =
        s.pills + (s.mThreads.eraseIdx k).countP Worker.isPoisoned
      omega
    · simp [kept.trans hp, Phase.isOpen] at hphase

theorem exact_step (hdrop : conf.mMaxQueued * conf.mMaxThreads < 2 ^ 64) (hinv : PoolInv conf s)
    (hacc : Accounts conf s) (h : Exact s) (e : PoolEvent α) : Exact (s.step pf conf e) := by
  obtain ⟨-, hs⟩ | ⟨-, hphase, hs⟩ | ⟨-, hs⟩ | ⟨-, -, hs⟩ := step_cases conf s e
  · exact h.manageStep hdrop hinv hacc hs
  · rw [hs]
    intro _
    exact h (by rw [hphase]; rfl)
  · rw [hs]
    exact h
  · exact h.outside hs

/-- **No poison item is evicted before `stop`.** -/
theorem exact_run (pf : Platform) {conf : PoolConf}
    (hdrop : conf.mMaxQueued * conf.mMaxThreads < 2 ^ 64) {es : List (PoolEvent α)}
    (hes : ∀ e ∈ es, e.curlFails = false) : Exact (run pf conf es) := by
  suffices h : PoolInv conf (run pf conf es) ∧ Accounts conf (run pf conf es) ∧
      Exact (run pf conf es) from h.2.2
  refine Runs.run_invariant
    (P := fun s => PoolInv conf s ∧ Accounts conf s ∧ Exact s) ?_ ?_ hes
  · rintro s e ⟨hinv, hacc, hs⟩ he
    exact ⟨poolInv_step hinv e, accounts_step hinv hacc he, exact_step hdrop hinv hacc hs e⟩
  · have hnew : Accounts conf (run pf conf ([] : List (PoolEvent α))) :=
      accounts_run pf conf (List.forall_mem_nil _)
    exact ⟨poolInv_run pf conf [], hnew, fun _ => rfl⟩

/-! ### Before `stop` -/

/-- The pool was started and goes on. -/
def Started (s : ThreadPool pf.F α) : Prop :=
  (s.phase ≠ .created → s.mRunning = true) ∧ s.phase.isOpen = true

theorem Started.manageStep {s' : ThreadPool pf.F α} (h : Started s) (hs : ManageStep conf s s') :
    Started s' := by
  obtain ⟨hrun, hopen⟩ := h
  cases hs with
  | passed same passage =>
    rcases passage with hp | ⟨i, hs, -, hp⟩ | ⟨hs, hstop, -⟩ | ⟨i, hs, -⟩ | ⟨hs, hp⟩
    · rw [Started, hp, same.running]
      exact ⟨hrun, hopen⟩
    · rw [Started, hp, same.running]
      exact ⟨fun _ => hrun (by simp [hs]), rfl⟩
    · -- the loop only ends when the pool does not run
      rw [hrun (by simp [hs])] at hstop
      cases hstop
    · rw [hs] at hopen
      cases hopen
    · rw [Started, hp, same.running]
      refine ⟨fun _ => hrun ?_, rfl⟩
      rcases hs with ⟨i, hs⟩ | hs <;> simp [hs]
  | @made next room why =>
    change (next.phase ≠ .created → s.mRunning = true) ∧ next.phase.isOpen = true
    rcases why with ⟨i, hs, -, hnext⟩ | ⟨hs, hnext, -⟩
    · rw [hnext]
      exact ⟨fun _ => hrun (by simp [hs]), rfl⟩
    · rw [hnext]
      exact ⟨fun _ => hrun (by simp [hs]), rfl⟩
  | @sent next why =>
    change (next.phase ≠ .created → s.mRunning = true) ∧ next.phase.isOpen = true
    rcases why with ⟨hs, hnext, -⟩ | ⟨i, hs, -⟩
    · rw [hnext]
      exact ⟨fun _ => hrun (by simp [hs]), rfl⟩
    · rw [hs] at hopen
      cases hopen
  | @joined k w next hk hw kept place =>
    change (next.phase ≠ .created → s.mRunning = true) ∧ next.phase.isOpen = true
    rw [kept]
    exact ⟨hrun, hopen⟩

/-- Only `start` and `stop` write `mRunning`. -/
theorem mRunning_step (s : ThreadPool pf.F α) {e : PoolEvent α} (hstart : e ≠ .start)
    (hmanage : e ≠ .manage) (hstop : e ≠ .stop) : (s.step pf conf e).mRunning = s.mRunning := by
  cases e with
  | start => exact absurd rfl hstart
  | stop => exact absurd rfl hstop
  | manage => exact absurd rfl hmanage
  | push object => rfl
  | init k curl =>
    simp only [step, initWorker]
    split <;> rfl
  | pop k =>
    simp only [step, popWorker]
    split <;> rfl
  | exit k =>
    simp only [step, exitWorker]
    split <;> rfl

theorem started_step (h : Started s) {e : PoolEvent α} (hstop : e ≠ .stop) :
    Started (s.step pf conf e) := by
  obtain ⟨-, hs⟩ | ⟨-, -, hs⟩ | ⟨-, hs⟩ | ⟨hstart, hmanage, hs⟩ := step_cases conf s e
  · exact h.manageStep hs
  · rw [hs]
    exact ⟨fun _ => rfl, rfl⟩
  · rw [hs]
    exact h
  · rw [Started, hs.phase, mRunning_step s hstart hmanage hstop]
    exact h

theorem started_run (pf : Platform) (conf : PoolConf) {es : List (PoolEvent α)}
    (hes : .stop ∉ es) : Started (run pf conf es) := by
  refine Runs.run_invariant (P := Started) (G := fun e => e ≠ .stop)
    (fun s e hs he => started_step hs he) ⟨fun h => absurd rfl h, rfl⟩ ?_
  intro e he heq
  exact hes (heq ▸ he)

/-- What is expected of the kill counter: it says how many poison items were sent to threads that
are not collected yet, and the manager only sends one when enough workers are left without. -/
def KillsSound (conf : PoolConf) (s : ThreadPool pf.F α) : Prop :=
  s.mBeingKilled + s.collected = s.sent ∧
    ((s.manage pf conf).sent ≠ s.sent → conf.mMinThreads + s.pills < s.alive)

theorem Accounts.alive_of_sent {s' : ThreadPool pf.F α} (hinv : PoolInv conf s)
    (h : Accounts conf s) (hopen : s.phase.isOpen = true) (hs : ManageStep conf s s')
    (hsent : s'.sent ≠ s.sent) : conf.mMinThreads + s.pills < s.alive := by
  cases hs with
  | passed same passage => exact absurd same.sent hsent
  | made room why => exact absurd rfl hsent
  | joined hk hw kept place => exact absurd rfl hsent
  | sent why =>
    rcases why with ⟨hp, -, hmin⟩ | ⟨i, hp, -⟩
    · rw [h.notBeingKilled_eq hinv hp] at hmin
      have hkilled := h.killed hopen
      have hlen := length_mThreads s
      have halive := unpoisoned_eq s
      have hfail := h.failures
      omega
    · rw [hp] at hopen
      cases hopen

end ThreadPool

/-! ### The kill counter -/

/-- **Between `start` and `stop` the kill counter is the number of poison items in the queue and
of workers that have taken one.**  No poison item is evicted or taken twice, and with the threads
that are not being killed there are always enough threads and never too many. -/
theorem pool_accounting {α : Type*} (pf : Platform) {conf : PoolConf}
    (hdrop : conf.mMaxQueued * conf.mMaxThreads < 2 ^ 64) {es : List (PoolEvent α)}
    (hes : ∀ e ∈ es, e.curlFails = false) (hrun : (ThreadPool.run pf conf es).mRunning = true)
    (hlives : (ThreadPool.run pf conf es).phase ≠ .crashed) :
    let s := ThreadPool.run pf conf es
    s.mBeingKilled = s.pills + s.poisoned ∧ s.sent = s.pills + s.poisoned + s.collected ∧
      s.mBeingKilled ≤ s.mThreads.length ∧ s.mThreads.length ≤ conf.mMaxThreads ∧
      ((∀ i, s.phase ≠ .starting i) → conf.mMinThreads ≤ s.mThreads.length - s.mBeingKilled) := by
  intro s
  have hinv : s.PoolInv conf := ThreadPool.poolInv_run pf conf es
  have hacc : s.Accounts conf := ThreadPool.accounts_run pf conf hes
  have hok := hinv.phaseOk
  have hopen : s.phase = .looping ∨ ∃ i, s.phase = .starting i := by
    cases hp : s.phase with
    | created =>
      rw [hp] at hok
      exact absurd (hrun.symm.trans hok.2) (by decide)
    | starting i => exact .inr ⟨i, rfl⟩
    | looping => exact .inl rfl
    | poisoning i =>
      rw [hp] at hok
      exact absurd (hrun.symm.trans hok) (by decide)
    | closing =>
      rw [hp] at hok
      exact absurd (hrun.symm.trans hok) (by decide)
    | crashed => exact absurd hp hlives
  have hisOpen : s.phase.isOpen = true := by
    rcases hopen with hp | ⟨i, hp⟩ <;> rw [hp] <;> rfl
  have hexact : s.mBeingKilled = s.pills + s.poisoned :=
    ThreadPool.exact_run pf hdrop hes hisOpen
  have hbalance := hacc.balance hisOpen
  refine ⟨hexact, by omega, ?_, hinv.fits, fun hstarted => ?_⟩
  · rcases hopen with hp | hp
    · have := hacc.enough hp
      omega
    · rw [hacc.fresh (.inr hp)]
      exact Nat.zero_le _
  · rcases hopen with hp | ⟨i, hp⟩
    · have := hacc.enough hp
      omega
    · exact absurd hp (hstarted i)

/-- A platform that keeps the loads as fractions. -/
def fractions : Platform where
  threadLimit := 1000
  threadLimit_lt := by decide
  F := ℕ × ℕ
  ofSize n := (n, 1)
  div x y := (x.1 * y.2, x.2 * y.1)
  lt x y := x.1 * y.2 < y.1 * x.2

/-- At most two threads, with one request each. -/
def twoThreads : PoolConf where
  mMaxThreads := 2
  mMaxQueued := 1

/-- A second thread is made for two requests; when they are done, a thread is poisoned. -/
def oneTooMany : List (PoolEvent ℕ) :=
  [.start, .manage, .manage, .push 7, .push 8] ++ List.replicate 5 .manage ++
    [.init 0 true, .pop 0, .pop 0] ++ List.replicate 5 .manage ++ [.pop 0]

theorem pool_accounting_oneTooMany :
    let s := ThreadPool.run fractions twoThreads oneTooMany
    s.poisoned = 1 ∧ s.mThreads.length = 2 ∧ s.mBeingKilled = s.pills + s.poisoned ∧
      twoThreads.mMinThreads ≤ s.mThreads.length - s.mBeingKilled := by
  have hphase : (ThreadPool.run fractions twoThreads oneTooMany).phase = .looping := by decide
  have hstarted (i : ℕ) :
      (ThreadPool.run fractions twoThreads oneTooMany).phase ≠ .starting i := by
    rw [hphase]
    exact Phase.noConfusion
  have h := @pool_accounting ℕ fractions twoThreads (by decide) oneTooMany
    (by simp [oneTooMany, PoolEvent.curlFails]) (by decide) (by decide)
  exact ⟨by decide, by decide, h.1, h.2.2.2.2 hstarted⟩

/-- **The kill counter never wraps while every worker gets its curl handle.** -/
theorem kill_counter_sound {α : Type*} (pf : Platform) (conf : PoolConf)
    {es : List (PoolEvent α)} (hstop : .stop ∉ es) (hes : ∀ e ∈ es, e.curlFails = false) :
    (ThreadPool.run pf conf es).KillsSound conf := by
  have hinv := ThreadPool.poolInv_run pf conf es
  have hacc := ThreadPool.accounts_run pf conf hes
  have hopen := (ThreadPool.started_run pf conf hstop).2
  exact ⟨hacc.balance hopen, hacc.alive_of_sent hinv hopen (ThreadPool.manageStep_manage _)⟩

theorem kill_counter_sound_oneTooMany :
    (ThreadPool.run fractions twoThreads oneTooMany).KillsSound twoThreads := by
  refine kill_counter_sound fractions twoThreads ?_ ?_
  · simp [oneTooMany]
  · simp [oneTooMany, PoolEvent.curlFails]

/-- The only thread has no curl handle, and the manager collects it. -/
def noCurl : List (PoolEvent ℕ) := [.start, .manage, .manage, .init 0 false, .manage, .manage]

/-- **The kill counter wraps when a thread has no curl handle**, and then the manager sends a poison
item although no thread is left. -/
theorem kill_counter_wraps :
    let s := ThreadPool.run fractions {} noCurl
    let s' := ThreadPool.run fractions {} (noCurl ++ [.manage])
    .stop ∉ noCurl ++ [.manage] ∧ s.mBeingKilled = 2 ^ 32 - 1 ∧ ¬ s.KillsSound {} ∧
      s'.alive = 0 ∧ (s'.manage fractions {}).sent ≠ s'.sent ∧ ¬ s'.KillsSound {} := by
  have hsent : (ThreadPool.run fractions {} noCurl).sent = 0 := by decide
  have hcollected : (ThreadPool.run fractions {} noCurl).collected = 1 := by decide
  have halive : (ThreadPool.run fractions {} (noCurl ++ [.manage])).alive = 0 := by decide
  have hpoison : ((ThreadPool.run fractions {} (noCurl ++ [.manage])).manage fractions {}).sent ≠
      (ThreadPool.run fractions {} (noCurl ++ [.manage])).sent := by decide
  refine ⟨by simp [noCurl], by decide, fun h => ?_, halive, hpoison, fun h => ?_⟩
  · have := h.1
    omega
  · have := h.2 hpoison
    omega

end ModDup
