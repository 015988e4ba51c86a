import ModDup.Pool.Accounting

/-!
# The shutdown of the pool

When the pool is stopped, the manager sends a poison item for every thread it still has
(the end of `ThreadPool::run` in `src/ThreadPool.cc`).  Each of them goes to the front of a queue
that may be full, and may throw out an earlier one; the workers go on taking items meanwhile.

## Main definitions

* `ThreadPool.Served` : the invariant of the last loop and of what follows it.

## Main results

* `ThreadPool.served_run` : the invariant holds in every run.
* `ThreadPool.popWorker_closing` : a worker that asks for an item after the loop gets a poison item.
* `shutdown_starves_none` : the loop ends, with a poison item for every worker, and so it stays.
-/

namespace ModDup

/-- The manager makes a step. -/
def PoolEvent.isManage {α : Type*} : PoolEvent α → Bool
  | .manage => true
  | _ => false

namespace ThreadPool

variable {α : Type*} {pf : Platform} {conf : PoolConf} {s s' : ThreadPool pf.F α}

/-! ### The invariant -/

/-- There is a poison item for every worker without one, but for the turns to come of the loop. -/
def Served (s : ThreadPool pf.F α) : Phase → Prop
  | .poisoning i => i ≤ s.mThreads.length ∧ s.unpoisoned ≤ s.pills + (s.mThreads.length - i)
  | .closing => s.unpoisoned ≤ s.pills
  | _ => True

theorem Served.congr {p : Phase} (h : Served s p) (hlen : s'.mThreads.length = s.mThreads.length)
    (hless : ∃ d, s.pills = s'.pills + d ∧ s.unpoisoned = s'.unpoisoned + d) : Served s' p := by
  obtain ⟨d, hpills, hunpois⟩ := hless
  cases p with
  | poisoning i =>
    obtain ⟨hi, hle⟩ := h
    rw [Served, hlen]
    exact ⟨hi, by omega⟩
  | closing =>
    have hle : s.unpoisoned ≤ s.pills := h
    rw [Served]
    omega
  | created => trivial
  | starting i => trivial
  | looping => trivial
  | crashed => trivial

/-- **A poison item that throws out another was not needed.** -/
theorem served_poisonThread (hdrop : conf.mMaxQueued * conf.mMaxThreads < 2 ^ 64)
    (hinv : PoolInv conf s) {i : ℕ} (hp : s.phase = .poisoning i) (hi : i < s.mThreads.length)
    (h : Served s (.poisoning i)) (next : Manager pf.F) :
    Served (s.poisonThread pf next) (.poisoning (i + 1)) := by
  obtain ⟨-, hle⟩ := h
  have hpills : s.mQueue.mQueue.countP Item.isPoison = s.pills := rfl
  have hnew : (s.mQueue.pushFront .poison).mQueue.countP Item.isPoison =
      (s.poisonThread pf next).pills := rfl
  change i + 1 ≤ s.mThreads.length ∧
    s.unpoisoned ≤ (s.poisonThread pf next).pills + (s.mThreads.length - (i + 1))
  refine ⟨hi, ?_⟩
  rcases countP_pushFront hinv.first with hmore | ⟨hsame, hpos, hfull⟩
  · omega
  · -- the queue is full of poison items, and it has room for one for each thread
    have hroom := hinv.length_le_dropSize hdrop (by simp [hp]) hpos
    have hlen := length_mThreads s
    omega

theorem served_manageStep (hdrop : conf.mMaxQueued * conf.mMaxThreads < 2 ^ 64)
    (hinv : PoolInv conf s) (h : Served s s.phase) (hs : ManageStep conf s s') :
    Served s' s'.phase := by
  cases hs with
  | passed same passage =>
    have hlen : s'.mThreads.length = s.mThreads.length := by rw [same.threads]
    have hpills : s.pills = s'.pills + 0 := by rw [pills, pills, same.queue, Nat.add_zero]
    have hunpois : s.unpoisoned = s'.unpoisoned + 0 := by
      rw [unpoisoned, unpoisoned, same.threads, Nat.add_zero]
    rcases passage with hp | ⟨i, -, -, hp⟩ | ⟨-, -, hp⟩ | ⟨i, hi, hlast, hp⟩ | ⟨-, hp⟩
    · rw [hp]
      exact h.congr hlen ⟨0, hpills, hunpois⟩
    · rw [hp]; trivial
    · rw [hp]
      have hcount := length_mThreads s'
      exact ⟨Nat.zero_le _, by omega⟩
    · rw [hp]
      rw [hi] at h
      obtain ⟨-, hle⟩ := h
      change s'.unpoisoned ≤ s'.pills
      omega
    · rw [hp]; trivial
  | @made next room why =>
    change Served _ next.phase
    rcases why with ⟨i, -, -, hnext⟩ | ⟨-, hnext, -⟩
    · rw [hnext]; trivial
    · rw [hnext]; trivial
  | @sent next why =>
    change Served _ next.phase
    rcases why with ⟨-, hnext, -⟩ | ⟨i, hp, hi, hnext⟩
    · rw [hnext]; trivial
    · have hlen := hinv.length_lt
      rw [hnext, Nat.mod_eq_of_lt (by omega)]
      rw [hp] at h
      exact served_poisonThread hdrop hinv hp hi h next
  | @joined k w next hk hw kept place =>
    change Served _ next.phase
    rw [kept]
    rcases place with hp | hp
    · rw [hp]; trivial
    · rw [hp] at h ⊢
      have hle : s.unpoisoned ≤ s.pills := h
      have hcount := countP_eraseIdx (fun w => !w.isPoisoned) hk
      have hunpois : s.mThreads.countP (fun w => !w.isPoisoned) = s.unpoisoned := rfl
      change (s.mThreads.eraseIdx k).countP (fun w => !w.isPoisoned) ≤ s.pills
      omega

theorem served_step (hdrop : conf.mMaxQueued * conf.mMaxThreads < 2 ^ 64) (hinv : PoolInv conf s)
    (h : Served s s.phase) (e : PoolEvent α) :
    Served (s.step pf conf e) (s.step pf conf e).phase := by
  obtain ⟨-, hs⟩ | ⟨-, -, hs⟩ | ⟨-, hs⟩ | ⟨-, -, hs⟩ := step_cases conf s e
  · exact served_manageStep hdrop hinv h hs
  · rw [hs]
    trivial
  · rw [hs]
    exact h
  · obtain ⟨d, hpills, hunpois, -⟩ := hs.taken
    rw [hs.phase]
    exact h.congr hs.length ⟨d, hpills, hunpois⟩

/-- **The invariant of the shutdown.** -/
theorem served_run (pf : Platform) {conf : PoolConf}
    (hdrop : conf.mMaxQueued * conf.mMaxThreads < 2 ^ 64) (es : List (PoolEvent α)) :
    Served (run pf conf es) (run pf conf es).phase := by
  suffices h : PoolInv conf (run pf conf es) ∧ Served (run pf conf es) (run pf conf es).phase from
    h.2
  refine Runs.run_invariant (P := fun s => PoolInv conf s ∧ Served s s.phase)
    (G := fun _ => True) ?_ ⟨poolInv_run pf conf [], trivial⟩ fun _ _ => trivial
  rintro s e ⟨hinv, hs⟩ -
  exact ⟨poolInv_step hinv e, served_step hdrop hinv hs e⟩

/-! ### The loop ends -/

/-- Nothing but the manager moves the pool to another phase, once it is started. -/
theorem phase_step (hp : s.phase ≠ .created) {e : PoolEvent α} (hmanage : e ≠ .manage) :
    (s.step pf conf e).phase = s.phase := by
  obtain ⟨hm, -⟩ | ⟨-, hcreated, -⟩ | ⟨-, hs⟩ | ⟨-, -, hs⟩ := step_cases conf s e
  · exact absurd hm hmanage
  · exact absurd hcreated hp
  · rw [hs]
  · exact hs.phase

theorem closing_step (hp : s.phase = .closing) (e : PoolEvent α) :
    (s.step pf conf e).phase = .closing := by
  by_cases hmanage : e = .manage
  · subst hmanage
    simp only [step, manage]
    cases hm : s.manager with
    | collectingLast it =>
      simp only [collectKilled]
      split
      · rfl
      · split_ifs <;> rfl
    | finished => exact hp
    | _ => simp [phase, hm, Manager.phase] at hp
  · rw [phase_step (by simp [hp]) hmanage, hp]

theorem closing_run (hp : s.phase = .closing) (es : List (PoolEvent α)) :
    (Runs.run (step pf conf) s es).phase = .closing :=
  Runs.run_invariant (P := fun s : ThreadPool pf.F α => s.phase = .closing) (G := fun _ => True)
    (fun _ e hs _ => closing_step hs e) hp fun _ _ => trivial

theorem manage_poisoning {i : ℕ} (hp : s.phase = .poisoning i) :
    s.manage pf conf =
      if i < s.mThreads.length then s.poisonThread pf (.poisoning ((i + 1) % 2 ^ 32))
      else { s with manager := .collectingLast 0 } := by
  have hm : s.manager = .poisoning i := by
    unfold phase at hp
    cases hm : s.manager <;> simp_all [Manager.phase]
  rw [manage, hm]

/-- **The loop ends**, whatever the workers do meanwhile. -/
theorem poisoning_ends (es : List (PoolEvent α)) {i : ℕ} (hp : s.phase = .poisoning i)
    (hlen : s.mThreads.length < 2 ^ 32) (hi : i ≤ s.mThreads.length)
    (hturns : s.mThreads.length < i + es.countP PoolEvent.isManage) :
    (Runs.run (step pf conf) s es).phase = .closing := by
  induction es generalizing s i with
  | nil =>
    rw [List.countP_nil] at hturns
    omega
  | cons e es ih =>
    rw [Runs.run_cons]
    by_cases hmanage : e = .manage
    · subst hmanage
      rw [List.countP_cons_of_pos rfl] at hturns
      change (Runs.run (step pf conf) (s.manage pf conf) es).phase = .closing
      rw [manage_poisoning hp]
      split_ifs with hmore
      · have hnext : (s.poisonThread pf (.poisoning ((i + 1) % 2 ^ 32))).phase =
            .poisoning (i + 1) := by
          rw [Nat.mod_eq_of_lt (by omega)]
          rfl
        refine ih hnext hlen hmore ?_
        change s.mThreads.length < _
        omega
      · exact closing_run rfl es
    · have hphase := @phase_step α pf conf s (by simp [hp]) e hmanage
      have hsame : (s.step pf conf e).mThreads.length = s.mThreads.length := by
        by_cases hstart : e = .start
        · subst hstart
          simp only [step, start]
          split <;> rfl
        · exact (outside_step s hstart hmanage).length
      have hother : e.isManage = false := by
        cases e with
        | manage => exact absurd rfl hmanage
        | _ => rfl
      rw [List.countP_cons_of_neg (by simp [hother])] at hturns
      exact ih (hphase.trans hp) (by omega) (by omega) (by omega)

/-! ### No worker waits -/

/-- **A worker that asks for an item after the loop gets a poison item.** -/
theorem popWorker_closing (hfirst : PillsFirst s.mQueue.mQueue) (hle : s.unpoisoned ≤ s.pills)
    {k : ℕ} (hk : s.mThreads[k]? = some .running) :
    ∃ q, s.mQueue.pop = some (.poison, q) ∧ (s.popWorker pf k).mThreads[k]? = some .poisoned := by
  have hmem : Worker.running ∈ s.mThreads := List.mem_of_getElem? hk
  have hpos : 0 < s.unpoisoned := List.countP_pos_iff.2 ⟨.running, hmem, rfl⟩
  obtain ⟨x, hx, hpoison⟩ : ∃ x ∈ s.mQueue.mQueue, x.isPoison = true :=
    List.countP_pos_iff.1 (lt_of_lt_of_le hpos hle)
  cases hq : s.mQueue.mQueue with
  | nil =>
    rw [hq] at hx
    cases hx
  | cons y rest =>
    have hy : y = .poison := by
      rw [hq] at hx hfirst
      have hhead : y.isPoison = true := by
        rcases List.mem_cons.1 hx with rfl | hx
        · exact hpoison
        · exact (List.pairwise_cons.1 hfirst).1 x hx hpoison
      cases y with
      | poison => rfl
      | work object => cases hhead
    subst hy
    have hpop : s.mQueue.pop =
        some (.poison, { s.mQueue with mQueue := rest, mOutCount := s.mQueue.mOutCount + 1 }) := by
      rw [MultiThreadQueue.pop, hq]
    have hlt : k < s.mThreads.length := (List.getElem?_eq_some_iff.1 hk).1
    refine ⟨_, hpop, ?_⟩
    simp only [popWorker, hk, hpop, setWorker]
    exact List.getElem?_set_self hlt

end ThreadPool

/-- **Shutdown starves no worker.**  The loop that poisons all threads ends after enough turns of
the manager; from then on the queue holds a poison item for every worker that has not taken one,
so a worker that asks for an item gets one. -/
theorem shutdown_starves_none {α : Type*} (pf : Platform) {conf : PoolConf}
    (hdrop : conf.mMaxQueued * conf.mMaxThreads < 2 ^ 64) (es es' : List (PoolEvent α)) :
    let s := ThreadPool.run pf conf es
    let t := ThreadPool.run pf conf (es ++ es')
    (∀ i, s.phase = .poisoning i →
        s.mThreads.length < i + es'.countP PoolEvent.isManage → t.phase = .closing) ∧
      (s.phase = .closing → t.phase = .closing) ∧
      (t.phase = .closing → t.unpoisoned ≤ t.pills ∧
        ∀ k : ℕ, t.mThreads[k]? = some .running → ∃ q, t.mQueue.pop = some (.poison, q)) := by
  intro s t
  have ht : t = Runs.run (ThreadPool.step pf conf) s es' := Runs.run_append _ es es'
  have hinv : s.PoolInv conf := ThreadPool.poolInv_run pf conf es
  have hserved := ThreadPool.served_run pf hdrop es
  refine ⟨fun i hp hturns => ?_, fun hp => ?_, fun hp => ?_⟩
  · have hi : s.Served (.poisoning i) := hp ▸ hserved
    rw [ht]
    exact ThreadPool.poisoning_ends es' hp hinv.length_lt hi.1 hturns
  · rw [ht]
    exact ThreadPool.closing_run hp es'
  · have hle : t.Served .closing := hp ▸ ThreadPool.served_run pf hdrop (es ++ es')
    refine ⟨hle, fun k hk => ?_⟩
    obtain ⟨q, hq, -⟩ :=
      ThreadPool.popWorker_closing (ThreadPool.poolInv_run pf conf (es ++ es')).first hle hk
    exact ⟨q, hq⟩

/-- The pool is stopped with a worker that still has something to do. -/
def stopped : List (PoolEvent ℕ) :=
  [.start, .manage, .manage, .init 0 true, .push 7, .push 8, .push 9, .stop, .manage]

theorem shutdown_starves_none_stopped :
    let t := ThreadPool.run fractions twoThreads (stopped ++ [.pop 0, .manage, .push 5, .manage])
    t.phase = .closing ∧ t.unpoisoned = 1 ∧ t.unpoisoned ≤ t.pills ∧
      ∃ q, t.mQueue.pop = some (.poison, q) := by
  have h := @shutdown_starves_none ℕ fractions twoThreads (by decide) stopped
    [.pop 0, .manage, .push 5, .manage]
  have hclosing := h.1 0 (by decide) (by decide)
  have hpoison := h.2.2 hclosing
  exact ⟨hclosing, by decide, hpoison.1, hpoison.2 0 (by decide)⟩

end ModDup
