import ModDup.Compare.LogFile

/-!
# How the mutex of the log comes about

The first call of `getGlobalMutex` in a process looks for the mutex of the log in shared memory.
`createGlobalMutex` creates the memory if it is not there, gives it its size and makes the mutex in
it; a process that finds the memory takes the mutex for made (`src/mod_compare.cc`).  Nothing makes
it wait for the process that creates it.  The runs of `LogFile` are those of threads that have a
mutex that was made; `LogSetup` puts the two together.

A failing `shm_open` is an event; `ftruncate` and `mmap` do not fail here.

## Main definitions

* `MutexSetup`, `MutexSetup.step` : the memory and the threads in `getGlobalMutex`.
* `LogSetup`, `LogSetup.step` : the log file, behind the mutex.

## Main results

* `global_mutex_created_once` : one thread creates the mutex, once.
* `global_mutex_ready` : who has the mutex has one that was made, if nobody comes in between.
* `log_run_ready` : the log is written with a mutex that was made, if nobody comes in between.
-/

namespace ModDup

/-- The shared memory of the mutex. -/
inductive Shm where
  | absent
  /-- It is there, and has no size. -/
  | empty
  /-- It has its size, and all bytes are zero. -/
  | sized
  | initialised
  deriving DecidableEq, Repr

/-- Where a thread is in `getGlobalMutex`. -/
inductive SetupPoint where
  | outside
  /-- At the `shm_open` of `createGlobalMutex`. -/
  | creating
  /-- At `ftruncate`. -/
  | truncating
  /-- At `pthread_mutex_init`. -/
  | initialising
  /-- At the `shm_open` of `getGlobalMutex`. -/
  | opening
  /-- The mutex was returned, and is used. -/
  | ready
  /-- `NULL` was returned. -/
  | failed
  deriving DecidableEq, Repr

/-- The thread has created the memory, and has not made the mutex yet. -/
def SetupPoint.Creates (point : SetupPoint) : Prop := point = .truncating ∨ point = .initialising

/-- The memory and those who look for the mutex. -/
structure MutexSetup where
  shm : Shm := .absent
  /-- The `static` pointer of a process is set. -/
  mapped : ℕ → Bool := fun _ => false
  threads : Thread → SetupPoint := fun _ => .outside
  /-- How often the mutex was made. -/
  inits : ℕ := 0

/-- What can happen. -/
inductive SetupEvent where
  /-- A thread calls `getGlobalMutex`. -/
  | call (t : Thread)
  | create (t : Thread)
  /-- `shm_open` fails, and not because the memory is there. -/
  | refuse (t : Thread)
  | truncate (t : Thread)
  | init (t : Thread)
  | map (t : Thread)
  /-- The thread is through with what it wanted the mutex for. -/
  | leave (t : Thread)
  | die (pid : ℕ)

namespace MutexSetup

/-- A thread goes on. -/
def goto (s : MutexSetup) (t : Thread) (point : SetupPoint) : MutexSetup :=
  { s with threads := Function.update s.threads t point }

theorem goto_threads_self (s : MutexSetup) (t : Thread) (point : SetupPoint) :
    (s.goto t point).threads t = point := Function.update_self ..

theorem goto_threads_of_ne (s : MutexSetup) {t u : Thread} (h : u ≠ t) (point : SetupPoint) :
    (s.goto t point).threads u = s.threads u := Function.update_of_ne h ..

/-- A process is gone, and its mapping with it; the memory stays. -/
def die (s : MutexSetup) (pid : ℕ) : MutexSetup :=
  { s with
    mapped := Function.update s.mapped pid false
    threads := fun t => if t.pid = pid then .outside else s.threads t }

theorem die_threads (s : MutexSetup) (pid : ℕ) (t : Thread) :
    (s.die pid).threads t = if t.pid = pid then .outside else s.threads t := rfl

theorem mapped_of_die {s : MutexSetup} {pid p : ℕ} (h : (s.die pid).mapped p = true) :
    s.mapped p = true := by
  by_cases hp : p = pid
  · rw [hp] at h
    simp [die] at h
  · simpa [die, Function.update_of_ne hp] using h

/-- One step; what cannot happen changes nothing. -/
def step (s : MutexSetup) : SetupEvent → MutexSetup
  | .call t => match s.threads t with
    | .outside => s.goto t (if s.mapped t.pid then .ready else .creating)
    | _ => s
  | .create t => match s.threads t with
    | .creating =>
      if s.shm = .absent then { s.goto t .truncating with shm := .empty }
      -- `EEXIST`: it is taken for made
      else s.goto t .opening
    | _ => s
  | .refuse t => match s.threads t with
    | .creating | .opening => s.goto t .failed
    | _ => s
  | .truncate t => match s.threads t with
    | .truncating => { s.goto t .initialising with shm := .sized }
    | _ => s
  | .init t => match s.threads t with
    | .initialising => { s.goto t .opening with shm := .initialised, inits := s.inits + 1 }
    | _ => s
  | .map t => match s.threads t with
    | .opening => { s.goto t .ready with mapped := Function.update s.mapped t.pid true }
    | _ => s
  | .leave t => match s.threads t with
    | .ready | .failed => s.goto t .outside
    | _ => s
  | .die pid => s.die pid

/-- The state after a list of events. -/
def run (es : List SetupEvent) : MutexSetup := Runs.run step {} es

/-- What a step does, by what can happen. -/
inductive Moves (s : MutexSetup) : SetupEvent → MutexSetup → Prop where
  | nothing (e : SetupEvent) : Moves s e s
  | call (t : Thread) (hpoint : s.threads t = .outside) : Moves s (.call t)
      (s.goto t (if s.mapped t.pid then .ready else .creating))
  | create (t : Thread) (hpoint : s.threads t = .creating) (hshm : s.shm = .absent) :
      Moves s (.create t) { s.goto t .truncating with shm := .empty }
  | found (t : Thread) (hpoint : s.threads t = .creating) (hshm : s.shm ≠ .absent) :
      Moves s (.create t) (s.goto t .opening)
  | refuse (t : Thread) (hpoint : s.threads t = .creating ∨ s.threads t = .opening) :
      Moves s (.refuse t) (s.goto t .failed)
  | truncate (t : Thread) (hpoint : s.threads t = .truncating) :
      Moves s (.truncate t) { s.goto t .initialising with shm := .sized }
  | init (t : Thread) (hpoint : s.threads t = .initialising) : Moves s (.init t)
      { s.goto t .opening with shm := .initialised, inits := s.inits + 1 }
  | map (t : Thread) (hpoint : s.threads t = .opening) : Moves s (.map t)
      { s.goto t .ready with mapped := Function.update s.mapped t.pid true }
  | leave (t : Thread) (hpoint : s.threads t = .ready ∨ s.threads t = .failed) :
      Moves s (.leave t) (s.goto t .outside)
  | die (pid : ℕ) : Moves s (.die pid) (s.die pid)

theorem moves_step (s : MutexSetup) (e : SetupEvent) : Moves s e (s.step e) := by
  cases e with
  | die pid => exact .die pid
  | call t =>
    cases hpoint : s.threads t with
    | outside =>
      simp only [step, hpoint]
      exact .call t hpoint
    | _ =>
      simp only [step, hpoint]
      exact .nothing _
  | create t =>
    cases hpoint : s.threads t with
    | creating =>
      simp only [step, hpoint]
      split_ifs with hshm
      · exact .create t hpoint hshm
      · exact .found t hpoint hshm
    | _ =>
      simp only [step, hpoint]
      exact .nothing _
  | refuse t =>
    cases hpoint : s.threads t with
    | creating =>
      simp only [step, hpoint]
      exact .refuse t (.inl hpoint)
    | opening =>
      simp only [step, hpoint]
      exact .refuse t (.inr hpoint)
    | _ =>
      simp only [step, hpoint]
      exact .nothing _
  | truncate t =>
    cases hpoint : s.threads t with
    | truncating =>
      simp only [step, hpoint]
      exact .truncate t hpoint
    | _ =>
      simp only [step, hpoint]
      exact .nothing _
  | init t =>
    cases hpoint : s.threads t with
    | initialising =>
      simp only [step, hpoint]
      exact .init t hpoint
    | _ =>
      simp only [step, hpoint]
      exact .nothing _
  | map t =>
    cases hpoint : s.threads t with
    | opening =>
      simp only [step, hpoint]
      exact .map t hpoint
    | _ =>
      simp only [step, hpoint]
      exact .nothing _
  | leave t =>
    cases hpoint : s.threads t with
    | ready =>
      simp only [step, hpoint]
      exact .leave t (.inl hpoint)
    | failed =>
      simp only [step, hpoint]
      exact .leave t (.inr hpoint)
    | _ =>
      simp only [step, hpoint]
      exact .nothing _

/-! ### Who creates the mutex -/

/-- What holds of the memory and the threads in every run. -/
structure Sound (s : MutexSetup) : Prop where
  truncating : ∀ t, s.threads t = .truncating → s.shm = .empty
  initialising : ∀ t, s.threads t = .initialising → s.shm = .sized
  one : ∀ t u, (s.threads t).Creates → (s.threads u).Creates → t = u
  inits : s.inits = if s.shm = .initialised then 1 else 0
  there : ∀ t, s.threads t = .opening ∨ s.threads t = .ready → s.shm ≠ .absent
  mapped : ∀ pid, s.mapped pid = true → s.shm ≠ .absent

variable {s s' : MutexSetup} {e : SetupEvent} {t : Thread} {point : SetupPoint}

theorem Sound.shm_of_creates (h : Sound s) (ht : (s.threads t).Creates) :
    s.shm = .empty ∨ s.shm = .sized := by
  rcases ht with ht | ht
  · exact .inl (h.truncating t ht)
  · exact .inr (h.initialising t ht)

theorem forall_goto {P : Thread → SetupPoint → Prop} (hpoint : P t point)
    (h : ∀ u, u ≠ t → P u (s.threads u)) (u : Thread) : P u ((s.goto t point).threads u) := by
  by_cases hu : u = t
  · rw [hu, goto_threads_self]
    exact hpoint
  · rw [goto_threads_of_ne s hu]
    exact h u hu

theorem Sound.goto (h : Sound s) (hpoint : ¬ point.Creates)
    (hthere : point = .opening ∨ point = .ready → s.shm ≠ .absent) : Sound (s.goto t point) := by
  have hsame : ∀ u, ((s.goto t point).threads u).Creates → (s.threads u).Creates :=
    forall_goto (P := fun u p => p.Creates → (s.threads u).Creates)
      (fun hc => absurd hc hpoint) fun _ _ hc => hc
  refine ⟨?_, ?_, fun u v hu hv => h.one u v (hsame u hu) (hsame v hv), h.inits, ?_, h.mapped⟩
  · exact forall_goto (P := fun _ p => p = .truncating → s.shm = .empty)
      (fun hp => absurd (.inl hp) hpoint) fun u _ => h.truncating u
  · exact forall_goto (P := fun _ p => p = .initialising → s.shm = .sized)
      (fun hp => absurd (.inr hp) hpoint) fun u _ => h.initialising u
  · exact forall_goto (P := fun _ p => p = .opening ∨ p = .ready → s.shm ≠ .absent)
      hthere fun u _ => h.there u

theorem sound_create (h : Sound s) (hshm : s.shm = .absent) :
    Sound { s.goto t .truncating with shm := .empty } := by
  have hnone : ∀ u, ¬ (s.threads u).Creates := by
    intro u hu
    rcases h.shm_of_creates hu with hs | hs
    · rw [hshm] at hs
      cases hs
    · rw [hshm] at hs
      cases hs
  have hone : ∀ u, ((s.goto t .truncating).threads u).Creates → u = t :=
    forall_goto (P := fun u p => p.Creates → u = t) (fun _ => rfl)
      fun u _ hc => absurd hc (hnone u)
  refine ⟨fun _ _ => rfl, ?_, fun u v hu hv => (hone u hu).trans (hone v hv).symm, ?_,
    fun _ _ => (by decide : Shm.empty ≠ .absent),
    fun _ _ => (by decide : Shm.empty ≠ .absent)⟩
  · exact forall_goto (P := fun _ p => p = .initialising → Shm.empty = .sized)
      (fun hp => (by cases hp)) fun u _ hp => absurd (.inr hp) (hnone u)
  · show s.inits = 0
    rw [h.inits, hshm]
    rfl

theorem sound_truncate (h : Sound s) (hpoint : s.threads t = .truncating) :
    Sound { s.goto t .initialising with shm := .sized } := by
  have hnone : ∀ u, u ≠ t → ¬ (s.threads u).Creates := fun u hu hc =>
    hu (h.one u t hc (.inl hpoint))
  have hone : ∀ u, ((s.goto t .initialising).threads u).Creates → u = t :=
    forall_goto (P := fun u p => p.Creates → u = t) (fun _ => rfl)
      fun u hu hc => absurd hc (hnone u hu)
  refine ⟨?_, fun _ _ => rfl, fun u v hu hv => (hone u hu).trans (hone v hv).symm, ?_,
    fun _ _ => (by decide : Shm.sized ≠ .absent),
    fun _ _ => (by decide : Shm.sized ≠ .absent)⟩
  · exact forall_goto (P := fun _ p => p = .truncating → Shm.sized = .empty)
      (fun hp => (by cases hp)) fun u hu hp => absurd (.inl hp) (hnone u hu)
  · show s.inits = 0
    rw [h.inits, h.truncating t hpoint]
    rfl

theorem sound_init (h : Sound s) (hpoint : s.threads t = .initialising) :
    Sound { s.goto t .opening with shm := .initialised, inits := s.inits + 1 } := by
  have hnone : ∀ u, ¬ ((s.goto t .opening).threads u).Creates :=
    forall_goto (P := fun _ p => ¬ p.Creates) (by simp [SetupPoint.Creates])
      fun u hu hc => hu (h.one u t hc (.inr hpoint))
  refine ⟨fun u hu => absurd (.inl hu) (hnone u), fun u hu => absurd (.inr hu) (hnone u),
    fun u v hu _ => absurd hu (hnone u), ?_, fun _ _ => (by decide : Shm.initialised ≠ .absent),
    fun _ _ => (by decide : Shm.initialised ≠ .absent)⟩
  show s.inits + 1 = 1
  rw [h.inits, h.initialising t hpoint]
  rfl

theorem sound_die (h : Sound s) (pid : ℕ) : Sound (s.die pid) := by
  have hsame : ∀ u, (s.die pid).threads u ≠ .outside → (s.die pid).threads u = s.threads u :=
    fun u hu => by
      rw [die_threads] at hu ⊢
      split_ifs at hu ⊢ with hpid
      · exact absurd rfl hu
      · rfl
  have hcreates : ∀ u, ((s.die pid).threads u).Creates → (s.threads u).Creates := by
    intro u hu
    rwa [← hsame u (by rcases hu with hu | hu <;> rw [hu] <;> decide)]
  refine ⟨fun u hu => ?_, fun u hu => ?_,
    fun u v hu hv => h.one u v (hcreates u hu) (hcreates v hv), h.inits, fun u hu => ?_,
    fun p hp => h.mapped p (mapped_of_die hp)⟩
  · exact h.truncating u ((hsame u (by rw [hu]; decide)).symm.trans hu)
  · exact h.initialising u ((hsame u (by rw [hu]; decide)).symm.trans hu)
  · rw [hsame u (by rcases hu with hu | hu <;> rw [hu] <;> decide)] at hu
    exact h.there u hu

theorem sound_step (h : Sound s) (hs' : Moves s e s') : Sound s' := by
  cases hs' with
  | nothing => exact h
  | call t hpoint =>
    cases hmapped : s.mapped t.pid with
    | true => exact h.goto (by simp [SetupPoint.Creates]) fun _ => h.mapped _ hmapped
    | false => exact h.goto (by simp [SetupPoint.Creates]) fun hp => (by simp at hp)
  | create t hpoint hshm => exact sound_create h hshm
  | found t hpoint hshm => exact h.goto (by simp [SetupPoint.Creates]) fun _ => hshm
  | refuse t hpoint => exact h.goto (by simp [SetupPoint.Creates]) fun hp => (by simp at hp)
  | truncate t hpoint => exact sound_truncate h hpoint
  | init t hpoint => exact sound_init h hpoint
  | map t hpoint =>
    have hthere := h.there t (.inl hpoint)
    have hgoto : Sound (s.goto t .ready) := h.goto (by simp [SetupPoint.Creates]) fun _ => hthere
    exact { hgoto with mapped := fun _ _ => hthere }
  | leave t hpoint => exact h.goto (by simp [SetupPoint.Creates]) fun hp => (by simp at hp)
  | die pid => exact sound_die h pid

theorem sound_start : Sound {} := by
  have hnone : ∀ t, ¬ (({} : MutexSetup).threads t).Creates := by
    intro t ht
    rcases ht with ht | ht <;> cases ht
  refine ⟨fun t ht => absurd (.inl ht) (hnone t), fun t ht => absurd (.inr ht) (hnone t),
    fun t _ ht => absurd ht (hnone t), rfl, fun t ht => ?_, fun _ hp => (by cases hp)⟩
  rcases ht with ht | ht <;> cases ht

theorem sound_run (es : List SetupEvent) : Sound (run es) :=
  Runs.run_invariant (G := fun _ => True) (fun s e h _ => sound_step h (moves_step s e))
    sound_start fun _ _ => trivial

theorem shm_step (h : Sound s) (hshm : s.shm = .initialised) (hs' : Moves s e s') :
    s'.shm = .initialised := by
  cases hs' with
  | create t hpoint habsent =>
    rw [hshm] at habsent
    cases habsent
  | truncate t hpoint =>
    have hempty := h.truncating t hpoint
    rw [hshm] at hempty
    cases hempty
  | init t hpoint => rfl
  | _ => exact hshm

theorem shm_run (h : Sound s) (hshm : s.shm = .initialised) (es : List SetupEvent) :
    Sound (Runs.run step s es) ∧ (Runs.run step s es).shm = .initialised :=
  Runs.run_invariant (P := fun s : MutexSetup => Sound s ∧ s.shm = .initialised)
    (G := fun _ => True)
    (fun s e h _ => ⟨sound_step h.1 (moves_step s e), shm_step h.1 h.2 (moves_step s e)⟩)
    ⟨h, hshm⟩ fun _ _ => trivial

/-! ### Who has the mutex -/

/-- Nobody comes in between while a thread creates the mutex: none maps the memory, and the process
of that thread does not die. -/
structure Undisturbed (s : MutexSetup) (e : SetupEvent) : Prop where
  map : ∀ t, e = .map t → ∀ u, ¬ (s.threads u).Creates
  die : ∀ pid, e = .die pid → ∀ u, u.pid = pid → ¬ (s.threads u).Creates

/-- Who has the mutex has one that was made. -/
structure Made (s : MutexSetup) : Prop where
  sound : Sound s
  creator : s.shm = .empty ∨ s.shm = .sized → ∃ u, (s.threads u).Creates
  ready : ∀ t, s.threads t = .ready → s.shm = .initialised
  mapped : ∀ pid, s.mapped pid = true → s.shm = .initialised

theorem Made.goto (h : Made s) (hfrom : ¬ (s.threads t).Creates) (hsound : Sound (s.goto t point))
    (hpoint : point = .ready → s.shm = .initialised) : Made (s.goto t point) := by
  refine ⟨hsound, fun hshm => ?_, ?_, h.mapped⟩
  · obtain ⟨u, hu⟩ := h.creator hshm
    have hne : u ≠ t := by
      rintro rfl
      exact hfrom hu
    refine ⟨u, ?_⟩
    rwa [goto_threads_of_ne s hne]
  · exact forall_goto (P := fun _ p => p = .ready → s.shm = .initialised) hpoint
      fun u _ => h.ready u

/-- A thread does a step of the creation; before it nobody has the mutex. -/
theorem Made.of_creates (h : Made s) {shm : Shm} (hnot : s.shm ≠ .initialised)
    (hpoint : point.Creates) (hsound : Sound { s.goto t point with shm := shm }) :
    Made { s.goto t point with shm := shm } := by
  refine ⟨hsound, fun _ => ⟨t, ?_⟩, ?_, fun pid hpid => absurd (h.mapped pid hpid) hnot⟩
  · show ((s.goto t point).threads t).Creates
    rwa [goto_threads_self]
  · refine forall_goto (P := fun _ p => p = .ready → shm = .initialised) (fun hp => ?_)
      fun u _ hu => absurd (h.ready u hu) hnot
    rcases hpoint with rfl | rfl <;> cases hp

theorem made_step (h : Made s) (he : Undisturbed s e) (hs' : Moves s e s') : Made s' := by
  have hsound := sound_step h.sound hs'
  cases hs' with
  | nothing => exact h
  | call t hpoint =>
    refine h.goto (by simp [hpoint, SetupPoint.Creates]) hsound fun hp => h.mapped t.pid ?_
    by_contra hmapped
    rw [if_neg hmapped] at hp
    cases hp
  | create t hpoint hshm =>
    exact h.of_creates (by rw [hshm]; decide) (.inl rfl) hsound
  | found t hpoint hshm =>
    exact h.goto (by simp [hpoint, SetupPoint.Creates]) hsound fun hp => (by cases hp)
  | refuse t hpoint =>
    refine h.goto ?_ hsound fun hp => (by cases hp)
    rcases hpoint with hpoint | hpoint <;> simp [hpoint, SetupPoint.Creates]
  | truncate t hpoint =>
    exact h.of_creates (by rw [h.sound.truncating t hpoint]; decide) (.inr rfl) hsound
  | init t hpoint =>
    exact ⟨hsound, fun hshm => (by rcases hshm with hs | hs <;> cases hs), fun _ _ => rfl,
      fun _ _ => rfl⟩
  | map t hpoint =>
    -- the memory is there, and nobody creates the mutex
    have hshm : s.shm = .initialised := by
      have hthere := h.sound.there t (.inl hpoint)
      have hnone : ¬ (s.shm = .empty ∨ s.shm = .sized) := fun hs =>
        (h.creator hs).elim (he.map t rfl)
      rw [not_or] at hnone
      cases hs : s.shm with
      | absent => exact absurd hs hthere
      | empty => exact absurd hs hnone.1
      | sized => exact absurd hs hnone.2
      | initialised => rfl
    refine ⟨hsound, fun hs => ?_, fun _ _ => hshm, fun _ _ => hshm⟩
    obtain ⟨u, hu⟩ := h.creator hs
    exact absurd hu (he.map t rfl u)
  | leave t hpoint =>
    refine h.goto ?_ hsound fun hp => (by cases hp)
    rcases hpoint with hpoint | hpoint <;> simp [hpoint, SetupPoint.Creates]
  | die pid =>
    refine ⟨hsound, fun hshm => ?_, fun u hu => ?_, fun p hp => h.mapped p (mapped_of_die hp)⟩
    · obtain ⟨u, hu⟩ := h.creator hshm
      have hsame : (s.die pid).threads u = s.threads u :=
        if_neg fun hpid => he.die pid rfl u hpid hu
      exact ⟨u, hsame ▸ hu⟩
    · refine h.ready u ?_
      rw [die_threads] at hu
      split_ifs at hu
      exact hu

theorem made_start : Made {} :=
  ⟨sound_start, fun hs => (by rcases hs with hs | hs <;> cases hs), fun _ ht => (by cases ht),
    fun _ hp => (by cases hp)⟩

/-- A thread that comes while another creates the mutex is given one that was not made. -/
theorem ready_of_creates (hsound : Sound s) {u : Thread} (hu : (s.threads u).Creates)
    (ht : s.threads t = .outside) (hmapped : s.mapped t.pid = false) :
    (Runs.run step s [.call t, .create t, .map t]).threads t = .ready ∧
      (Runs.run step s [.call t, .create t, .map t]).shm ≠ .initialised := by
  have hshm : s.shm ≠ .absent ∧ s.shm ≠ .initialised := by
    rcases hsound.shm_of_creates hu with hs | hs <;> simp [hs]
  have hcall : s.step (.call t) = s.goto t .creating := by
    simp [step, ht, hmapped]
  have hcreate : (s.goto t .creating).step (.create t) = (s.goto t .creating).goto t .opening := by
    have hsame : (s.goto t .creating).shm = s.shm := rfl
    simp only [step, goto_threads_self, hsame, if_neg hshm.1]
  set s₂ := (s.goto t .creating).goto t .opening with hs₂
  have hmap : s₂.step (.map t) =
      { s₂.goto t .ready with mapped := Function.update s₂.mapped t.pid true } := by
    simp only [step, hs₂, goto_threads_self]
  rw [Runs.run_cons, hcall, Runs.run_cons, hcreate, Runs.run_cons, hmap, Runs.run_nil]
  exact ⟨goto_threads_self s₂ t .ready, hshm.2⟩

theorem ready_step (hs' : Moves s e s') (ht : s.threads t = .ready) (hleave : e ≠ .leave t)
    (hdie : e ≠ .die t.pid) : s'.threads t = .ready := by
  have hgoto : ∀ {u : Thread} {point : SetupPoint}, s.threads u ≠ .ready →
      (s.goto u point).threads t = .ready := by
    intro u point hu
    have hne : t ≠ u := by
      rintro rfl
      exact hu ht
    rw [goto_threads_of_ne s hne]
    exact ht
  cases hs' with
  | nothing => exact ht
  | call u hpoint => exact hgoto (by simp [hpoint])
  | create u hpoint => exact hgoto (by simp [hpoint])
  | found u hpoint => exact hgoto (by simp [hpoint])
  | refuse u hpoint => exact hgoto (by rcases hpoint with hpoint | hpoint <;> simp [hpoint])
  | truncate u hpoint => exact hgoto (by simp [hpoint])
  | init u hpoint => exact hgoto (by simp [hpoint])
  | map u hpoint => exact hgoto (by simp [hpoint])
  | leave u hpoint =>
    have hu : t ≠ u := by
      rintro rfl
      exact hleave rfl
    rw [goto_threads_of_ne s hu]
    exact ht
  | die pid =>
    refine (if_neg fun hpid => ?_).trans ht
    subst hpid
    exact hdie rfl

end MutexSetup

/-- **The mutex is created once**, whatever threads of whatever processes look for it at the same
time and wherever a process dies: at most one thread creates it, it is made at most once, and when
it is made it stays. -/
theorem global_mutex_created_once (es : List SetupEvent) :
    let s := MutexSetup.run es
    (∀ t u, (s.threads t).Creates → (s.threads u).Creates → t = u) ∧ s.inits ≤ 1 ∧
      ∀ more, s.shm = .initialised →
        (MutexSetup.run (es ++ more)).shm = .initialised ∧
          (MutexSetup.run (es ++ more)).inits = 1 := by
  intro s
  have hsound : MutexSetup.Sound s := MutexSetup.sound_run es
  refine ⟨hsound.one, ?_, fun more hshm => ?_⟩
  · rw [hsound.inits]
    split_ifs <;> omega
  · obtain ⟨hsound', hshm'⟩ := MutexSetup.shm_run hsound hshm more
    have hrun : MutexSetup.run (es ++ more) = Runs.run MutexSetup.step s more :=
      Runs.run_append _ _ _
    rw [hrun]
    refine ⟨hshm', ?_⟩
    rw [hsound'.inits, if_pos hshm']

/-- **Who has the mutex has one that was made**, if no thread maps the memory while another creates
the mutex in it, and the process of that one does not die before it is made.  Nothing makes a thread
wait for that: while the mutex is being created, a process that has not mapped the memory yet gets
through to one that was not made. -/
theorem global_mutex_ready :
    (∀ es : List SetupEvent, Runs.Along MutexSetup.step MutexSetup.Undisturbed {} es →
      ∀ t, (MutexSetup.run es).threads t = .ready → (MutexSetup.run es).shm = .initialised) ∧
    ∀ (es : List SetupEvent) (t u : Thread), ((MutexSetup.run es).threads u).Creates →
      (MutexSetup.run es).threads t = .outside → (MutexSetup.run es).mapped t.pid = false →
      let s := MutexSetup.run (es ++ [.call t, .create t, .map t])
      s.threads t = .ready ∧ s.shm ≠ .initialised := by
  refine ⟨fun es hes t ht => ?_, fun es t u hu ht hmapped => ?_⟩
  · have hmade : MutexSetup.Made (MutexSetup.run es) :=
      Runs.run_invariant_along (P := MutexSetup.Made) (G := MutexSetup.Undisturbed)
        (fun s e h he => MutexSetup.made_step h he (MutexSetup.moves_step s e))
        MutexSetup.made_start hes
    exact hmade.ready t ht
  · intro s
    rw [show s = Runs.run MutexSetup.step (MutexSetup.run es) [.call t, .create t, .map t] from
      Runs.run_append _ _ _]
    exact MutexSetup.ready_of_creates (MutexSetup.sound_run es) hu ht hmapped

/-- A second process finds the memory: it has the mutex, made if it has waited to map the memory,
and not made if it has not. -/
theorem global_mutex_ready_second :
    (MutexSetup.run [.call ⟨1, 0⟩, .create ⟨1, 0⟩, .call ⟨2, 0⟩, .create ⟨2, 0⟩, .truncate ⟨1, 0⟩,
        .init ⟨1, 0⟩, .map ⟨2, 0⟩]).shm = .initialised ∧
      (MutexSetup.run [.call ⟨1, 0⟩, .create ⟨1, 0⟩, .call ⟨2, 0⟩, .create ⟨2, 0⟩,
        .map ⟨2, 0⟩]).shm ≠ .initialised := by
  constructor
  · refine global_mutex_ready.1 _ ⟨⟨by simp, by simp⟩, ⟨by simp, by simp⟩, ⟨by simp, by simp⟩,
      ⟨by simp, by simp⟩, ⟨by simp, by simp⟩, ⟨by simp, by simp⟩, ⟨fun t ht u => ?_, by simp⟩,
      trivial⟩ ⟨2, 0⟩ rfl
    -- the first thread is through with the creation
    by_cases hu : u = ⟨1, 0⟩
    · subst hu
      simp [MutexSetup.step, MutexSetup.goto, SetupPoint.Creates]
    · by_cases hu' : u = ⟨2, 0⟩
      · subst hu'
        simp [MutexSetup.step, MutexSetup.goto, SetupPoint.Creates]
      · simp [MutexSetup.step, MutexSetup.goto, SetupPoint.Creates, hu, hu']
  · exact (global_mutex_ready.2 [.call ⟨1, 0⟩, .create ⟨1, 0⟩] ⟨2, 0⟩ ⟨1, 0⟩ (.inl rfl) rfl
      rfl).2

/-! ### The log behind the mutex -/

/-- The log, and the way to its mutex. -/
structure LogSetup where
  setup : MutexSetup := {}
  log : LogFile := {}

/-- An event of the one or of the other. -/
inductive LogSetupEvent where
  | setup (e : SetupEvent)
  | log (e : LogEvent)

/-- What it is on the way to the mutex; the end of a process is one here and there. -/
def LogSetupEvent.setup? : LogSetupEvent → Option SetupEvent
  | .setup e => some e
  | .log (.die pid) | .log (.exit pid) => some (.die pid)
  | .log _ => none

/-- What it is for the log. -/
def LogSetupEvent.log? : LogSetupEvent → Option LogEvent
  | .setup (.die pid) => some (.die pid)
  | .setup _ => none
  | .log e => some e

namespace LogSetup

/-- A thread writes with the mutex it was given, and has it until its call returns. -/
def allowed (s : LogSetup) : LogSetupEvent → Bool
  | .log (.call t _) => s.setup.threads t = .ready
  | .setup (.leave t) => s.log.threads t = .outside
  | _ => true

/-- One step; what cannot happen changes nothing. -/
def step (s : LogSetup) (e : LogSetupEvent) : LogSetup :=
  if s.allowed e then
    { setup := e.setup?.elim s.setup s.setup.step
      log := e.log?.elim s.log s.log.step }
  else s

/-- The state after a list of events. -/
def run (es : List LogSetupEvent) : LogSetup := Runs.run step {} es

/-- Nobody comes in between while a thread creates the mutex. -/
def Undisturbed (s : LogSetup) (e : LogSetupEvent) : Prop :=
  ∀ e', e.setup? = some e' → s.setup.Undisturbed e'

/-- Who writes has the mutex; until it is made, it is as `pthread_mutex_init` makes it. -/
structure Behind (s : LogSetup) : Prop where
  made : s.setup.Made
  calls : ∀ t, s.log.threads t ≠ .outside → s.setup.threads t = .ready
  free : s.setup.shm ≠ .initialised → s.log.mutex = .free

variable {s : LogSetup} {e : LogSetupEvent}

/-- Until the mutex is made, nobody writes. -/
theorem Behind.outside (h : Behind s) (hshm : s.setup.shm ≠ .initialised) (t : Thread) :
    s.log.threads t = .outside := by
  by_contra ht
  exact hshm (h.made.ready t (h.calls t ht))

theorem Behind.setup (h : Behind s) {e : SetupEvent} (he : s.setup.Undisturbed e)
    (hleave : ∀ t, e = .leave t → s.log.threads t = .outside) (hdie : ∀ pid, e ≠ .die pid) :
    Behind { s with setup := s.setup.step e } := by
  have hmoves := MutexSetup.moves_step s.setup e
  refine ⟨MutexSetup.made_step h.made he hmoves, fun t ht => ?_, fun hshm => h.free fun hinit => ?_⟩
  · exact MutexSetup.ready_step hmoves (h.calls t ht) (fun heq => ht (hleave t heq)) (hdie _)
  · exact hshm (MutexSetup.shm_step h.made.sound hinit hmoves)

theorem Behind.log (h : Behind s) {e : LogEvent}
    (hcall : ∀ t record, e = .call t record → s.setup.threads t = .ready) :
    Behind { s with log := s.log.step e } := by
  have hmoves := LogFile.moves_step s.log e
  refine ⟨h.made, fun t ht => ?_, fun hshm => ?_⟩
  · by_cases hbefore : s.log.threads t = .outside
    · obtain ⟨record, rfl⟩ := (hmoves.outside hbefore).resolve_left ht
      exact hcall t record rfl
    · exact h.calls t hbefore
  · exact hmoves.free (h.outside hshm) (h.free hshm)

theorem Behind.die (h : Behind s) {pid : ℕ} (he : s.setup.Undisturbed (.die pid)) {log : LogFile}
    (hthreads : log.threads = s.log.threads) (hmutex : log.mutex = s.log.mutex) :
    Behind { setup := s.setup.die pid, log := log.die pid } := by
  refine ⟨MutexSetup.made_step h.made he (.die pid), fun t ht => ?_, fun hshm => ?_⟩
  · rw [LogFile.die_threads] at ht
    rw [MutexSetup.die_threads]
    split_ifs at ht ⊢ with hpid
    · exact absurd rfl ht
    · exact h.calls t (hthreads ▸ ht)
  · show log.mutex.die pid = .free
    rw [hmutex, h.free hshm]
    rfl

theorem behind_step (h : Behind s) (he : Undisturbed s e) : Behind (s.step e) := by
  by_cases hallowed : s.allowed e = true
  swap
  · rw [step, if_neg hallowed]
    exact h
  rw [step, if_pos hallowed]
  cases e with
  | setup e =>
    cases e with
    | die pid => exact h.die (he _ rfl) rfl rfl
    | leave t =>
      refine h.setup (he _ rfl) (fun u hu => ?_) fun pid heq => (by cases heq)
      cases hu
      exact of_decide_eq_true hallowed
    | _ => exact h.setup (he _ rfl) (fun u hu => by cases hu) fun pid heq => (by cases heq)
  | log e =>
    rw [show (LogSetupEvent.log e).log?.elim s.log s.log.step = s.log.step e from rfl]
    cases e with
    | die pid => exact h.die (he _ rfl) rfl rfl
    | exit pid => exact h.die (he _ rfl) rfl rfl
    | call t record =>
      refine h.log fun u record' hu => ?_
      cases hu
      exact of_decide_eq_true hallowed
    | _ => exact h.log fun u record hu => (by cases hu)

/-- The log of such a run is one of the runs of the log alone. -/
theorem log_run (es : List LogSetupEvent) : ∃ les : List LogEvent,
    les.Sublist (es.filterMap LogSetupEvent.log?) ∧ (run es).log = LogFile.run les := by
  refine Runs.run_history (P := fun es (s : LogSetup) => ∃ les : List LogEvent,
    les.Sublist (es.filterMap LogSetupEvent.log?) ∧ s.log = LogFile.run les)
    ⟨[], List.Sublist.refl _, rfl⟩ ?_ es
  rintro es s e ⟨les, hsub, hlog⟩
  rw [List.filterMap_append]
  have hsame : ∃ les : List LogEvent,
      les.Sublist (es.filterMap LogSetupEvent.log? ++ [e].filterMap LogSetupEvent.log?) ∧
        s.log = LogFile.run les := ⟨les, hsub.trans (List.sublist_append_left _ _), hlog⟩
  by_cases hallowed : s.allowed e = true
  · rw [step, if_pos hallowed]
    cases he : e.log? with
    | none => exact hsame
    | some e' =>
      refine ⟨les ++ [e'], hsub.append ?_, ?_⟩
      · rw [List.filterMap_cons_some he, List.filterMap_nil]
      · show s.log.step e' = _
        rw [LogFile.run, Runs.run_snoc, hlog]
        rfl
  · rw [step, if_neg hallowed]
    exact hsame

end LogSetup

/-- **The log is written with a mutex that was made**, if nobody comes in between while it is
created; until then nobody has locked it.  What holds of all runs of `LogFile` holds of the log. -/
theorem log_run_ready (es : List LogSetupEvent) :
    let s := LogSetup.run es
    (∃ les : List LogEvent, les.Sublist (es.filterMap LogSetupEvent.log?) ∧
        s.log = LogFile.run les) ∧
      (Runs.Along LogSetup.step LogSetup.Undisturbed {} es →
        (∀ t, s.log.threads t ≠ .outside → s.setup.shm = .initialised) ∧
          (s.setup.shm ≠ .initialised → s.log.mutex = .free)) := by
  refine ⟨LogSetup.log_run es, fun hes => ?_⟩
  have hbehind : LogSetup.Behind (LogSetup.run es) :=
    Runs.run_invariant_along (P := LogSetup.Behind) (fun _ _ h he => LogSetup.behind_step h he)
      ⟨MutexSetup.made_start, fun _ ht => absurd rfl ht, fun _ => rfl⟩ hes
  exact ⟨fun t ht => hbehind.made.ready t (hbehind.calls t ht), hbehind.free⟩

example : (LogSetup.run [.setup (.call ⟨1, 0⟩), .setup (.create ⟨1, 0⟩), .setup (.truncate ⟨1, 0⟩),
    .setup (.init ⟨1, 0⟩), .setup (.map ⟨1, 0⟩), .log (.call ⟨1, 0⟩ (Bytes.str "record")),
    .log (.lock ⟨1, 0⟩), .log (.recover ⟨1, 0⟩), .log (.put ⟨1, 0⟩ 6),
    .log (.drain ⟨1, 0⟩ 6)]).log.file = Bytes.str "record" := by decide

end ModDup
