import ModDup.Compare.Filters
import ModDup.Lib.Sections

/-!
# The log file and the processes of the server

All threads of all server processes append to one file, each process through a stream of its own
(`gFile`).  A robust mutex in shared memory keeps them apart: `writeDifferences` takes it before the
record goes to the stream, flushes the stream and releases it (`src/response_diff.cc`,
`src/mod_compare.cc`).  A process can die anywhere; its threads and its stream die with it.

Here the calls are cut into the steps that the other threads can see.  A call is one that has passed
the checks for the file and the mutex; `writeRecord` is the same call in one piece.  The threads
have a mutex that was made; how they come to it, and when it is so, is the subject of
`Compare.MutexSetup` (`log_run_ready`).

Two things are not part of these runs.  Locations that write serialized requests: an archive writes
its last bytes when it is destroyed, and then the mutex is already released.  And requests with
`comp_truncate` in their URI: `outputFilterHandler` closes the log and opens it again, empty,
without the mutex (`src/filters_compare.cc`).

## Main definitions

* `Mutex` : the robust mutex.
* `LogFile`, `LogFile.step` : the file, the streams, the mutex and the threads.

## Main results

* `log_mutex_safe` : the mutex does its work, whatever process dies.
* `log_calls_return` : no call is stuck.
* `log_records_whole` : no record is mixed with another.
-/

namespace ModDup

open Bytes

/-! ### The mutex -/

/-- A thread of a server process. -/
structure Thread where
  pid : ℕ
  tid : ℕ
  deriving DecidableEq, Repr

/-- A `pthread_mutex_t` that is shared by processes and robust. -/
inductive Mutex where
  | free
  /-- Held; `inconsistent` if the owner before has died, until `pthread_mutex_consistent`. -/
  | held (owner : Thread) (inconsistent : Bool)
  | ownerDead
  | notRecoverable
  deriving DecidableEq, Repr

/-- What `pthread_mutex_lock` returns. -/
inductive LockResult where
  | ok
  | eOwnerDead
  | eNotRecoverable
  deriving DecidableEq, Repr

namespace Mutex

/-- `pthread_mutex_lock`; `none` while it blocks. -/
def lock (t : Thread) : Mutex → Option (LockResult × Mutex)
  | free => some (.ok, held t false)
  | held _ _ => none
  | ownerDead => some (.eOwnerDead, held t true)
  | notRecoverable => some (.eNotRecoverable, notRecoverable)

/-- `pthread_mutex_consistent`. -/
def consistent (t : Thread) : Mutex → Mutex
  | held owner inconsistent => held owner (inconsistent && owner ≠ t)
  | m => m

/-- `pthread_mutex_unlock`, by its owner. -/
def unlock (t : Thread) : Mutex → Mutex
  | held owner inconsistent =>
    if owner = t then if inconsistent then notRecoverable else free else held owner inconsistent
  | m => m

/-- A process ends. -/
def die (pid : ℕ) : Mutex → Mutex
  | held owner inconsistent => if owner.pid = pid then ownerDead else held owner inconsistent
  | m => m

end Mutex

/-! ### The calls in steps -/

/-- Where a thread is in `writeDifferences`. -/
inductive WritePoint where
  | outside
  /-- At `pthread_mutex_lock`. -/
  | before (record : Bytes)
  /-- `pthread_mutex_lock` has returned. -/
  | locked (record : Bytes) (result : LockResult)
  /-- The record goes to the stream; `rest` is not there yet. -/
  | writing (record : Bytes) (rest : Bytes)
  /-- At `gFile.flush()`. -/
  | flushing (record : Bytes)
  deriving DecidableEq

/-- The log file and those who write to it. -/
structure LogFile where
  file : Bytes := []
  /-- What is in the buffer of the `gFile` of a process. -/
  streams : ℕ → Bytes := fun _ => []
  mutex : Mutex := .free
  threads : Thread → WritePoint := fun _ => .outside
  /-- The calls that have returned, in order. -/
  returned : List (Thread × Bytes) := []

/-- What can happen. -/
inductive LogEvent where
  /-- A thread comes to write a record. -/
  | call (t : Thread) (record : Bytes)
  | lock (t : Thread)
  /-- The result of the lock is looked at. -/
  | recover (t : Thread)
  /-- The next bytes of the record go to the stream. -/
  | put (t : Thread) (n : ℕ)
  /-- The stream writes its first bytes to the file, while it takes a record or is flushed. -/
  | drain (t : Thread) (n : ℕ)
  | flush (t : Thread)
  | unlock (t : Thread)
  /-- A process dies. -/
  | die (pid : ℕ)
  /-- A process ends by itself: the stream writes what it has when it is destroyed. -/
  | exit (pid : ℕ)
  deriving DecidableEq

namespace LogFile

/-- A thread goes on. -/
def goto (s : LogFile) (t : Thread) (point : WritePoint) : LogFile :=
  { s with threads := Function.update s.threads t point }

@[simp] theorem goto_threads_self (s : LogFile) (t : Thread) (point : WritePoint) :
    (s.goto t point).threads t = point := Function.update_self ..

theorem goto_threads_of_ne (s : LogFile) {t u : Thread} (h : u ≠ t) (point : WritePoint) :
    (s.goto t point).threads u = s.threads u := Function.update_of_ne h ..

/-- The stream of a process writes its first bytes. -/
def drain (s : LogFile) (pid n : ℕ) : LogFile :=
  { s with
    file := s.file ++ (s.streams pid).take n
    streams := Function.update s.streams pid ((s.streams pid).drop n) }

/-- The call returns, after the mutex was released. -/
def unlock (s : LogFile) (t : Thread) (record : Bytes) : LogFile :=
  { s.goto t .outside with mutex := s.mutex.unlock t, returned := s.returned ++ [(t, record)] }

/-- A process is gone. -/
def die (s : LogFile) (pid : ℕ) : LogFile :=
  { s with
    streams := Function.update s.streams pid []
    mutex := s.mutex.die pid
    threads := fun t => if t.pid = pid then .outside else s.threads t }

theorem die_threads (s : LogFile) (pid : ℕ) (t : Thread) :
    (s.die pid).threads t = if t.pid = pid then .outside else s.threads t := rfl

/-- One step; what cannot happen changes nothing. -/
def step (s : LogFile) : LogEvent → LogFile
  | .call t record => match s.threads t with
    | .outside => s.goto t (.before record)
    | _ => s
  | .lock t => match s.threads t with
    | .before record => match s.mutex.lock t with
      | none => s
      | some (result, mutex) => { s.goto t (.locked record result) with mutex := mutex }
    | _ => s
  | .recover t => match s.threads t with
    | .locked record result =>
      { s.goto t (.writing record record) with
        -- any other result is taken for a lock
        mutex := if result = .eOwnerDead then s.mutex.consistent t else s.mutex }
    | _ => s
  | .put t n => match s.threads t with
    | .writing record rest =>
      { s.goto t (.writing record (rest.drop n)) with
        streams := Function.update s.streams t.pid (s.streams t.pid ++ rest.take n) }
    | _ => s
  | .drain t n => match s.threads t with
    | .writing _ _ | .flushing _ => s.drain t.pid n
    | _ => s
  | .flush t => match s.threads t with
    | .writing record [] => s.goto t (.flushing record)
    | _ => s
  | .unlock t => match s.threads t with
    | .flushing record => if s.streams t.pid = [] then s.unlock t record else s
    | _ => s
  | .die pid => s.die pid
  | .exit pid => (s.drain pid (s.streams pid).length).die pid

/-- What a step does, by what can happen. -/
inductive Moves (s : LogFile) : LogEvent → LogFile → Prop where
  | nothing (e : LogEvent) : Moves s e s
  | call (t : Thread) (record : Bytes) (hpoint : s.threads t = .outside) :
    Moves s (.call t record) (s.goto t (.before record))
  | lock (t : Thread) (record : Bytes) (result : LockResult) (mutex : Mutex)
    (hpoint : s.threads t = .before record) (hlock : s.mutex.lock t = some (result, mutex)) :
    Moves s (.lock t) { s.goto t (.locked record result) with mutex := mutex }
  | recover (t : Thread) (record : Bytes) (result : LockResult)
    (hpoint : s.threads t = .locked record result) :
    Moves s (.recover t) { s.goto t (.writing record record) with
      mutex := if result = .eOwnerDead then s.mutex.consistent t else s.mutex }
  | put (t : Thread) (n : ℕ) (record : Bytes) (rest : Bytes)
    (hpoint : s.threads t = .writing record rest) :
    Moves s (.put t n) { s.goto t (.writing record (rest.drop n)) with
      streams := Function.update s.streams t.pid (s.streams t.pid ++ rest.take n) }
  | drain (t : Thread) (n : ℕ) (record : Bytes)
    (hpoint : (∃ rest, s.threads t = .writing record rest) ∨ s.threads t = .flushing record) :
    Moves s (.drain t n) (s.drain t.pid n)
  | flush (t : Thread) (record : Bytes) (hpoint : s.threads t = .writing record []) :
    Moves s (.flush t) (s.goto t (.flushing record))
  | leave (t : Thread) (record : Bytes)
    (hpoint : s.threads t = .flushing record) (hempty : s.streams t.pid = []) :
    Moves s (.unlock t) (s.unlock t record)
  | die (pid : ℕ) : Moves s (.die pid) (s.die pid)
  | exit (pid : ℕ) :
    Moves s (.exit pid) ((s.drain pid (s.streams pid).length).die pid)

theorem moves_step (s : LogFile) (e : LogEvent) :
    Moves s e (s.step e) := by
  cases e with
  | call t record =>
    cases hpoint : s.threads t with
    | outside =>
      simp only [step, hpoint]
      exact .call t record hpoint
    | _ =>
      simp only [step, hpoint]
      exact .nothing _
  | lock t =>
    cases hpoint : s.threads t with
    | before record =>
      simp only [step, hpoint]
      cases hlock : s.mutex.lock t with
      | none => exact .nothing _
      | some p => exact .lock t record p.1 p.2 hpoint hlock
    | _ =>
      simp only [step, hpoint]
      exact .nothing _
  | recover t =>
    cases hpoint : s.threads t with
    | locked record result =>
      simp only [step, hpoint]
      exact .recover t record result hpoint
    | _ =>
      simp only [step, hpoint]
      exact .nothing _
  | put t n =>
    cases hpoint : s.threads t with
    | writing record rest =>
      simp only [step, hpoint]
      exact .put t n record rest hpoint
    | _ =>
      simp only [step, hpoint]
      exact .nothing _
  | drain t n =>
    cases hpoint : s.threads t with
    | writing record rest =>
      simp only [step, hpoint]
      exact .drain t n record (.inl ⟨rest, hpoint⟩)
    | flushing record =>
      simp only [step, hpoint]
      exact .drain t n record (.inr hpoint)
    | _ =>
      simp only [step, hpoint]
      exact .nothing _
  | flush t =>
    cases hpoint : s.threads t with
    | writing record rest =>
      cases rest with
      | nil =>
        simp only [step, hpoint]
        exact .flush t record hpoint
      | cons b rest =>
        simp only [step, hpoint]
        exact .nothing _
    | _ =>
      simp only [step, hpoint]
      exact .nothing _
  | unlock t =>
    cases hpoint : s.threads t with
    | flushing record =>
      simp only [step, hpoint]
      split_ifs with hempty
      · exact .leave t record hpoint hempty
      · exact .nothing _
    | _ =>
      simp only [step, hpoint]
      exact .nothing _
  | die pid => exact .die pid
  | exit pid => exact .exit pid

/-- The state after a list of events. -/
def run (es : List LogEvent) : LogFile :=
  Runs.run step {} es

end LogFile

/-! ### The calls as sections -/

section Sections

open Sections (St Ev)

/-- A thread is between the lock and the return. -/
def WritePoint.Inside : WritePoint → Prop
  | .outside | .before _ => False
  | .locked _ _ | .writing _ _ | .flushing _ => True

/-- A call of a thread, as a section. -/
def callSection : Sections.Labelling (Thread × Bytes) ℕ UInt8 where
  home l := l.1.pid
  text l := l.2

/-- A thread has the mutex, and the rest of its record is not in the stream yet. -/
inductive Has (t : Thread) (record : Bytes) : Bytes → Mutex → WritePoint → Prop where
  | locked : Has t record record (.held t false) (.locked record .ok)
  | recovering : Has t record record (.held t true) (.locked record .eOwnerDead)
  | writing (rest : Bytes) : Has t record rest (.held t false) (.writing record rest)
  | flushing : Has t record [] (.held t false) (.flushing record)

/-- **The threads and the mutex make sections**: who has the mutex has the section open. -/
structure Sim (s : LogFile) (a : St (Thread × Bytes) ℕ UInt8) : Prop where
  file : s.file = a.out
  streams : s.streams = a.buf
  returned : s.returned = (a.past.filter fun x => x.left).map fun x => x.label
  idle : a.cur = none → (s.mutex = .free ∨ s.mutex = .ownerDead) ∧ ∀ t, ¬ (s.threads t).Inside
  busy : ∀ c, a.cur = some c →
    Has c.label.1 c.label.2 c.rest s.mutex (s.threads c.label.1) ∧
      ∀ t, t ≠ c.label.1 → ¬ (s.threads t).Inside

/-- The steps of the sections that a step of a thread stands for. -/
structure StandsFor (s : LogFile) (e : LogEvent) (s' : LogFile)
    (aes : List (Ev (Thread × Bytes) ℕ)) : Prop where
  enter : aes.filterMap Ev.entered? = [] ∨ ∃ l, aes.filterMap Ev.entered? = [l] ∧
    s.threads l.1 = .before l.2 ∧ s'.threads l.1 ≠ .before l.2
  ends : ∀ p, (.die p ∈ aes ∨ .spill p ∈ aes) → e = .die p ∨ e = .exit p

variable {s : LogFile} {a : St (Thread × Bytes) ℕ UInt8} {t : Thread}

theorem Has.inside {record rest : Bytes} {m : Mutex} {point : WritePoint}
    (h : Has t record rest m point) : point.Inside := by
  cases h <;> trivial

theorem Has.held {record rest : Bytes} {m : Mutex} {point : WritePoint}
    (h : Has t record rest m point) : ∃ inconsistent, m = .held t inconsistent := by
  cases h <;> exact ⟨_, rfl⟩

theorem Has.of_locked {e record rest : Bytes} {m : Mutex} {result : LockResult}
    (h : Has t e rest m (.locked record result)) : e = record ∧ rest = record ∧
      (result = .ok ∧ m = .held t false ∨ result = .eOwnerDead ∧ m = .held t true) := by
  cases h with
  | locked => exact ⟨rfl, rfl, .inl ⟨rfl, rfl⟩⟩
  | recovering => exact ⟨rfl, rfl, .inr ⟨rfl, rfl⟩⟩

theorem Has.of_writing {e record rest rest' : Bytes} {m : Mutex}
    (h : Has t e rest m (.writing record rest')) :
    e = record ∧ rest = rest' ∧ m = .held t false := by
  cases h
  exact ⟨rfl, rfl, rfl⟩

theorem Has.of_flushing {e record rest : Bytes} {m : Mutex}
    (h : Has t e rest m (.flushing record)) :
    e = record ∧ rest = [] ∧ m = .held t false := by
  cases h
  exact ⟨rfl, rfl, rfl⟩

/-- The mutex is consistent when the result of the lock was looked at. -/
theorem mutex_recovered {t : Thread} {m : Mutex} {result : LockResult}
    (h : result = .ok ∧ m = .held t false ∨ result = .eOwnerDead ∧ m = .held t true) :
    (if result = .eOwnerDead then m.consistent t else m) = .held t false := by
  rcases h with ⟨rfl, rfl⟩ | ⟨rfl, rfl⟩
  · rfl
  · rw [if_pos rfl, Mutex.consistent]
    simp

namespace Sim

theorem cur_of_inside (h : Sim s a) (ht : (s.threads t).Inside) :
    ∃ c, a.cur = some c ∧ c.label.1 = t ∧
      Has t c.label.2 c.rest s.mutex (s.threads t) := by
  cases hcur : a.cur with
  | none => exact absurd ht ((h.idle hcur).2 t)
  | some c =>
    obtain ⟨hhas, hothers⟩ := h.busy c hcur
    by_cases hc : c.label.1 = t
    · subst hc
      exact ⟨c, rfl, rfl, hhas⟩
    · exact absurd ht (hothers t (Ne.symm hc))

theorem cur_at (h : Sim s a) {point : WritePoint} (hpoint : s.threads t = point)
    (hin : point.Inside) :
    ∃ c, a.cur = some c ∧ c.label.1 = t ∧ Has t c.label.2 c.rest s.mutex point := by
  subst hpoint
  exact h.cur_of_inside hin

theorem goto (h : Sim s a) (ht : ¬ (s.threads t).Inside) {point : WritePoint}
    (hpoint : ¬ point.Inside) : Sim (s.goto t point) a := by
  have hinside : ∀ u, ((s.goto t point).threads u).Inside → (s.threads u).Inside := by
    intro u hu
    by_cases hut : u = t
    · subst hut
      rw [LogFile.goto_threads_self] at hu
      exact absurd hu hpoint
    · rwa [LogFile.goto_threads_of_ne s hut] at hu
  refine ⟨h.file, h.streams, h.returned, fun hcur => ?_, fun c hcur => ?_⟩
  · exact ⟨(h.idle hcur).1, fun u hu => (h.idle hcur).2 u (hinside u hu)⟩
  · obtain ⟨hhas, hothers⟩ := h.busy c hcur
    have hne : c.label.1 ≠ t := fun heq => ht (heq ▸ hhas.inside)
    refine ⟨?_, fun u hu hin => hothers u hu (hinside u hin)⟩
    rw [LogFile.goto_threads_of_ne s hne]
    exact hhas

theorem goto_within (h : Sim s a) {c : Sections.Current (Thread × Bytes) UInt8}
    (hcur : a.cur = some c) (c' : Sections.Current (Thread × Bytes) UInt8)
    (hlabel : c'.label = c.label) {point : WritePoint} {m : Mutex}
    (hhas : Has c.label.1 c.label.2 c'.rest m point) (file : Bytes) (streams : ℕ → Bytes) :
    Sim
      { s.goto c.label.1 point with file := file, streams := streams, mutex := m }
      { a with out := file, buf := streams, cur := some c' } := by
  refine ⟨rfl, rfl, h.returned, fun hnone => (by cases hnone), fun c₁ hc₁ => ?_⟩
  obtain rfl : c' = c₁ := Option.some.inj hc₁
  rw [hlabel]
  refine ⟨?_, fun u hu => ?_⟩
  · show Has c.label.1 c.label.2 c'.rest m ((s.goto c.label.1 point).threads c.label.1)
    rwa [LogFile.goto_threads_self]
  · show ¬ ((s.goto c.label.1 point).threads u).Inside
    rw [LogFile.goto_threads_of_ne s hu]
    exact (h.busy c hcur).2 u hu

theorem goto_inside (h : Sim s a) {c : Sections.Current (Thread × Bytes) UInt8}
    (hcur : a.cur = some c) {point : WritePoint} {m : Mutex}
    (hhas : Has c.label.1 c.label.2 c.rest m point) :
    Sim { s.goto c.label.1 point with mutex := m } a := by
  have hsame : { a with out := s.file, buf := s.streams, cur := some c } = a := by
    rw [h.file, h.streams, ← hcur]
  have hwithin := h.goto_within hcur c rfl hhas s.file s.streams
  rw [hsame] at hwithin
  exact hwithin

theorem unlock (h : Sim s a) {c : Sections.Current (Thread × Bytes) UInt8}
    (hcur : a.cur = some c) (hm : s.mutex = .held c.label.1 false) :
    Sim (s.unlock c.label.1 c.label.2)
      { a with cur := none, past := a.past ++ [c.close true] } := by
  refine ⟨h.file, h.streams, ?_, fun _ => ⟨.inl ?_, fun u => ?_⟩, fun c' hc' => (by cases hc')⟩
  · show s.returned ++ [c.label] = _
    rw [h.returned, List.filter_append, List.map_append]
    rfl
  · show s.mutex.unlock c.label.1 = .free
    rw [hm, Mutex.unlock, if_pos rfl, if_neg (by decide)]
  · show ¬ ((s.goto c.label.1 .outside).threads u).Inside
    by_cases hu : u = c.label.1
    · rw [hu, LogFile.goto_threads_self]
      exact id
    · rw [LogFile.goto_threads_of_ne s hu]
      exact (h.busy c hcur).2 u hu

theorem die (h : Sim s a) (pid : ℕ) :
    Sim (s.die pid) (Sections.step callSection a (.die pid)) := by
  have hinside : ∀ u, ((s.die pid).threads u).Inside → u.pid ≠ pid ∧ (s.threads u).Inside := by
    intro u hu
    rw [LogFile.die_threads] at hu
    split_ifs at hu with hpid
    · exact hu.elim
    · exact ⟨hpid, hu⟩
  have hstreams : (s.die pid).streams = Function.update a.buf pid [] := by
    rw [LogFile.die, h.streams]
  cases hcur : a.cur with
  | none =>
    rw [Sections.step_die_lose fun c hc => by rw [hcur] at hc; cases hc]
    obtain ⟨hmutex, hthreads⟩ := h.idle hcur
    refine ⟨h.file, hstreams, h.returned, fun _ => ⟨?_, fun u hu => ?_⟩, fun c hc => ?_⟩
    · show s.mutex.die pid = .free ∨ s.mutex.die pid = .ownerDead
      rcases hmutex with hm | hm
      · rw [hm]
        exact .inl rfl
      · rw [hm]
        exact .inr rfl
    · exact hthreads u (hinside u hu).2
    · rw [show a.cur = some c from hc] at hcur
      cases hcur
  | some c =>
    obtain ⟨hhas, hothers⟩ := h.busy c hcur
    obtain ⟨inconsistent, hm⟩ := hhas.held
    by_cases hpid : c.label.1.pid = pid
    · rw [Sections.step_die_cut hcur hpid]
      refine ⟨h.file, hstreams, ?_, fun _ => ⟨.inr ?_, fun u hu => ?_⟩,
        fun c' hc' => (by cases hc')⟩
      · show s.returned = _
        rw [h.returned, List.filter_append, List.map_append]
        simp [Sections.Current.close]
      · show s.mutex.die pid = .ownerDead
        rw [hm, Mutex.die, if_pos hpid]
      · obtain ⟨hne, hu⟩ := hinside u hu
        refine hothers u (fun heq => hne ?_) hu
        rw [heq, hpid]
    · rw [Sections.step_die_lose fun c' hc' => by rwa [← Option.some.inj (hcur.symm.trans hc')]]
      refine ⟨h.file, hstreams, h.returned, fun hnone => ?_, fun c' hc' => ?_⟩
      · rw [show a.cur = none from hnone] at hcur
        cases hcur
      · obtain rfl : c = c' := Option.some.inj (hcur.symm.trans hc')
        refine ⟨?_, fun u hu hin => hothers u hu (hinside u hin).2⟩
        have hmutex : (s.die pid).mutex = s.mutex := by
          rw [LogFile.die, hm, Mutex.die, if_neg hpid]
        have hpoint : (s.die pid).threads c.label.1 = s.threads c.label.1 := if_neg hpid
        rw [hmutex, hpoint]
        exact hhas

theorem drain (h : Sim s a) {c : Sections.Current (Thread × Bytes) UInt8}
    (hcur : a.cur = some c) (n : ℕ) :
    Sim (s.drain c.label.1.pid n) (Sections.step callSection a (.drain n)) := by
  rw [Sections.step_drain hcur]
  refine ⟨?_, ?_, h.returned, fun hnone => (by cases hnone), fun c' hc' => ?_⟩
  · show s.file ++ (s.streams c.label.1.pid).take n = _
    rw [h.file, h.streams]
    rfl
  · show Function.update s.streams _ _ = _
    rw [h.streams]
    rfl
  · cases hc'
    exact h.busy c hcur

theorem exit (h : Sim s a) {pid : ℕ}
    (hpid : ∀ c, a.cur = some c → c.label.1.pid ≠ pid) :
    Sim ((s.drain pid (s.streams pid).length).die pid)
      (Sections.step callSection a (.spill pid)) := by
  have hdie := h.die pid
  rw [Sections.step_die_lose hpid] at hdie
  rw [Sections.step_spill hpid]
  refine ⟨?_, ?_, hdie.returned, hdie.idle, hdie.busy⟩
  · show s.file ++ (s.streams pid).take (s.streams pid).length = a.out ++ a.buf pid
    rw [List.take_length, h.file, h.streams]
  · show Function.update (Function.update s.streams pid _) pid [] = Function.update a.buf pid []
    rw [Function.update_idem, h.streams]

end Sim

/-- An event that neither opens a section nor ends a party. -/
def Quiet (x : Ev (Thread × Bytes) ℕ) : Prop :=
  x.entered? = none ∧ (∀ p, x ≠ .die p) ∧ ∀ p, x ≠ .spill p

theorem StandsFor.of_quiet {e : LogEvent} {s' : LogFile} {aes : List (Ev (Thread × Bytes) ℕ)}
    (h : ∀ x ∈ aes, Quiet x) : StandsFor s e s' aes := by
  refine ⟨.inl (List.filterMap_eq_nil_iff.2 fun x hx => (h x hx).1), fun p hp => ?_⟩
  rcases hp with hp | hp
  · exact absurd rfl ((h _ hp).2.1 p)
  · exact absurd rfl ((h _ hp).2.2 p)

theorem quiet_put (n : ℕ) : Quiet (.put n) :=
  ⟨rfl, fun _ h => (by cases h), fun _ h => (by cases h)⟩

theorem quiet_drain (n : ℕ) : Quiet (.drain n) :=
  ⟨rfl, fun _ h => (by cases h), fun _ h => (by cases h)⟩

theorem quiet_leave : Quiet .leave :=
  ⟨rfl, fun _ h => (by cases h), fun _ h => (by cases h)⟩

/-- The sections follow a step of the threads. -/
def Follows (s : LogFile) (a : St (Thread × Bytes) ℕ UInt8)
    (e : LogEvent) (s' : LogFile) : Prop :=
  ∃ aes, Sim s' (Runs.run (Sections.step callSection) a aes) ∧
    StandsFor s e s' aes

theorem follows_quiet {e : LogEvent} {s' : LogFile} {x : Ev (Thread × Bytes) ℕ} (hx : Quiet x)
    (h : Sim s' (Sections.step callSection a x)) : Follows s a e s' :=
  ⟨[x], h, .of_quiet fun _ hy => List.mem_singleton.1 hy ▸ hx⟩

theorem follows_nothing {e : LogEvent} {s' : LogFile} (h : Sim s' a) :
    Follows s a e s' := ⟨[], h, .of_quiet fun _ hx => by cases hx⟩

theorem follows_lock (h : Sim s a) {record : Bytes} {result : LockResult} {m : Mutex}
    (hpoint : s.threads t = .before record) (hlock : s.mutex.lock t = some (result, m)) :
    Follows s a (.lock t) { s.goto t (.locked record result) with mutex := m } := by
  cases hcur : a.cur with
  | some c =>
    -- the mutex is held, so the lock blocks
    obtain ⟨inconsistent, hm⟩ := (h.busy c hcur).1.held
    rw [hm] at hlock
    cases hlock
  | none =>
    obtain ⟨hmutex, hthreads⟩ := h.idle hcur
    have hhas : Has t record record m (.locked record result) := by
      rcases hmutex with hm | hm
      · rw [hm] at hlock
        cases hlock
        exact .locked
      · rw [hm] at hlock
        cases hlock
        exact .recovering
    refine ⟨[.enter (t, record)], ?_, .inr ⟨(t, record), rfl, hpoint, ?_⟩, ?_⟩
    · show Sim _ (Sections.step callSection a (.enter (t, record)))
      rw [Sections.step_enter hcur]
      refine ⟨h.file, h.streams, h.returned, fun hnone => (by cases hnone), fun c hc => ?_⟩
      cases hc
      refine ⟨?_, fun u hu => ?_⟩
      · show Has t record _ m ((s.goto t _).threads t)
        rw [LogFile.goto_threads_self]
        exact hhas
      · show ¬ ((s.goto t _).threads u).Inside
        rw [LogFile.goto_threads_of_ne s hu]
        exact hthreads u
    · show (s.goto t _).threads t ≠ .before record
      rw [LogFile.goto_threads_self]
      exact fun hsame => by cases hsame
    · intro p hp
      simp at hp

theorem follows_die (h : Sim s a) (pid : ℕ) :
    Follows s a (.die pid) (s.die pid) := by
  refine ⟨[.die pid], h.die pid, .inl rfl, fun p hp => ?_⟩
  obtain rfl : p = pid := by simpa using hp
  exact .inl rfl

theorem follows_exit (h : Sim s a) (pid : ℕ) :
    Follows s a (.exit pid) ((s.drain pid (s.streams pid).length).die pid) := by
  by_cases hpid : ∀ c, a.cur = some c → c.label.1.pid ≠ pid
  · refine ⟨[.spill pid], h.exit hpid, .inl rfl, fun p hp => ?_⟩
    obtain rfl : p = pid := by simpa using hp
    exact .inr rfl
  · -- the process ends in the section: its stream is written, and then it is gone
    push Not at hpid
    obtain ⟨c, hcur, rfl⟩ := hpid
    set n := (s.streams c.label.1.pid).length
    refine ⟨[.drain n, .die c.label.1.pid], (h.drain hcur n).die _, .inl rfl, fun p hp => ?_⟩
    obtain rfl : p = c.label.1.pid := by simpa using hp
    exact .inr rfl

/-- **The sections follow every step of the threads.** -/
theorem follows_step (h : Sim s a) {e : LogEvent} {s' : LogFile}
    (hs' : LogFile.Moves s e s') : Follows s a e s' := by
  cases hs' with
  | nothing => exact follows_nothing h
  | call t record hpoint =>
    refine follows_nothing (h.goto ?_ id)
    rw [hpoint]
    exact id
  | lock t record result m hpoint hlock => exact follows_lock h hpoint hlock
  | recover t record result hpoint =>
    obtain ⟨c, hcur, rfl, hhas⟩ := h.cur_at hpoint trivial
    obtain ⟨rfl, hrest, hresult⟩ := hhas.of_locked
    refine follows_nothing (h.goto_inside hcur ?_)
    -- the mutex is consistent now, whoever had it before
    rw [mutex_recovered hresult, hrest]
    exact .writing _
  | put t n record rest hpoint =>
    obtain ⟨c, hcur, rfl, hhas⟩ := h.cur_at hpoint trivial
    obtain ⟨rfl, rfl, hm⟩ := hhas.of_writing
    refine follows_quiet (quiet_put n) ?_
    rw [Sections.step_put hcur, ← h.streams, ← h.file]
    refine h.goto_within hcur { c with rest := c.rest.drop n } rfl ?_ s.file _
    show Has c.label.1 c.label.2 (c.rest.drop n) s.mutex _
    rw [hm]
    exact .writing _
  | drain t n record hpoint =>
    have hin : (s.threads t).Inside := by
      rcases hpoint with ⟨rest, hpoint⟩ | hpoint
      · rw [hpoint]
        trivial
      · rw [hpoint]
        trivial
    obtain ⟨c, hcur, rfl, -⟩ := h.cur_of_inside hin
    exact follows_quiet (quiet_drain n) (h.drain hcur n)
  | flush t record hpoint =>
    obtain ⟨c, hcur, rfl, hhas⟩ := h.cur_at hpoint trivial
    obtain ⟨rfl, hrest, hm⟩ := hhas.of_writing
    refine follows_nothing ?_
    refine h.goto_inside hcur ?_
    show Has c.label.1 c.label.2 c.rest s.mutex _
    rw [hm, hrest]
    exact .flushing
  | leave t record hpoint hempty =>
    obtain ⟨c, hcur, rfl, hhas⟩ := h.cur_at hpoint trivial
    obtain ⟨rfl, hrest, hm⟩ := hhas.of_flushing
    have hbuf : a.buf (callSection.home c.label) = [] := by
      rw [← h.streams]
      exact hempty
    refine follows_quiet quiet_leave ?_
    rw [Sections.step_leave hcur hrest hbuf]
    exact h.unlock hcur hm
  | die pid => exact follows_die h pid
  | exit pid => exact follows_exit h pid

end Sections

/-! ### Whole runs -/

theorem LogFile.Moves.before {s s' : LogFile} {e : LogEvent}
    (h : LogFile.Moves s e s') {t : Thread} {record : Bytes}
    (ht : s'.threads t = .before record) :
    s.threads t = .before record ∨ e = .call t record := by
  have hgoto : ∀ {u : Thread} {point : WritePoint}, (s.goto u point).threads t = .before record →
      s.threads t = .before record ∨ u = t ∧ point = .before record := by
    intro u point hgo
    by_cases hu : t = u
    · subst hu
      rw [goto_threads_self] at hgo
      exact .inr ⟨rfl, hgo⟩
    · rw [goto_threads_of_ne s hu] at hgo
      exact .inl hgo
  have hdie : ∀ pid, (s.die pid).threads t = .before record → s.threads t = .before record := by
    intro pid hd
    rw [die_threads] at hd
    split_ifs at hd
    exact hd
  cases h with
  | nothing => exact .inl ht
  | call u record' hpoint =>
    rcases hgoto ht with hs | ⟨rfl, hentry⟩
    · exact .inl hs
    · cases hentry
      exact .inr rfl
  | lock u record' result mutex hpoint =>
    exact .inl ((hgoto ht).resolve_right fun h => by cases h.2)
  | recover u record' result hpoint => exact .inl ((hgoto ht).resolve_right fun h => by cases h.2)
  | put u n record' rest hpoint => exact .inl ((hgoto ht).resolve_right fun h => by cases h.2)
  | drain => exact .inl ht
  | flush u record' hpoint => exact .inl ((hgoto ht).resolve_right fun h => by cases h.2)
  | leave u record' hpoint => exact .inl ((hgoto ht).resolve_right fun h => by cases h.2)
  | die pid => exact .inl (hdie pid ht)
  | exit pid => exact .inl (hdie pid ht)

theorem LogFile.Moves.outside {s s' : LogFile} {e : LogEvent} (h : LogFile.Moves s e s')
    {t : Thread} (ht : s.threads t = .outside) :
    s'.threads t = .outside ∨ ∃ record, e = .call t record := by
  have hgoto : ∀ {u : Thread} {point : WritePoint}, s.threads u ≠ .outside →
      (s.goto u point).threads t = .outside := by
    intro u point hu
    have hne : t ≠ u := by
      rintro rfl
      exact hu ht
    rw [goto_threads_of_ne s hne]
    exact ht
  have hdie : ∀ pid, (s.die pid).threads t = .outside := by
    intro pid
    rw [die_threads, ht, ite_self]
  cases h with
  | nothing => exact .inl ht
  | call u record hpoint =>
    by_cases hu : t = u
    · exact .inr ⟨record, by rw [hu]⟩
    · left
      rw [goto_threads_of_ne s hu]
      exact ht
  | lock u record result mutex hpoint => exact .inl (hgoto (by simp [hpoint]))
  | recover u record result hpoint => exact .inl (hgoto (by simp [hpoint]))
  | put u n record rest hpoint => exact .inl (hgoto (by simp [hpoint]))
  | drain => exact .inl ht
  | flush u record hpoint => exact .inl (hgoto (by simp [hpoint]))
  | leave u record hpoint => exact .inl (hgoto (by simp [hpoint]))
  | die pid => exact .inl (hdie pid)
  | exit pid => exact .inl (hdie pid)

/-- While no thread is in a call, the mutex stays free. -/
theorem LogFile.Moves.free {s s' : LogFile} {e : LogEvent} (h : LogFile.Moves s e s')
    (hout : ∀ t, s.threads t = .outside) (hm : s.mutex = .free) : s'.mutex = .free := by
  have hnone : ∀ {t : Thread} {point : WritePoint}, point ≠ .outside → s.threads t ≠ point :=
    fun hpoint ht => hpoint (ht.symm.trans (hout _))
  cases h with
  | nothing => exact hm
  | call => exact hm
  | lock t record result mutex hpoint => exact absurd hpoint (hnone (by simp))
  | recover t record result hpoint => exact absurd hpoint (hnone (by simp))
  | put => exact hm
  | drain => exact hm
  | flush => exact hm
  | leave t record hpoint => exact absurd hpoint (hnone (by simp))
  | die pid =>
    show s.mutex.die pid = .free
    rw [hm]
    rfl
  | exit pid =>
    show s.mutex.die pid = .free
    rw [hm]
    rfl

/-- A call that is at the lock. -/
def LogFile.waiting (s : LogFile) (c : Thread × Bytes) : ℕ :=
  if s.threads c.1 = .before c.2 then 1 else 0

/-- A step enters the section of a call that was at the lock and is not there any more. -/
theorem StandsFor.count_entered {s s' : LogFile} {e : LogEvent}
    {aes : List (Sections.Ev (Thread × Bytes) ℕ)} (h : StandsFor s e s' aes)
    (hmoves : LogFile.Moves s e s') (c : Thread × Bytes) :
    (aes.filterMap Sections.Ev.entered?).count c + s'.waiting c ≤
      s.waiting c + [e].count (.call c.1 c.2) := by
  have hcall : s'.waiting c ≤ s.waiting c + [e].count (.call c.1 c.2) := by
    unfold LogFile.waiting
    split_ifs with hafter hbefore
    · exact Nat.le_add_right ..
    · obtain rfl := (hmoves.before hafter).resolve_left hbefore
      rw [List.count_singleton_self]
    · exact Nat.zero_le _
    · exact Nat.zero_le _
  rcases h.enter with hnone | ⟨l, hentered, hbefore, hafter⟩
  · rw [hnone, List.count_nil, Nat.zero_add]
    exact hcall
  · rw [hentered]
    by_cases hl : l = c
    · subst hl
      rw [List.count_singleton_self, LogFile.waiting, LogFile.waiting, if_pos hbefore,
        if_neg hafter]
      exact Nat.le_add_right ..
    · rw [List.count_singleton, if_neg (by simpa using hl), Nat.zero_add]
      exact hcall

/-- What the events of the sections say about those of the threads. -/
structure Explained (es : List LogEvent)
    (aes : List (Sections.Ev (Thread × Bytes) ℕ)) : Prop where
  sim : Sim (LogFile.run es)
    (Runs.run (Sections.step callSection) {} aes)
  /-- A call is at the lock or enters its section, and no section is entered twice for it. -/
  enter : ∀ c, (aes.filterMap Sections.Ev.entered?).count c + (LogFile.run es).waiting c ≤
    es.count (.call c.1 c.2)
  ends : ∀ p, (.die p ∈ aes ∨ .spill p ∈ aes) → .die p ∈ es ∨ .exit p ∈ es

theorem sim_start : Sim {} {} :=
  ⟨rfl, rfl, rfl, fun _ => ⟨.inl rfl, fun _ => id⟩, fun _ hc => (by cases hc)⟩

/-- **The sections follow every run of the threads.** -/
theorem explained_run (es : List LogEvent) :
    ∃ aes, Explained es aes := by
  induction es using List.reverseRecOn with
  | nil =>
    refine ⟨[], sim_start, fun c => ?_, fun p hp => ?_⟩
    · rw [show (LogFile.run []).waiting c = 0 from if_neg fun h => by cases h]
      exact Nat.zero_le _
    · simp at hp
  | append_singleton es e ih =>
    obtain ⟨aes, hsim, henter, hends⟩ := ih
    set s := LogFile.run es with hs
    have hnext : LogFile.run (es ++ [e]) = s.step e := by
      rw [LogFile.run, Runs.run_snoc]
      rfl
    have hmoves := LogFile.moves_step s e
    obtain ⟨new, hsim', hnew⟩ := follows_step hsim hmoves
    refine ⟨aes ++ new, ?_, fun c => ?_, fun p hp => ?_⟩
    · rw [hnext, Runs.run_append]
      exact hsim'
    · rw [hnext, List.filterMap_append, List.count_append, List.count_append, Nat.add_assoc]
      calc (aes.filterMap Sections.Ev.entered?).count c +
            ((new.filterMap Sections.Ev.entered?).count c + (s.step e).waiting c)
          ≤ (aes.filterMap Sections.Ev.entered?).count c +
              (s.waiting c + [e].count (.call c.1 c.2)) :=
            Nat.add_le_add_left (hnew.count_entered hmoves c) _
        _ ≤ es.count (.call c.1 c.2) + [e].count (.call c.1 c.2) := by
            rw [← Nat.add_assoc]
            exact Nat.add_le_add_right (henter c) _
    · rw [List.mem_append, List.mem_append, or_or_or_comm] at hp
      rw [List.mem_append, List.mem_append, or_or_or_comm]
      rcases hp with hp | hp
      · exact .inl (hends p hp)
      · refine .inr ?_
        rcases hnew.ends p hp with rfl | rfl
        · exact .inl (List.mem_singleton_self _)
        · exact .inr (List.mem_singleton_self _)

/-- **The mutex is safe whatever process dies, and wherever.**  At most one thread is between the
lock and the return; the mutex never becomes unrecoverable, so the error of the lock that nobody
looks at does not come; and a lock blocks only while a thread is between the two. -/
theorem log_mutex_safe (es : List LogEvent) :
    let s := LogFile.run es
    (∀ t u, (s.threads t).Inside → (s.threads u).Inside → t = u) ∧
      s.mutex ≠ .notRecoverable ∧
      ∀ t, s.mutex.lock t = none ↔ ∃ u, (s.threads u).Inside := by
  intro s
  obtain ⟨aes, hsim, -⟩ := explained_run es
  set a := Runs.run (Sections.step callSection) {} aes
  refine ⟨fun t u ht hu => ?_, ?_, fun t => ?_⟩
  · obtain ⟨c, hcur, rfl, -⟩ := hsim.cur_of_inside ht
    obtain ⟨c', hcur', rfl, -⟩ := hsim.cur_of_inside hu
    rw [Option.some.inj (hcur.symm.trans hcur')]
  · cases hcur : a.cur with
    | none =>
      rcases (hsim.idle hcur).1 with hm | hm
      · exact hm ▸ by decide
      · exact hm ▸ by decide
    | some c =>
      obtain ⟨inconsistent, hm⟩ := (hsim.busy c hcur).1.held
      intro hnot
      rw [show s.mutex = .held c.label.1 inconsistent from hm] at hnot
      cases hnot
  · cases hcur : a.cur with
    | none =>
      obtain ⟨hmutex, hthreads⟩ := hsim.idle hcur
      constructor
      · intro hblocks
        rcases hmutex with hm | hm
        · rw [show s.mutex = .free from hm] at hblocks
          cases hblocks
        · rw [show s.mutex = .ownerDead from hm] at hblocks
          cases hblocks
      · rintro ⟨u, hu⟩
        exact absurd hu (hthreads u)
    | some c =>
      obtain ⟨hhas, -⟩ := hsim.busy c hcur
      obtain ⟨inconsistent, hm⟩ := hhas.held
      constructor
      · exact fun _ => ⟨c.label.1, hhas.inside⟩
      · intro _
        rw [show s.mutex = .held c.label.1 inconsistent from hm]
        rfl

/-! ### Every call can return -/

/-- The record of the call a thread is in. -/
def WritePoint.record? : WritePoint → Option Bytes
  | .outside => none
  | .before record | .locked record _ | .writing record _ | .flushing record => some record

theorem WritePoint.before_of_record? {point : WritePoint} {record : Bytes}
    (h : point.record? = some record) (hin : ¬ point.Inside) : point = .before record := by
  cases point with
  | outside => cases h
  | before r =>
    obtain rfl : r = record := Option.some.inj h
    rfl
  | _ => exact absurd trivial hin

theorem Has.record? {t : Thread} {record rest : Bytes} {m : Mutex} {point : WritePoint}
    (h : Has t record rest m point) : point.record? = some record := by
  cases h <;> rfl

/-- The event is neither a call nor the end of a process. -/
def LogEvent.Ordinary : LogEvent → Prop
  | .call _ _ | .die _ | .exit _ => False
  | _ => True

/-- The call of a thread can return by steps of its own. -/
def CanReturn (s : LogFile) (t : Thread) (record : Bytes) : Prop :=
  ∃ es : List LogEvent, (∀ e ∈ es, e.Ordinary) ∧
    (Runs.run LogFile.step s es).returned = s.returned ++ [(t, record)] ∧
    (Runs.run LogFile.step s es).mutex = .free ∧
    ∀ u, u ≠ t → (Runs.run LogFile.step s es).threads u = s.threads u

namespace CanReturn

variable {s : LogFile} {t : Thread} {record : Bytes}

theorem of_step {e : LogEvent} (he : e.Ordinary) (hreturned : (s.step e).returned = s.returned)
    (hothers : ∀ u, u ≠ t → (s.step e).threads u = s.threads u)
    (h : CanReturn (s.step e) t record) : CanReturn s t record := by
  obtain ⟨es, hes, hret, hmutex, hthreads⟩ := h
  refine ⟨e :: es, fun e' he' => ?_, ?_, hmutex, fun u hu => ?_⟩
  · rcases List.mem_cons.1 he' with rfl | he'
    · exact he
    · exact hes e' he'
  · rw [Runs.run_cons, hret, hreturned]
  · rw [Runs.run_cons, hthreads u hu, hothers u hu]

theorem of_flushing (hpoint : s.threads t = .flushing record) (hm : s.mutex = .held t false) :
    CanReturn s t record := by
  -- what is in the stream is written, and the mutex is released
  set n := (s.streams t.pid).length with hn
  have hdrain : s.step (.drain t n) = s.drain t.pid n := by
    simp only [LogFile.step, hpoint]
  have hempty : (s.drain t.pid n).streams t.pid = [] := by
    simp [LogFile.drain, hn]
  have hunlock : (s.drain t.pid n).step (.unlock t) = (s.drain t.pid n).unlock t record := by
    have hsame : (s.drain t.pid n).threads t = .flushing record := hpoint
    simp only [LogFile.step, hsame, hempty, if_true]
  refine ⟨[.drain t n, .unlock t], ?_, ?_, ?_, fun u hu => ?_⟩
  · simp [LogEvent.Ordinary]
  all_goals rw [Runs.run_cons, hdrain, Runs.run_cons, hunlock]
  · rfl
  · show s.mutex.unlock t = .free
    rw [hm, Mutex.unlock, if_pos rfl, if_neg (by decide)]
  · exact LogFile.goto_threads_of_ne _ hu _

theorem of_writing {rest : Bytes} (hpoint : s.threads t = .writing record rest)
    (hm : s.mutex = .held t false) : CanReturn s t record := by
  refine of_step (e := .put t rest.length) trivial ?_ (fun u hu => ?_) ?_
  · simp only [LogFile.step, hpoint]
    rfl
  · simp only [LogFile.step, hpoint]
    exact LogFile.goto_threads_of_ne s hu _
  set s₁ := s.step (.put t rest.length) with hs₁
  have hpoint₁ : s₁.threads t = .writing record [] := by
    simp only [hs₁, LogFile.step, hpoint, List.drop_length]
    exact LogFile.goto_threads_self s t _
  have hm₁ : s₁.mutex = .held t false := by
    simp only [hs₁, LogFile.step, hpoint]
    exact hm
  have hflush : s₁.step (.flush t) = s₁.goto t (.flushing record) := by
    simp only [LogFile.step, hpoint₁]
  refine of_step (e := .flush t) trivial ?_ (fun u hu => ?_) ?_
  all_goals rw [hflush]
  · rfl
  · exact LogFile.goto_threads_of_ne s₁ hu _
  · exact of_flushing (LogFile.goto_threads_self s₁ t _) hm₁

theorem of_locked {result : LockResult} (hpoint : s.threads t = .locked record result)
    (hm : result = .ok ∧ s.mutex = .held t false ∨ result = .eOwnerDead ∧ s.mutex = .held t true) :
    CanReturn s t record := by
  refine of_step (e := .recover t) trivial ?_ (fun u hu => ?_) ?_
  · simp only [LogFile.step, hpoint]
    rfl
  · simp only [LogFile.step, hpoint]
    exact LogFile.goto_threads_of_ne s hu _
  have hpoint' : (s.step (.recover t)).threads t = .writing record record := by
    simp only [LogFile.step, hpoint]
    exact LogFile.goto_threads_self s t _
  refine of_writing hpoint' ?_
  simp only [LogFile.step, hpoint]
  exact mutex_recovered hm

theorem of_before (hpoint : s.threads t = .before record)
    (hm : s.mutex = .free ∨ s.mutex = .ownerDead) : CanReturn s t record := by
  have hlock : ∃ result mutex, s.mutex.lock t = some (result, mutex) ∧
      (result = .ok ∧ mutex = .held t false ∨ result = .eOwnerDead ∧ mutex = .held t true) := by
    rcases hm with hm | hm
    · exact ⟨.ok, .held t false, by rw [hm]; rfl, .inl ⟨rfl, rfl⟩⟩
    · exact ⟨.eOwnerDead, .held t true, by rw [hm]; rfl, .inr ⟨rfl, rfl⟩⟩
  obtain ⟨result, mutex, hlock, hmutex⟩ := hlock
  have hstep : s.step (.lock t) = { s.goto t (.locked record result) with mutex := mutex } := by
    simp only [LogFile.step, hpoint, hlock]
  refine of_step (e := .lock t) trivial ?_ (fun u hu => ?_) ?_
  all_goals rw [hstep]
  · rfl
  · exact LogFile.goto_threads_of_ne s hu _
  · exact of_locked (LogFile.goto_threads_self s t _) hmutex

/-- A thread that is inside can always return. -/
theorem of_has {rest : Bytes} (h : Has t record rest s.mutex (s.threads t)) :
    CanReturn s t record := by
  cases hpoint : s.threads t with
  | outside => exact (hpoint ▸ h.inside).elim
  | before => exact (hpoint ▸ h.inside).elim
  | locked record' result =>
    rw [hpoint] at h
    obtain ⟨rfl, -, hm⟩ := h.of_locked
    exact of_locked hpoint hm
  | writing record' rest' =>
    rw [hpoint] at h
    obtain ⟨rfl, -, hm⟩ := h.of_writing
    exact of_writing hpoint hm
  | flushing record' =>
    rw [hpoint] at h
    obtain ⟨rfl, -, hm⟩ := h.of_flushing
    exact of_flushing hpoint hm

end CanReturn

/-- **Every call can return.**  Whatever has happened, whatever process has died and wherever, a
thread that is in a call can return without a new call or the end of a process, and at most one
other call has to return before. -/
theorem log_calls_return (es : List LogEvent) {t : Thread} {record : Bytes}
    (ht : ((LogFile.run es).threads t).record? = some record) :
    ∃ (more : List LogEvent) (calls : List (Thread × Bytes)), (∀ e ∈ more, e.Ordinary) ∧
      calls.length ≤ 1 ∧
      (LogFile.run (es ++ more)).returned =
        (LogFile.run es).returned ++ calls ++ [(t, record)] := by
  obtain ⟨aes, hsim, -⟩ := explained_run es
  have hrun : ∀ more, LogFile.run (es ++ more) = Runs.run LogFile.step (LogFile.run es) more :=
    fun more => Runs.run_append _ _ _
  set s := LogFile.run es
  by_cases hin : (s.threads t).Inside
  · obtain ⟨c, -, rfl, hhas⟩ := hsim.cur_of_inside hin
    obtain rfl : c.label.2 = record := Option.some.inj (hhas.record?.symm.trans ht)
    obtain ⟨more, hmore, hret, -⟩ := CanReturn.of_has hhas
    exact ⟨more, [], hmore, Nat.zero_le _, by rw [hrun, hret, List.append_nil]⟩
  · have hpoint : s.threads t = .before record := WritePoint.before_of_record? ht hin
    cases hcur : (Runs.run (Sections.step callSection) {} aes).cur with
    | none =>
      obtain ⟨more, hmore, hret, -⟩ := CanReturn.of_before hpoint (hsim.idle hcur).1
      exact ⟨more, [], hmore, Nat.zero_le _, by rw [hrun, hret, List.append_nil]⟩
    | some c =>
      -- the thread that has the mutex returns first
      obtain ⟨hhas, -⟩ := hsim.busy c hcur
      obtain ⟨first, hfirst, hret, hm, hothers⟩ := CanReturn.of_has hhas
      have hne : t ≠ c.label.1 := fun heq => hin (heq ▸ hhas.inside)
      have hpoint' : (Runs.run LogFile.step s first).threads t = .before record := by
        rw [hothers t hne, hpoint]
      obtain ⟨more, hmore, hret', -⟩ := CanReturn.of_before hpoint' (.inl hm)
      refine ⟨first ++ more, [c.label], fun e he => ?_, le_rfl, ?_⟩
      · rcases List.mem_append.1 he with he | he
        · exact hfirst e he
        · exact hmore e he
      · rw [hrun, Runs.run_append, hret', hret]

/-- A process dies with the mutex, and the call of another returns. -/
theorem log_calls_return_dying :
    ∃ (more : List LogEvent) (calls : List (Thread × Bytes)), (∀ e ∈ more, e.Ordinary) ∧
      calls.length ≤ 1 ∧
      (LogFile.run ([.call ⟨1, 0⟩ (str "record"), .lock ⟨1, 0⟩, .recover ⟨1, 0⟩, .put ⟨1, 0⟩ 5,
        .call ⟨2, 0⟩ (str "next"), .die 1] ++ more)).returned =
          [] ++ calls ++ [(⟨2, 0⟩, str "next")] :=
  log_calls_return [.call ⟨1, 0⟩ (str "record"), .lock ⟨1, 0⟩, .recover ⟨1, 0⟩, .put ⟨1, 0⟩ 5,
    .call ⟨2, 0⟩ (str "next"), .die 1] (t := ⟨2, 0⟩) rfl

/-! ### The file in pieces -/

/-- A part of the file: the call that has written it, and whether the call has returned. -/
structure LogPiece where
  thread : Thread
  record : Bytes
  written : Bytes
  returned : Bool

/-- The call of a piece. -/
def LogPiece.call (x : LogPiece) : Thread × Bytes := (x.thread, x.record)

/-- The pieces of the file, by its sections. -/
def logPieces (a : Sections.St (Thread × Bytes) ℕ UInt8) : List LogPiece :=
  (a.past.map fun x => ⟨x.label.1, x.label.2, x.written, x.left⟩) ++
    a.cur.toList.map fun c => ⟨c.label.1, c.label.2, c.written, false⟩

/-- The whole record is in the file. -/
def LogPiece.whole (x : LogPiece) : Bool := x.written = x.record

theorem written_logPieces (a : Sections.St (Thread × Bytes) ℕ UInt8) :
    (logPieces a).flatMap LogPiece.written = a.pieces.flatten := by
  rw [logPieces, Sections.St.pieces, List.flatMap_append, List.flatten_append, List.flatMap_map,
    List.flatMap_map, List.flatMap_def, List.flatMap_def]

theorem Sim.returned_logPieces {s : LogFile}
    {a : Sections.St (Thread × Bytes) ℕ UInt8} (h : Sim s a) :
    s.returned = ((logPieces a).filter LogPiece.returned).map LogPiece.call := by
  have hcur : (a.cur.toList.map fun c : Sections.Current (Thread × Bytes) UInt8 =>
      (⟨c.label.1, c.label.2, c.written, false⟩ : LogPiece)).filter LogPiece.returned = [] := by
    rw [List.filter_eq_nil_iff]
    intro x hx
    obtain ⟨c, -, rfl⟩ := List.mem_map.1 hx
    exact Bool.false_ne_true
  rw [h.returned, logPieces, List.filter_append, hcur, List.append_nil, List.filter_map,
    List.map_map]
  rfl

theorem map_call_logPieces (a : Sections.St (Thread × Bytes) ℕ UInt8) :
    (logPieces a).map LogPiece.call = a.labels := by
  rw [logPieces, Sections.St.labels, List.map_append, List.map_map, List.map_map]
  rfl

/-- No call has two pieces. -/
theorem Explained.count_logPieces {es : List LogEvent}
    {aes : List (Sections.Ev (Thread × Bytes) ℕ)} (h : Explained es aes) (c : Thread × Bytes) :
    ((logPieces (Runs.run (Sections.step callSection) {} aes)).map LogPiece.call).count c ≤
      es.count (.call c.1 c.2) := by
  rw [map_call_logPieces]
  calc (Runs.run (Sections.step callSection) {} aes).labels.count c
      ≤ (aes.filterMap Sections.Ev.entered?).count c := (Sections.labels_run aes).count_le c
    _ ≤ es.count (.call c.1 c.2) := le_trans (Nat.le_add_right ..) (h.enter c)

/-- Each piece was written by a call, and one that has not returned is in progress or was cut. -/
theorem Explained.mem_logPieces {es : List LogEvent}
    {aes : List (Sections.Ev (Thread × Bytes) ℕ)} (h : Explained es aes) {x : LogPiece}
    (hx : x ∈ logPieces (Runs.run (Sections.step callSection) {} aes)) :
    .call x.thread x.record ∈ es ∧ (x.returned = false →
      ((LogFile.run es).threads x.thread).Inside ∨
        .die x.thread.pid ∈ es ∨ .exit x.thread.pid ∈ es) := by
  have hcalled : .call x.thread x.record ∈ es :=
    List.count_pos_iff.1 <|
      (List.count_pos_iff.2 (List.mem_map_of_mem hx)).trans_le (h.count_logPieces x.call)
  refine ⟨hcalled, ?_⟩
  rcases List.mem_append.1 hx with hx | hx
  · obtain ⟨y, hy, rfl⟩ := List.mem_map.1 hx
    have hcut := Sections.recorded_run (L := callSection) aes y hy
    exact fun hleft => .inr (h.ends _ (.inl (hcut hleft)))
  · obtain ⟨c, hc, rfl⟩ := List.mem_map.1 hx
    exact fun _ => .inl (h.sim.busy c (Option.mem_toList.1 hc)).1.inside

theorem Explained.whole {es : List LogEvent} {aes : List (Sections.Ev (Thread × Bytes) ℕ)}
    (h : Explained es aes) :
    (LogFile.run es).file =
        (logPieces (Runs.run (Sections.step callSection) {} aes)).flatMap
          LogPiece.written ∧
      ∀ x ∈ logPieces (Runs.run (Sections.step callSection) {} aes),
        x.written <+: x.record ∧
          (x.returned = true → x.written = x.record) := by
  set a := Runs.run (Sections.step callSection) {} aes with ha
  have haccounted : Sections.Accounted callSection a := Sections.accounted_run aes
  refine ⟨?_, fun x hx => ?_⟩
  · rw [written_logPieces, ← haccounted.out]
    exact h.sim.file
  · rcases List.mem_append.1 hx with hx | hx
    · obtain ⟨y, hy, rfl⟩ := List.mem_map.1 hx
      exact haccounted.past y hy
    · obtain ⟨c, hc, rfl⟩ := List.mem_map.1 hx
      exact ⟨haccounted.written_cur (Option.mem_toList.1 hc), fun hfalse => (by cases hfalse)⟩

theorem filter_returned {pieces : List LogPiece}
    (h : ∀ x ∈ pieces, x.returned = true → x.written = x.record) :
    pieces.filter LogPiece.returned = (pieces.filter LogPiece.whole).filter LogPiece.returned := by
  rw [List.filter_filter]
  refine List.filter_congr fun x hx => ?_
  cases hret : x.returned with
  | true =>
    have hwhole : x.whole = true := decide_eq_true (h x hx hret)
    rw [hwhole]
    rfl
  | false => rfl

theorem Explained.all_returned {es : List LogEvent}
    {aes : List (Sections.Ev (Thread × Bytes) ℕ)} (h : Explained es aes)
    (hends : ∀ pid, .die pid ∉ es ∧ .exit pid ∉ es)
    (hinside : ∀ t, ¬ ((LogFile.run es).threads t).Inside) {x : LogPiece}
    (hx : x ∈ logPieces (Runs.run (Sections.step callSection) {} aes)) :
    x.returned = true := by
  by_contra hnot
  rcases (h.mem_logPieces hx).2 (Bool.not_eq_true _ ▸ hnot) with hin | hdie | hexit
  · exact hinside x.thread hin
  · exact (hends _).1 hdie
  · exact (hends _).2 hexit

/-- Calls in one piece, one after the other. -/
def writeAll (w : World) (calls : List (Thread × Bytes)) : World :=
  calls.foldl (fun w c => writeRecord w .multiline c.2) w

theorem writeAll_eq (calls : List (Thread × Bytes)) :
    writeAll {} calls = { file := calls.map fun c => .diff c.2 } := by
  induction calls using List.reverseRecOn with
  | nil => rfl
  | append_singleton calls c ih =>
    have hsnoc : writeAll {} (calls ++ [c]) = writeRecord (writeAll {} calls) .multiline c.2 := by
      rw [writeAll, List.foldl_append]
      rfl
    rw [hsnoc, ih, List.map_append]
    rfl

/-- **Records are not mixed.**  The file is one piece after the other, whatever the threads of all
processes do and wherever a process dies, and no call has two pieces.  The piece of a call that has
returned is its record, and the piece of another is the start of its record, its process having died
or being at it.  If no process has ended and no thread is at it, the file is what the calls make of
it in one piece, in the order in which they have returned. -/
theorem log_records_whole (es : List LogEvent) :
    let s := LogFile.run es
    (∃ pieces : List LogPiece, s.file = pieces.flatMap LogPiece.written ∧
        s.returned = (pieces.filter LogPiece.returned).map LogPiece.call ∧
        (∀ c, (pieces.map LogPiece.call).count c ≤ es.count (.call c.1 c.2)) ∧
        ∀ x ∈ pieces, .call x.thread x.record ∈ es ∧ x.written <+: x.record ∧
          (x.returned = true → x.written = x.record) ∧
          (x.returned = false → (s.threads x.thread).Inside ∨
            .die x.thread.pid ∈ es ∨ .exit x.thread.pid ∈ es)) ∧
      ((∀ pid, .die pid ∉ es ∧ .exit pid ∉ es) → (∀ t, ¬ (s.threads t).Inside) →
        ∃ records : List Bytes, s.file = records.flatten ∧
          (writeAll {} s.returned).file = records.map .diff) := by
  intro s
  obtain ⟨aes, h⟩ := explained_run es
  obtain ⟨hfile, hpiece⟩ := h.whole
  have hreturned := h.sim.returned_logPieces
  have hcount := h.count_logPieces
  set pieces := logPieces (Runs.run (Sections.step callSection) {} aes)
  refine ⟨⟨pieces, hfile, hreturned, hcount, fun x hx => ?_⟩, fun hends hinside => ?_⟩
  · obtain ⟨hcall, hcut⟩ := h.mem_logPieces hx
    exact ⟨hcall, (hpiece x hx).1, (hpiece x hx).2, hcut⟩
  · have hall : ∀ x ∈ pieces, x.returned = true := fun x hx => h.all_returned hends hinside hx
    refine ⟨pieces.map LogPiece.record, ?_, ?_⟩
    · rw [show s.file = _ from hfile, ← List.flatMap_def]
      exact List.flatMap_congr fun x hx => (hpiece x hx).2 (hall x hx)
    · rw [writeAll_eq, show s.returned = _ from hreturned, List.filter_eq_self.2 hall,
        List.map_map, List.map_map]
      rfl

end ModDup
