import Mathlib.Data.List.Basic
import Mathlib.Data.List.Nodup
import Mathlib.Data.List.Perm.Basic
import Mathlib.Order.Lattice
import ModDup.Lib.Runs

/-!
# The queue between the filters and the workers

`MultiThreadQueue` is a deque under a mutex, with a maximum size and three counters
(`src/MultiThreadQueue.cc`).  An element pushed to a full queue is refused; an element pushed to
its front takes the place of the last one.  The counters are `unsigned` and are read here without
wrap.

## Main definitions

* `MultiThreadQueue` with `push`, `pushFront`, `pop`, `setDropSize`, `getCounters`.
* `QueueOp`, `QueueRun.step` : any sequence of operations, with what was popped and dropped.
* `Entry`, `stamped` : the same operations, with every element marked by the operation that
  brought it.

## Main results

* `map_run_stamped` : the marks do not change what the queue does.
* `conservation` : what came in was popped, was dropped, or is still there.
* `queueOrder_run` : elements of `push` leave in their order, and nothing leaves twice.
* `bounded_queue_law` : all of this, with the bound that `setDropSize` gives.
-/

namespace ModDup

/-- `MultiThreadQueue`. -/
structure MultiThreadQueue (α : Type*) where
  mQueue : List α := []
  mInCount : ℕ := 0
  mOutCount : ℕ := 0
  mDropCount : ℕ := 0
  /-- The maximum size; 0 is no maximum. -/
  mDropSize : ℕ := 0
  mRunning : Bool := true

namespace MultiThreadQueue

variable {α β : Type*}

/-- There is a maximum size, and it is reached. -/
def full (q : MultiThreadQueue α) : Bool := q.mDropSize > 0 && q.mQueue.length ≥ q.mDropSize

/-- `MultiThreadQueue::push`. -/
def push (q : MultiThreadQueue α) (object : α) : MultiThreadQueue α :=
  if q.full then { q with mDropCount := q.mDropCount + 1 }
  else { q with mQueue := q.mQueue ++ [object], mInCount := q.mInCount + 1 }

/-- `MultiThreadQueue::push_front`, which counts no incoming element. -/
def pushFront (q : MultiThreadQueue α) (object : α) : MultiThreadQueue α :=
  if q.full then
    { q with mQueue := object :: q.mQueue.dropLast, mDropCount := q.mDropCount + 1 }
  else { q with mQueue := object :: q.mQueue }

/-- `MultiThreadQueue::pop`; `none` where it waits. -/
def pop (q : MultiThreadQueue α) : Option (α × MultiThreadQueue α) :=
  match q.mQueue with
  | [] => none
  | lObject :: rest => some (lObject, { q with mQueue := rest, mOutCount := q.mOutCount + 1 })

/-- `MultiThreadQueue::size`. -/
def size (q : MultiThreadQueue α) : ℕ := q.mQueue.length

/-- `MultiThreadQueue::setDropSize`. -/
def setDropSize (q : MultiThreadQueue α) (pDropSize : ℕ) : MultiThreadQueue α :=
  { q with mDropSize := pDropSize }

/-- `MultiThreadQueue::getCounters`: the counters, which are reset. -/
def getCounters (q : MultiThreadQueue α) : (ℕ × ℕ × ℕ) × MultiThreadQueue α :=
  ((q.mInCount, q.mOutCount, q.mDropCount),
    { q with mInCount := 0, mOutCount := 0, mDropCount := 0 })

/-- `MultiThreadQueue::stop`. -/
def stop (q : MultiThreadQueue α) : MultiThreadQueue α := { q with mRunning := false }

theorem ne_nil_of_full {q : MultiThreadQueue α} (h : q.full = true) : q.mQueue ≠ [] := by
  intro hnil
  simp only [full, hnil, List.length_nil, Bool.and_eq_true, decide_eq_true_eq] at h
  omega

theorem push_mQueue (q : MultiThreadQueue α) (object : α) :
    (q.push object).mQueue =
      if q.full then (q.mQueue ++ [object]).dropLast else q.mQueue ++ [object] := by
  unfold push
  split_ifs <;> simp

theorem pushFront_mQueue (q : MultiThreadQueue α) (object : α) :
    (q.pushFront object).mQueue =
      if q.full then (object :: q.mQueue).dropLast else object :: q.mQueue := by
  unfold pushFront
  split_ifs with hfull
  · exact (List.dropLast_cons_of_ne_nil (ne_nil_of_full hfull)).symm
  · rfl

theorem pop_eq_some {q q' : MultiThreadQueue α} {x : α} (h : q.pop = some (x, q')) :
    q.mQueue = x :: q'.mQueue ∧ q'.mDropSize = q.mDropSize := by
  unfold pop at h
  split at h
  · cases h
  · rename_i lObject rest hq
    obtain ⟨rfl, rfl⟩ := Prod.mk.inj (Option.some.inj h)
    exact ⟨hq, rfl⟩

/-- Change the elements. -/
def map (f : α → β) (q : MultiThreadQueue α) : MultiThreadQueue β :=
  { mQueue := q.mQueue.map f, mInCount := q.mInCount, mOutCount := q.mOutCount
    mDropCount := q.mDropCount, mDropSize := q.mDropSize, mRunning := q.mRunning }

theorem full_map (f : α → β) (q : MultiThreadQueue α) : (q.map f).full = q.full := by
  simp [full, map]

theorem push_map (f : α → β) (q : MultiThreadQueue α) (object : α) :
    (q.map f).push (f object) = (q.push object).map f := by
  simp only [push, full_map]
  split_ifs <;> simp [map]

theorem pushFront_map (f : α → β) (q : MultiThreadQueue α) (object : α) :
    (q.map f).pushFront (f object) = (q.pushFront object).map f := by
  simp only [pushFront, full_map]
  split_ifs <;> simp [map]

theorem pop_map (f : α → β) (q : MultiThreadQueue α) :
    (q.map f).pop = q.pop.map fun p => (f p.1, p.2.map f) := by
  unfold pop map
  cases q.mQueue <;> rfl

end MultiThreadQueue

/-! ### Sequences of operations -/

/-- One operation. -/
inductive QueueOp (α : Type*) where
  | push (object : α)
  | pushFront (object : α)
  | pop
  | setDropSize (pDropSize : ℕ)
  | getCounters

namespace QueueOp

variable {α β : Type*}

/-- The operation brings an element to the back. -/
def isPush : QueueOp α → Bool
  | .push _ => true
  | _ => false

/-- The operation brings an element to the front. -/
def isPushFront : QueueOp α → Bool
  | .pushFront _ => true
  | _ => false

/-- The operation takes an element. -/
def isPop : QueueOp α → Bool
  | .pop => true
  | _ => false

/-- The operation changes the maximum size. -/
def isSetDropSize : QueueOp α → Bool
  | .setDropSize _ => true
  | _ => false

/-- What the operation does to a queue without bound. -/
def unbounded : QueueOp α → List α → List α
  | .push object, l => l ++ [object]
  | .pushFront object, l => object :: l
  | .pop, l => l.tail
  | _, l => l

/-- Change the element, which may depend on the end it is pushed to. -/
def map (f : Bool → α → β) : QueueOp α → QueueOp β
  | .push object => .push (f false object)
  | .pushFront object => .pushFront (f true object)
  | .pop => .pop
  | .setDropSize pDropSize => .setDropSize pDropSize
  | .getCounters => .getCounters

end QueueOp

/-- A queue and what was done with it. -/
structure QueueRun (α : Type*) where
  queue : MultiThreadQueue α := {}
  /-- What was popped, in order. -/
  popped : List α := []
  /-- What `getCounters` has reported as dropped so far. -/
  reported : ℕ := 0

namespace QueueRun

variable {α β : Type*}

/-- One operation; a `pop` on an empty queue waits. -/
def step (t : QueueRun α) : QueueOp α → QueueRun α
  | .push object => { t with queue := t.queue.push object }
  | .pushFront object => { t with queue := t.queue.pushFront object }
  | .pop =>
    match t.queue.pop with
    | none => t
    | some (lObject, q) => { t with queue := q, popped := t.popped ++ [lObject] }
  | .setDropSize pDropSize => { t with queue := t.queue.setDropSize pDropSize }
  | .getCounters =>
    { t with
      queue := t.queue.getCounters.2
      reported := t.reported + t.queue.getCounters.1.2.2 }

/-- All that was dropped, over the resets of the counter. -/
def dropped (t : QueueRun α) : ℕ := t.reported + t.queue.mDropCount

/-- A queue started empty, after a sequence of operations. -/
def run (ops : List (QueueOp α)) : QueueRun α := Runs.run step {} ops

/-- Change the elements. -/
def map (f : α → β) (t : QueueRun α) : QueueRun β :=
  { queue := t.queue.map f, popped := t.popped.map f, reported := t.reported }

theorem step_map (f : α → β) (g : Bool → α → β) (hg : ∀ b x, g b x = f x) (t : QueueRun α)
    (op : QueueOp α) : (t.map f).step (op.map g) = (t.step op).map f := by
  cases op with
  | push object => simp [step, QueueOp.map, map, hg, MultiThreadQueue.push_map]
  | pushFront object => simp [step, QueueOp.map, map, hg, MultiThreadQueue.pushFront_map]
  | pop =>
    simp only [step, QueueOp.map, map, MultiThreadQueue.pop_map]
    cases t.queue.pop with
    | none => rfl
    | some p => simp
  | setDropSize pDropSize => rfl
  | getCounters => rfl

end QueueRun

/-! ### Nothing is lost -/

section Conservation

variable {α : Type*}

/-- **What came in was popped, was dropped, or is still there.** -/
theorem conservation (ops : List (QueueOp α)) :
    ops.countP QueueOp.isPush + ops.countP QueueOp.isPushFront =
      (QueueRun.run ops).popped.length + (QueueRun.run ops).dropped +
        (QueueRun.run ops).queue.size := by
  refine Runs.run_history (P := fun ops (t : QueueRun α) => ops.countP QueueOp.isPush +
    ops.countP QueueOp.isPushFront = t.popped.length + t.dropped + t.queue.size) rfl ?_ ops
  intro ops t op h
  rw [List.countP_append, List.countP_append]
  cases op with
  | push object =>
    simp only [QueueRun.step, QueueRun.dropped, MultiThreadQueue.size] at h ⊢
    unfold MultiThreadQueue.push
    split_ifs <;> simp [QueueOp.isPush, QueueOp.isPushFront] <;> omega
  | pushFront object =>
    simp only [QueueRun.step, QueueRun.dropped, MultiThreadQueue.size] at h ⊢
    unfold MultiThreadQueue.pushFront
    split_ifs with hfull
    · have hpos := List.length_pos_iff.2 (MultiThreadQueue.ne_nil_of_full hfull)
      simp [QueueOp.isPush, QueueOp.isPushFront]
      omega
    · simp [QueueOp.isPush, QueueOp.isPushFront]
      omega
  | pop =>
    simp only [QueueRun.step, QueueRun.dropped, MultiThreadQueue.size, MultiThreadQueue.pop] at h ⊢
    cases hq : t.queue.mQueue with
    | nil => simpa [QueueOp.isPush, QueueOp.isPushFront, hq] using h
    | cons x rest =>
      simp [QueueOp.isPush, QueueOp.isPushFront, hq] at h ⊢
      omega
  | setDropSize pDropSize =>
    simp only [QueueRun.step, QueueRun.dropped, MultiThreadQueue.size,
      MultiThreadQueue.setDropSize] at h ⊢
    simpa [QueueOp.isPush, QueueOp.isPushFront] using h
  | getCounters =>
    simp only [QueueRun.step, QueueRun.dropped, MultiThreadQueue.size,
      MultiThreadQueue.getCounters] at h ⊢
    simp [QueueOp.isPush, QueueOp.isPushFront]
    omega

end Conservation

/-! ### The order -/

/-- An element with the operation that brought it: which end it was pushed to, and how many
operations there were before. -/
structure Entry (α : Type*) where
  object : α
  front : Bool
  stamp : ℕ

/-- The operations with their elements marked. -/
def stamped {α : Type*} (ops : List (QueueOp α)) : List (QueueOp (Entry α)) :=
  ops.zipIdx.map fun p => p.1.map fun front object => ⟨object, front, p.2⟩

section Order

variable {α : Type*}

theorem stamped_snoc (ops : List (QueueOp α)) (op : QueueOp α) :
    stamped (ops ++ [op]) =
      stamped ops ++ [op.map fun front object => ⟨object, front, ops.length⟩] := by
  simp [stamped, List.zipIdx_append]

/-- The marks do not change what the queue does. -/
theorem map_run_stamped (ops : List (QueueOp α)) :
    (QueueRun.run (stamped ops)).map Entry.object = QueueRun.run ops := by
  induction ops using List.reverseRecOn with
  | nil => rfl
  | append_singleton ops op ih =>
    have herase : (op.map fun front object => (⟨object, front, ops.length⟩ : Entry α)).map
        (fun _ e => e.object) = op := by cases op <;> rfl
    rw [stamped_snoc, QueueRun.run, Runs.run_snoc, ← QueueRun.step_map Entry.object
      (fun _ e => e.object) (fun _ _ => rfl), herase]
    rw [QueueRun.run] at ih
    rw [ih, QueueRun.run, QueueRun.run, Runs.run_snoc]

/-- What left the queue and what is in it, in the order in which it leaves: after `n` operations
all of it came with different ones, and the elements of `push` stand in their order. -/
structure QueueOrder (n : ℕ) (l : List (Entry α)) : Prop where
  old : ∀ e ∈ l, e.stamp < n
  nodup : (l.map Entry.stamp).Nodup
  sorted : (l.filter fun e => !e.front).Pairwise fun a b => a.stamp < b.stamp

theorem QueueOrder.mono {n m : ℕ} {l l' : List (Entry α)} (h : QueueOrder n l) (hnm : n ≤ m)
    (hl : l'.Sublist l) : QueueOrder m l' where
  old e he := lt_of_lt_of_le (h.old e (hl.subset he)) hnm
  nodup := h.nodup.sublist (hl.map _)
  sorted := h.sorted.sublist (hl.filter _)

theorem QueueOrder.snoc {n : ℕ} {l : List (Entry α)} (h : QueueOrder n l) (x : α) :
    QueueOrder (n + 1) (l ++ [⟨x, false, n⟩]) where
  old e he := by
    rcases List.mem_append.1 he with he | he
    · exact Nat.lt_succ_of_lt (h.old e he)
    · obtain rfl := List.mem_singleton.1 he
      exact Nat.lt_succ_self n
  nodup := by
    rw [List.map_append, List.map_singleton]
    refine List.nodup_append'.2 ⟨h.nodup, List.nodup_singleton _, ?_⟩
    intro k hk hk'
    obtain ⟨e, he, rfl⟩ := List.mem_map.1 hk
    have hold := h.old e he
    rw [List.mem_singleton] at hk'
    exact absurd hk' hold.ne
  sorted := by
    rw [List.filter_append]
    refine List.pairwise_append.2 ⟨h.sorted, by simp, fun a ha b hb => ?_⟩
    obtain rfl : b = ⟨x, false, n⟩ := by simpa using hb
    exact h.old a (List.mem_of_mem_filter ha)

theorem QueueOrder.insert {n : ℕ} {l l' : List (Entry α)} (h : QueueOrder n (l ++ l')) (x : α) :
    QueueOrder (n + 1) (l ++ ⟨x, true, n⟩ :: l') where
  old e he := by
    rcases List.mem_append.1 he with he | he
    · exact Nat.lt_succ_of_lt (h.old e (List.mem_append_left _ he))
    · rcases List.mem_cons.1 he with rfl | he
      · exact Nat.lt_succ_self n
      · exact Nat.lt_succ_of_lt (h.old e (List.mem_append_right _ he))
  nodup := by
    have hperm : (l ++ ⟨x, true, n⟩ :: l').Perm (⟨x, true, n⟩ :: (l ++ l')) := List.perm_middle
    rw [(hperm.map Entry.stamp).nodup_iff, List.map_cons]
    refine List.nodup_cons.2 ⟨fun hk => ?_, h.nodup⟩
    obtain ⟨e, he, hstamp⟩ := List.mem_map.1 hk
    have hold := h.old e he
    exact absurd hstamp hold.ne
  sorted := by
    have hsorted := h.sorted
    simp only [List.filter_append] at hsorted ⊢
    simpa using hsorted

theorem queueOrder_run (ops : List (QueueOp α)) :
    QueueOrder ops.length ((QueueRun.run (stamped ops)).popped ++
      (QueueRun.run (stamped ops)).queue.mQueue) := by
  induction ops using List.reverseRecOn with
  | nil => exact ⟨by simp [stamped, QueueRun.run], by simp [stamped, QueueRun.run],
      by simp [stamped, QueueRun.run]⟩
  | append_singleton ops op ih =>
    rw [stamped_snoc, QueueRun.run, Runs.run_snoc]
    rw [QueueRun.run] at ih
    set t := Runs.run QueueRun.step {} (stamped ops)
    rw [List.length_append, List.length_singleton]
    have hsame := ih.mono (Nat.le_succ ops.length) (List.Sublist.refl _)
    cases op with
    | push object =>
      simp only [QueueOp.map, QueueRun.step, MultiThreadQueue.push_mQueue]
      split_ifs
      · simpa using hsame
      · rw [← List.append_assoc]
        exact ih.snoc object
    | pushFront object =>
      simp only [QueueOp.map, QueueRun.step, MultiThreadQueue.pushFront_mQueue]
      have hnew := ih.insert object
      split_ifs
      · exact hnew.mono le_rfl (List.Sublist.append_left (List.dropLast_sublist _) _)
      · exact hnew
    | pop =>
      -- what is popped moves from the head of the queue to the end of what has left it
      simp only [QueueOp.map, QueueRun.step, MultiThreadQueue.pop]
      cases hq : t.queue.mQueue with
      | nil => simpa [hq] using hsame
      | cons x rest => simpa [hq] using hsame
    | setDropSize pDropSize => exact hsame
    | getCounters => exact hsame

end Order

/-! ### The bounds -/

section Bounds

variable {α : Type*}

/-- What an operation drops is the last element there would be without a bound. -/
theorem step_drops_last (t : QueueRun α) (op : QueueOp α) :
    ((t.step op).queue.mQueue = op.unbounded t.queue.mQueue ∧ (t.step op).dropped = t.dropped) ∨
      ((t.step op).queue.mQueue = (op.unbounded t.queue.mQueue).dropLast ∧
        (t.step op).dropped = t.dropped + 1) := by
  cases op with
  | push object =>
    simp only [QueueRun.step, QueueRun.dropped, QueueOp.unbounded, MultiThreadQueue.push_mQueue]
    unfold MultiThreadQueue.push
    split_ifs
    · exact .inr ⟨rfl, rfl⟩
    · exact .inl ⟨rfl, rfl⟩
  | pushFront object =>
    simp only [QueueRun.step, QueueRun.dropped, QueueOp.unbounded,
      MultiThreadQueue.pushFront_mQueue]
    unfold MultiThreadQueue.pushFront
    split_ifs
    · exact .inr ⟨rfl, rfl⟩
    · exact .inl ⟨rfl, rfl⟩
  | pop =>
    refine .inl ?_
    simp only [QueueRun.step, QueueRun.dropped, QueueOp.unbounded, MultiThreadQueue.pop]
    cases hq : t.queue.mQueue with
    | nil => exact ⟨hq, rfl⟩
    | cons x rest => exact ⟨rfl, rfl⟩
  | setDropSize pDropSize => exact .inl ⟨rfl, rfl⟩
  | getCounters => exact .inl ⟨rfl, by simp [QueueRun.step, QueueRun.dropped,
      MultiThreadQueue.getCounters]⟩

/-- An element pushed to the front stays there until it is taken or another one comes. -/
theorem head_pushFront (t : QueueRun α) (object : α) {ops : List (QueueOp α)}
    (hops : ∀ op ∈ ops, op.isPop = false ∧ op.isPushFront = false) :
    (Runs.run QueueRun.step (t.step (.pushFront object)) ops).queue.mQueue.head? =
      some object := by
  refine Runs.run_invariant (P := fun t : QueueRun α => t.queue.mQueue.head? = some object)
    (G := fun op : QueueOp α => op.isPop = false ∧ op.isPushFront = false) ?_ ?_ hops
  · intro t op h hop
    cases op with
    | push x =>
      obtain ⟨rest, hq⟩ := List.head?_eq_some_iff.1 h
      simp only [QueueRun.step]
      unfold MultiThreadQueue.push
      split_ifs <;> simp [hq]
    | pushFront x => simp [QueueOp.isPushFront] at hop
    | pop => simp [QueueOp.isPop] at hop
    | setDropSize n => exact h
    | getCounters => exact h
  · simp only [QueueRun.step]
    unfold MultiThreadQueue.pushFront
    split_ifs <;> rfl

/-- Until the maximum is changed, the size exceeds neither it nor what it was then. -/
theorem size_le_max (t : QueueRun α) {n : ℕ} (hn : 0 < n) {ops : List (QueueOp α)}
    (hops : ∀ op ∈ ops, op.isSetDropSize = false) :
    (Runs.run QueueRun.step (t.step (.setDropSize n)) ops).queue.size ≤ max n t.queue.size := by
  have hstep : ∀ (s : QueueRun α) (op : QueueOp α),
      s.queue.mDropSize = n ∧ s.queue.size ≤ max n t.queue.size → op.isSetDropSize = false →
      (s.step op).queue.mDropSize = n ∧ (s.step op).queue.size ≤ max n t.queue.size := by
    rintro s op ⟨hdrop, hsize⟩ hop
    simp only [MultiThreadQueue.size] at hsize ⊢
    have hle := le_max_left n t.queue.mQueue.length
    cases op with
    | push x =>
      simp only [QueueRun.step]
      unfold MultiThreadQueue.push
      split_ifs with hfull
      · exact ⟨hdrop, hsize⟩
      · refine ⟨hdrop, ?_⟩
        simp only [MultiThreadQueue.full, hdrop, Bool.and_eq_true, decide_eq_true_eq] at hfull
        rw [List.length_append, List.length_singleton]
        omega
    | pushFront x =>
      simp only [QueueRun.step]
      unfold MultiThreadQueue.pushFront
      split_ifs with hfull
      · refine ⟨hdrop, ?_⟩
        have hpos := List.length_pos_iff.2 (MultiThreadQueue.ne_nil_of_full hfull)
        rw [List.length_cons, List.length_dropLast]
        omega
      · refine ⟨hdrop, ?_⟩
        simp only [MultiThreadQueue.full, hdrop, Bool.and_eq_true, decide_eq_true_eq] at hfull
        rw [List.length_cons]
        omega
    | pop =>
      simp only [QueueRun.step, MultiThreadQueue.pop]
      cases hq : s.queue.mQueue with
      | nil => exact ⟨hdrop, by simp [hq]⟩
      | cons x rest =>
        refine ⟨hdrop, ?_⟩
        rw [hq, List.length_cons] at hsize
        dsimp only
        omega
    | setDropSize m => simp [QueueOp.isSetDropSize] at hop
    | getCounters => exact ⟨hdrop, hsize⟩
  have hstart : (t.step (.setDropSize n)).queue.mDropSize = n ∧
      (t.step (.setDropSize n)).queue.size ≤ max n t.queue.size := ⟨rfl, le_max_right _ _⟩
  exact (Runs.run_invariant hstep hstart hops).2

/-- **The law of the bounded queue.**  The operations are marked to tell elements apart, which
changes nothing.  What came in was popped, was dropped or is still there, and no element twice.
What came in at the back leaves in order, what came in at the front leaves next.  Only the last
element is dropped.  From a call of `setDropSize` on, the size is bounded. -/
theorem bounded_queue_law (ops : List (QueueOp α)) :
    (QueueRun.run (stamped ops)).map Entry.object = QueueRun.run ops ∧
    (ops.countP QueueOp.isPush + ops.countP QueueOp.isPushFront =
        (QueueRun.run ops).popped.length + (QueueRun.run ops).dropped +
          (QueueRun.run ops).queue.size ∧
      (((QueueRun.run (stamped ops)).popped ++
        (QueueRun.run (stamped ops)).queue.mQueue).map Entry.stamp).Nodup) ∧
    (((QueueRun.run (stamped ops)).popped.filter fun e => !e.front).Pairwise
        (fun a b => a.stamp < b.stamp) ∧
      ∀ object ops', (∀ op ∈ ops', op.isPop = false ∧ op.isPushFront = false) →
        ∃ q, (QueueRun.run (ops ++ .pushFront object :: ops')).queue.pop = some (object, q)) ∧
    (∀ op, ((QueueRun.run (ops ++ [op])).queue.mQueue =
          op.unbounded (QueueRun.run ops).queue.mQueue ∧
        (QueueRun.run (ops ++ [op])).dropped = (QueueRun.run ops).dropped) ∨
      ((QueueRun.run (ops ++ [op])).queue.mQueue =
          (op.unbounded (QueueRun.run ops).queue.mQueue).dropLast ∧
        (QueueRun.run (ops ++ [op])).dropped = (QueueRun.run ops).dropped + 1)) ∧
    ∀ n ops', 0 < n → (∀ op ∈ ops', op.isSetDropSize = false) →
      (QueueRun.run (ops ++ .setDropSize n :: ops')).queue.size ≤
        max n (QueueRun.run ops).queue.size := by
  have horder := queueOrder_run ops
  refine ⟨map_run_stamped ops, ⟨conservation ops, horder.nodup⟩, ⟨?_, ?_⟩, ?_, ?_⟩
  · exact horder.sorted.sublist ((List.sublist_append_left _ _).filter _)
  · intro object ops' hops
    have hhead := head_pushFront (QueueRun.run ops) object hops
    rw [QueueRun.run, Runs.run_append, Runs.run_cons]
    rw [QueueRun.run] at hhead
    obtain ⟨rest, hq⟩ := List.head?_eq_some_iff.1 hhead
    exact ⟨_, by rw [MultiThreadQueue.pop, hq]⟩
  · intro op
    rw [QueueRun.run, QueueRun.run, Runs.run_snoc]
    exact step_drops_last _ op
  · intro n ops' hn hops
    have hsize := size_le_max (QueueRun.run ops) hn hops
    rw [QueueRun.run] at hsize ⊢
    rw [Runs.run_append, Runs.run_cons]
    exact hsize

end Bounds

end ModDup
