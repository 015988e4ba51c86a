import Mathlib.Algebra.BigOperators.Ring.Finset
import ModDup.Dup.Send

/-!
# How often a request is duplicated

The percentage of a destination asks for a number of calls: its hundreds, and one more with a
probability of the rest, for which a number is drawn (`toDuplicateInt`, `runOne` in
`src/RequestProcessor.cc`).  The queue may be stopped while a request is served; its state is read
before every call.

## Main definitions

* `Commands.numDups` : the number of calls, for the outcome of the draw.
* `planned` : the calls of all matched filters, if the queue is not stopped.
* `Env.StopsAt`, `upTo` : the queue is stopped after so many reads, and what is left then.

## Main results

* `sum_numDups` : over the residues of the draw, the calls add up to the percentage.
* `number_of_duplications` : which calls `runOne` makes, and what it counts.
-/

namespace ModDup

open Bytes

/-! ### One destination -/

/-- The number of calls for a destination, when `draw` is what the random generator gives. -/
def Commands.numDups (c : Commands) (draw : Option ℕ) : ℕ :=
  c.mDuplicationPercentage / 100 +
    if c.mDuplicationPercentage % 100 ≠ 0 ∧
      draw.any fun n => n % 100 < c.mDuplicationPercentage % 100 then 1 else 0

/-- A number is drawn for the destination. -/
def Commands.draws (c : Commands) : Bool := c.mDuplicationPercentage % 100 ≠ 0

theorem toDuplicateInt_eq (c : Commands) (env : Env) (draws : ℕ) :
    c.toDuplicateInt env draws =
      (c.numDups (env.draw draws), draws + if c.draws then 1 else 0) := by
  have hundreds : (c.mDuplicationPercentage - c.mDuplicationPercentage % 100) / 100 =
      c.mDuplicationPercentage / 100 := by omega
  have hdraw : c.toDuplicate (env.draw draws) =
      (env.draw draws).any fun n => n % 100 < c.mDuplicationPercentage % 100 := by
    cases env.draw draws with
    | none => rfl
    | some n => rfl
  unfold Commands.toDuplicateInt Commands.numDups Commands.draws
  rw [hundreds]
  simp only [hdraw]
  split_ifs <;> simp_all

/-- **Over the hundred residues of the draw the calls add up to the percentage.** -/
theorem sum_numDups (c : Commands) :
    ∑ n ∈ Finset.range 100, c.numDups (some n) = c.mDuplicationPercentage := by
  set m := c.mDuplicationPercentage % 100 with hm
  have hterm : ∀ n ∈ Finset.range 100, c.numDups (some n) =
      c.mDuplicationPercentage / 100 + if n < m then 1 else 0 := by
    intro n hn
    have hres : n % 100 = n := Nat.mod_eq_of_lt (Finset.mem_range.1 hn)
    have hiff : (m ≠ 0 ∧ n < m) ↔ n < m := by omega
    unfold Commands.numDups
    simp only [← hm, Option.any_some, hres, decide_eq_true_eq, hiff]
  have hbelow : ((Finset.range 100).filter (· < m)) = Finset.range m := by
    ext n
    simp only [Finset.mem_filter, Finset.mem_range]
    omega
  rw [Finset.sum_congr rfl hterm, Finset.sum_add_distrib, Finset.sum_const, Finset.card_range,
    ← Finset.card_filter, hbelow, Finset.card_range, nsmul_eq_mul]
  omega

/-! ### The stop of the queue -/

section UpTo

variable {α : Type*}

/-- A list, cut after `stop` elements if there is a stop. -/
def upTo (stop : Option ℕ) (l : List α) : List α := stop.elim l fun n => l.take n

theorem upTo_append (stop : Option ℕ) (l l' : List α) :
    upTo stop (l ++ l') = upTo stop l ++ upTo (stop.map (· - l.length)) l' := by
  cases stop with
  | none => rfl
  | some n => exact List.take_append

theorem upTo_none (l : List α) : upTo none l = l := rfl

theorem upTo_nil (stop : Option ℕ) : upTo stop ([] : List α) = [] := by
  cases stop with
  | none => rfl
  | some n => exact List.take_nil

end UpTo

/-- The queue is stopped after `stop` reads of its state, and stays so; `none` if it is not. -/
def Env.StopsAt (env : Env) (stop : Option ℕ) : Prop :=
  ∀ k, env.stillRunning k = stop.elim true fun n => k < n

/-- What is left of the reads before the stop. -/
def readsLeft (stop : Option ℕ) (polls : ℕ) : Option ℕ := stop.map (· - polls)

theorem readsLeft_add (stop : Option ℕ) (k n : ℕ) :
    readsLeft stop (k + n) = (readsLeft stop k).map (· - n) := by
  cases stop with
  | none => rfl
  | some T => simp [readsLeft, Nat.sub_sub]

theorem readsLeft_of_stopped {stop : Option ℕ} {k : ℕ}
    (h : ¬ (stop.elim true fun n => decide (k < n)) = true) : readsLeft stop k = some 0 := by
  cases stop with
  | none => exact absurd rfl h
  | some T =>
    have hle : T ≤ k := by simpa using h
    simp [readsLeft, hle]

theorem upTo_readsLeft {α : Type*} {stop : Option ℕ} {k : ℕ}
    (h : (stop.elim true fun n => decide (k < n)) = true) (a : α) (l : List α) :
    upTo (readsLeft stop k) (a :: l) = a :: upTo (readsLeft stop (k + 1)) l := by
  cases stop with
  | none => rfl
  | some T =>
    have hlt : k < T := by simpa using h
    have hsucc : T - k = (T - (k + 1)) + 1 := by omega
    simp only [readsLeft, upTo, Option.map_some, Option.elim]
    rw [hsucc, List.take_succ_cons]

/-- Any queue that stays stopped once it is stopped has such a moment. -/
theorem exists_stopsAt (env : Env)
    (h : ∀ k, env.stillRunning k = false → env.stillRunning (k + 1) = false) :
    ∃ stop, env.StopsAt stop := by
  by_cases hall : ∀ k, env.stillRunning k = true
  · exact ⟨none, hall⟩
  · have hex : ∃ k, env.stillRunning k = false := by simpa using hall
    refine ⟨some (Nat.find hex), fun k => ?_⟩
    have hafter : ∀ j, env.stillRunning (Nat.find hex + j) = false := by
      intro j
      induction j with
      | zero => exact Nat.find_spec hex
      | succ j ih => exact h _ ih
    simp only [Option.elim]
    by_cases hk : k < Nat.find hex
    · have htrue : env.stillRunning k = true := by simpa using Nat.find_min hex hk
      simp [htrue, hk]
    · obtain ⟨j, rfl⟩ := Nat.exists_eq_add_of_le (not_lt.1 hk)
      simp [hafter j]

/-! ### The calls of a request -/

/-- The calls for the filters `fs`, each as often as its destination asks for; `draws` numbers were
drawn before. -/
def planned (cmd : TFilter → Commands) (env : Env) : ℕ → List TFilter → List TFilter
  | _, [] => []
  | draws, f :: fs =>
    List.replicate ((cmd f).numDups (env.draw draws)) f ++
      planned cmd env (draws + if (cmd f).draws then 1 else 0) fs

/-- The numbers drawn for a list of filters. -/
def drawsFor (cmd : TFilter → Commands) (fs : List TFilter) : ℕ := fs.countP fun f => (cmd f).draws

theorem planned_append (cmd : TFilter → Commands) (env : Env) (draws : ℕ) (fs gs : List TFilter) :
    planned cmd env draws (fs ++ gs) =
      planned cmd env draws fs ++ planned cmd env (draws + drawsFor cmd fs) gs := by
  induction fs generalizing draws with
  | nil => rfl
  | cons f fs ih =>
    have hdraws : drawsFor cmd (f :: fs) = (if (cmd f).draws then 1 else 0) + drawsFor cmd fs := by
      rw [drawsFor, List.countP_cons, Nat.add_comm]
      rfl
    rw [List.cons_append, planned, planned, ih, hdraws, List.append_assoc, Nat.add_assoc]

theorem planned_congr (cmd : TFilter → Commands) {env env' : Env} (h : env.draw = env'.draw)
    (draws : ℕ) (fs : List TFilter) : planned cmd env draws fs = planned cmd env' draws fs := by
  induction fs generalizing draws with
  | nil => rfl
  | cons f fs ih => rw [planned, planned, h, ih]

theorem mem_planned {cmd : TFilter → Commands} {env : Env} {draws : ℕ} {fs : List TFilter}
    {f : TFilter} (h : f ∈ planned cmd env draws fs) : f ∈ fs := by
  induction fs generalizing draws with
  | nil => cases h
  | cons g fs ih =>
    rcases List.mem_append.1 h with h | h
    · rw [List.eq_of_mem_replicate h]
      exact List.mem_cons_self
    · exact List.mem_cons_of_mem _ (ih h)

namespace RunState

/-- The filters of the calls made so far. -/
def filters (w : RunState) : List TFilter := w.calls.map CurlCall.matchedFilter

theorem duplicate_spec (w : RunState) (env : Env) (f : TFilter) (c : Commands) :
    (w.duplicate env f c).filters = w.filters ++ [f] ∧ (w.duplicate env f c).polls = w.polls ∧
      (w.duplicate env f c).draws = w.draws ∧
      (w.duplicate env f c).proc.mDuplicatedCount = w.proc.mDuplicatedCount + 1 := by
  refine ⟨?_, ?_, ?_, ?_⟩
  · rw [filters, duplicate_calls, List.map_append, List.map_singleton, curlCall_matchedFilter]
    rfl
  · unfold duplicate
    split_ifs <;> rfl
  · unfold duplicate
    split_ifs <;> rfl
  · unfold duplicate
    split_ifs <;> rfl

/-- **The inner loop**: it makes its calls up to the stop, which then is nearer by as many. -/
theorem duplicateLoop_spec {env : Env} {stop : Option ℕ} (hstop : env.StopsAt stop) (f : TFilter)
    (c : Commands) (n : ℕ) (w : RunState) :
    (duplicateLoop env f c n w).filters =
        w.filters ++ upTo (readsLeft stop w.polls) (List.replicate n f) ∧
      readsLeft stop (duplicateLoop env f c n w).polls = (readsLeft stop w.polls).map (· - n) ∧
      (duplicateLoop env f c n w).draws = w.draws := by
  induction n generalizing w with
  | zero =>
    rw [List.replicate_zero, upTo_nil, List.append_nil]
    exact ⟨rfl, by simp [duplicateLoop], rfl⟩
  | succ n ih =>
    simp only [duplicateLoop]
    split_ifs with hrun
    · obtain ⟨hfilters, hpolls, hdraws, -⟩ :=
        duplicate_spec { w with polls := w.polls + 1 } env f c
      obtain ⟨ihfilters, ihpolls, ihdraws⟩ := ih ({ w with polls := w.polls + 1 }.duplicate env f c)
      have hsame : { w with polls := w.polls + 1 }.filters = w.filters := rfl
      rw [hpolls] at ihfilters ihpolls
      rw [hfilters, hsame] at ihfilters
      refine ⟨?_, ?_, ihdraws.trans hdraws⟩
      · rw [ihfilters, List.append_assoc, List.replicate_succ, upTo_readsLeft (hstop _ ▸ hrun)]
        rfl
      · rw [ihpolls, ← readsLeft_add, ← readsLeft_add, Nat.add_right_comm, Nat.add_assoc]
    · -- stopped: nothing is left, and stays so
      have hnone := readsLeft_of_stopped (hstop w.polls ▸ hrun)
      have hnone' : readsLeft stop (w.polls + 1) = some 0 := by
        rw [readsLeft_add, hnone]
        rfl
      rw [hnone]
      exact ⟨(List.append_nil _).symm, hnone'.trans (by simp), rfl⟩

end RunState

section Run

variable {p : RequestProcessor} {orig : RequestInfo} {H : KeyValList} {fs : List TFilter}

/-- **The outer loop**: the calls that are planned, up to the stop. -/
theorem foldlM_sendFor_spec {env : Env} {stop : Option ℕ} (hstop : env.StopsAt stop)
    {cmd : TFilter → Commands}
    (hcmd : ∀ f ∈ fs, p.commands? orig.mConf f.mDestination = some (cmd f)) {l : List TFilter}
    (hl : l ⊆ fs) {w : RunState} (hw : SendInv p orig H fs w) :
    ∃ w', l.foldlM (RunState.sendFor env) w = some w' ∧
      w'.filters = w.filters ++ upTo (readsLeft stop w.polls) (planned cmd env w.draws l) := by
  induction l generalizing w with
  | nil =>
    refine ⟨w, rfl, ?_⟩
    rw [planned, upTo_nil, List.append_nil]
  | cons f l ih =>
    obtain ⟨hf, hl⟩ := List.cons_subset.1 hl
    have hc := hcmd f hf
    -- the state in which the inner loop starts, and the one it leaves
    set w₀ : RunState := { w with draws := ((cmd f).toDuplicateInt env w.draws).2 } with hw₀
    set n := ((cmd f).toDuplicateInt env w.draws).1 with hn
    have hinv : SendInv p orig H fs w₀ := ⟨hw.commands, hw.codec, hw.shared, hw.calls⟩
    obtain ⟨hfilters, hpolls, hdraws⟩ := RunState.duplicateLoop_spec hstop f (cmd f) n w₀
    obtain ⟨w', hw', hfilters'⟩ := ih hl (sendInv_duplicateLoop env hf hc n hinv)
    refine ⟨w', ?_, ?_⟩
    · rw [List.foldlM_cons, sendFor_eq env hc hw]
      exact hw'
    · have hplan : planned cmd env w.draws (f :: l) =
          List.replicate n f ++ planned cmd env w₀.draws l := by
        rw [planned, hn, hw₀, toDuplicateInt_eq]
      rw [hfilters', hfilters, hpolls, hdraws, hplan, upTo_append, List.length_replicate,
        List.append_assoc]
      rfl

end Run

/-- The commands of the destination of a filter, which are there in a configured server. -/
def RequestProcessor.commandsOf (p : RequestProcessor) (r : RequestInfo) (f : TFilter) :
    Commands := (p.commands? r.mConf f.mDestination).getD {}

/-- The calls of `runOne`: all that are planned, up to the stop. -/
theorem runOne_filters (ops : List ConfOp) {env : Env} {stop : Option ℕ}
    (hstop : env.StopsAt stop) (r : RequestInfo) :
    let p := (ConfState.run ops).proc
    let matched := (p.processRequest (r.parsed p.mUrlCodec)).1
    ∃ w, p.runOne env r = some w ∧
      w.filters = upTo stop (planned (p.commandsOf r) env 0 matched) ∧
      w.proc.mDuplicatedCount = p.mDuplicatedCount + w.calls.length := by
  intro p matched
  set orig := r.parsed p.mUrlCodec
  have hcmd : ∀ f ∈ matched, p.commands? orig.mConf f.mDestination = some (p.commandsOf r f) := by
    intro f hf
    obtain ⟨c, hc, -⟩ := mem_processRequest hf
    have hc' : p.commands? r.mConf f.mDestination = some c := hc
    rw [RequestProcessor.commandsOf, hc']
    exact hc
  obtain ⟨w, hw, hfilters⟩ := foldlM_sendFor_spec hstop hcmd (List.Subset.refl matched)
    (sendInv_start p orig)
  -- every call is counted when it is made
  obtain ⟨w', hw', -, hcount⟩ := runOne_invariant
    (P := fun w => w.proc.mDuplicatedCount = p.mDuplicatedCount + w.filters.length) ops env r
    (fun _ _ _ h => h) (fun w f c _ _ _ h => by
      obtain ⟨hfilters, -, -, hone⟩ := RunState.duplicate_spec w env f c
      rw [hfilters, hone, h, List.length_append, List.length_singleton, Nat.add_assoc]) rfl
  obtain rfl : w = w' := Option.some.inj (hw.symm.trans hw')
  have hleft : readsLeft stop 0 = stop := by
    cases stop <;> rfl
  refine ⟨w, hw, ?_, ?_⟩
  · rw [hfilters, hleft]
    rfl
  · rw [hcount, RunState.filters, List.length_map]

theorem nodup_destinations_matched (ops : List ConfOp) (r : RequestInfo) :
    (((ConfState.run ops).proc.processRequest r).1.map TFilter.mDestination).Nodup := by
  rw [RequestProcessor.processRequest_destinations]
  exact (RequestProcessor.nodup_destinations _ r).filter _

/-- The calls planned for one filter among others with other destinations. -/
theorem countP_planned {cmd : TFilter → Commands} {env : Env} {pre post : List TFilter}
    {f : TFilter} (h : ((pre ++ f :: post).map TFilter.mDestination).Nodup) :
    (planned cmd env 0 (pre ++ f :: post)).countP (fun g => g.mDestination = f.mDestination) =
      (cmd f).numDups (env.draw (drawsFor cmd pre)) := by
  rw [List.map_append, List.map_cons, List.nodup_append] at h
  obtain ⟨-, hpost, hdisj⟩ := h
  have hnone : ∀ (fs : List TFilter) (k : ℕ), (∀ g ∈ fs, g.mDestination ≠ f.mDestination) →
      (planned cmd env k fs).countP (fun g => g.mDestination = f.mDestination) = 0 := by
    intro fs k hfs
    rw [List.countP_eq_zero]
    intro g hg heq
    exact hfs g (mem_planned hg) (by simpa using heq)
  have hpre' : ∀ g ∈ pre, g.mDestination ≠ f.mDestination := by
    intro g hg
    exact hdisj _ (List.mem_map_of_mem hg) _ List.mem_cons_self
  have hpost' : ∀ g ∈ post, g.mDestination ≠ f.mDestination := by
    intro g hg heq
    exact (List.nodup_cons.1 hpost).1 (heq ▸ List.mem_map_of_mem hg)
  rw [planned_append, planned, List.countP_append, List.countP_append, hnone pre 0 hpre',
    hnone post _ hpost', List.countP_replicate]
  simp

theorem mem_upTo {α : Type*} {stop : Option ℕ} {l : List α} {a : α} (h : a ∈ upTo stop l) :
    a ∈ l := by
  cases stop with
  | none => exact h
  | some n => exact List.mem_of_mem_take h

/-- **The number of duplications.**  The calls of `runOne` are those planned, in the order of the
matched destinations, and stop with the queue.  If it is not stopped, a matched destination with
percentage `p` gets `p / 100` calls and one more iff its draw says so; no other destination gets
one.  Over the residues of the draw this adds up to `p`, and every call is counted, in the counter
of 32 bits too. -/
theorem number_of_duplications (ops : List ConfOp) (env : Env) (stop : Option ℕ)
    (hstop : env.StopsAt stop) (r : RequestInfo) :
    let p := (ConfState.run ops).proc
    let matched := (p.processRequest (r.parsed p.mUrlCodec)).1
    ∃ w, p.runOne env r = some w ∧
      w.calls.map CurlCall.matchedFilter = upTo stop (planned (p.commandsOf r) env 0 matched) ∧
      (stop = none → ∀ pre f post, matched = pre ++ f :: post →
        w.calls.countP (fun call => call.matchedFilter.mDestination = f.mDestination) =
          (p.commandsOf r f).mDuplicationPercentage / 100 +
            if (p.commandsOf r f).mDuplicationPercentage % 100 ≠ 0 ∧
              (env.draw (drawsFor (p.commandsOf r) pre)).any
                (fun n => n % 100 < (p.commandsOf r f).mDuplicationPercentage % 100)
            then 1 else 0) ∧
      (∀ d, p.matched? (r.parsed p.mUrlCodec) d = none →
        ∀ call ∈ w.calls, call.matchedFilter.mDestination ≠ d) ∧
      (∀ c : Commands, ∑ n ∈ Finset.range 100, c.numDups (some n) = c.mDuplicationPercentage) ∧
      w.proc.mDuplicatedCount % 2 ^ 32 =
        (p.mDuplicatedCount % 2 ^ 32 + w.calls.length) % 2 ^ 32 := by
  intro p matched
  obtain ⟨w, hw, hfilters, hcount⟩ := runOne_filters ops hstop r
  refine ⟨w, hw, hfilters, ?_, ?_, sum_numDups, ?_⟩
  · rintro rfl pre f post hmatched
    have hnodup := nodup_destinations_matched ops (r.parsed p.mUrlCodec)
    have hall : w.filters = planned (p.commandsOf r) env 0 (pre ++ f :: post) := by
      rw [hfilters, ← hmatched]
      rfl
    have hcalls : w.calls.countP (fun call => call.matchedFilter.mDestination = f.mDestination) =
        w.filters.countP fun g => g.mDestination = f.mDestination := by
      rw [RunState.filters, List.countP_map]
      rfl
    rw [hcalls, hall]
    exact countP_planned (hmatched ▸ hnodup)
  · rintro d hd call hcall rfl
    have hfilter : call.matchedFilter ∈ w.filters := List.mem_map_of_mem hcall
    rw [hfilters] at hfilter
    have hmem : call.matchedFilter ∈ matched := mem_planned (mem_upTo hfilter)
    have hdest := List.mem_map_of_mem (f := TFilter.mDestination) hmem
    rw [RequestProcessor.processRequest_destinations, List.mem_filter] at hdest
    simp [p, hd] at hdest
  · rw [hcount, Nat.mod_add_mod]

/-- The location of the sample request, with three calls for each request in half of the cases and
two in the others. -/
def amplifyOps : List ConfOp :=
  sampleOps ++ [.setDestinationDuplicationPercentage 1 (str "host") 250]

theorem number_of_duplications_stopped :
    ∃ w, (ConfState.run amplifyOps).proc.runOne
        ⟨fun _ => some 349, fun k => k < 2, fun _ => ([], 0)⟩ sampleRequest = some w ∧
      w.calls.map (fun call => call.matchedFilter.mDestination) = [str "host", str "host"] := by
  obtain ⟨w, hw, hcalls, -⟩ := number_of_duplications amplifyOps
    ⟨fun _ => some 349, fun k => k < 2, fun _ => ([], 0)⟩ (some 2) (fun _ => rfl) sampleRequest
  refine ⟨w, hw, ?_⟩
  have hdest := congrArg (List.map TFilter.mDestination) hcalls
  rw [List.map_map] at hdest
  refine hdest.trans ?_
  decide +kernel

end ModDup
