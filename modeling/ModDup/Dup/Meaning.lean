import ModDup.Dup.Directives
import ModDup.Lib.Runs

/-!
# What a configuration means

The functions of the directives (`src/mod_dup.cc`) see one line after the other.  What a whole
configuration means can be read off its lines: a line declares something at the cursor that the
lines of its location before it have set, and the commands of a destination are what was declared
for it, in order.

## Main definitions

* `confOf` : the cursor that the lines of a location set.
* `declarations` : what is declared for a destination.
* `build` : the commands made by a list of declarations.

## Main results

* `load_confs`, `load_commands` : what is loaded is what is declared.
* `configuration_accepted_iff` : which configurations a server starts with.
* `configuration_meaning` : what it starts with.
* `locations_independent` : no location sees the lines of another.
-/

namespace ModDup

open Bytes

variable {h : Host} {s t : DupSetup} {c : ℕ} {d : Bytes}

/-! ### What is declared -/

/-- The lines of a location. -/
def ofLocation (c : ℕ) (lines : List Line) : List Line := lines.filter fun line => line.addr = c

/-- The configuration object of a location after its lines. -/
def confOf (c : ℕ) (lines : List Line) : DupConf := Runs.run Line.cursor {} (ofLocation c lines)

/-- What a line declares for destination `d` of location `c`, after the lines `pre`. -/
def declaredBy (h : Host) (c : ℕ) (d : Bytes) (pre : List Line) (line : Line) :
    Option Declaration :=
  if line.addr = c then
    (line.declares h (confOf c pre)).bind fun x => if x.1 = d then some x.2 else none
  else none

/-- What is declared for destination `d` of location `c`, in order. -/
def declarations (h : Host) (c : ℕ) (d : Bytes) (lines : List Line) : List Declaration :=
  (Runs.before lines).filterMap fun p => declaredBy h c d p.1 p.2

/-- The commands made by declarations; without one there are none. -/
def build (l : List Declaration) : Option Commands :=
  if l = [] then none else some (l.foldl Declaration.addTo {})

theorem build_snoc (l : List Declaration) (x : Declaration) :
    build (l ++ [x]) = some (x.addTo ((build l).getD {})) := by
  unfold build
  rw [if_neg (by simp), List.foldl_append]
  split_ifs with hl
  · rw [hl]
    rfl
  · rfl

theorem ofLocation_snoc (c : ℕ) (lines : List Line) (line : Line) :
    ofLocation c (lines ++ [line]) =
      if line.addr = c then ofLocation c lines ++ [line] else ofLocation c lines := by
  unfold ofLocation
  rw [List.filter_append]
  by_cases hc : line.addr = c
  · simp [hc]
  · simp [hc]

theorem confOf_snoc (c : ℕ) (lines : List Line) (line : Line) :
    confOf c (lines ++ [line]) =
      if line.addr = c then line.cursor (confOf c lines) else confOf c lines := by
  unfold confOf
  rw [ofLocation_snoc]
  split_ifs
  · rw [Runs.run_snoc]
  · rfl

theorem declarations_snoc (h : Host) (c : ℕ) (d : Bytes) (lines : List Line) (line : Line) :
    declarations h c d (lines ++ [line]) =
      declarations h c d lines ++ (declaredBy h c d lines line).toList := by
  unfold declarations
  rw [Runs.before_snoc, List.filterMap_append]
  cases hx : declaredBy h c d lines line <;> simp [hx]

/-! ### What is loaded -/

/-- The configuration objects behind a line. -/
def nextConfs (confs : ℕ → DupConf) (line : Line) : ℕ → DupConf :=
  Function.update confs line.addr (line.cursor (confs line.addr))

theorem run_nextConfs (lines : List Line) :
    Runs.run nextConfs (fun _ => {}) lines = fun c => confOf c lines := by
  induction lines using List.reverseRecOn with
  | nil => rfl
  | append_singleton lines line ih =>
    funext c
    rw [Runs.run_snoc, ih, confOf_snoc, nextConfs]
    by_cases hc : line.addr = c
    · subst hc
      rw [Function.update_self, if_pos rfl]
    · rw [Function.update_of_ne (Ne.symm hc), if_neg hc]

/-- **The objects of the locations are as their lines say.** -/
theorem load_confs {lines : List Line} (hload : load h lines = .ok s) :
    s.conf.confs = fun c => confOf c lines := by
  rw [← run_nextConfs]
  exact Runs.cur_foldlM (fun s : DupSetup => s.conf.confs)
    (fun _ _ _ ht => (Line.effect_set ht).confs) hload

theorem commands?_set {line : Line} (ht : line.set h s = .ok t) (c : ℕ) (d : Bytes) :
    t.conf.proc.commands? c d =
      match line.declares h (s.conf.confs line.addr) with
      | none => s.conf.proc.commands? c d
      | some (d', x) =>
        if c = line.addr ∧ d = d' then some (x.addTo ((s.conf.proc.commands? c d).getD {}))
        else s.conf.proc.commands? c d := by
  have heffect := Line.effect_set ht
  cases hx : line.declares h (s.conf.confs line.addr) with
  | none => rw [RequestProcessor.commands?, heffect.quiet hx, RequestProcessor.commands?]
  | some p =>
    obtain ⟨d', x⟩ := p
    have hcommands : t.conf.proc.commands? c d = (s.conf.proc.modifyCommands line.addr d'
        fun cmds => x.addTo cmds).commands? c d := by
      rw [RequestProcessor.commands?, heffect.declared d' x hx, RequestProcessor.commands?]
    rw [hcommands, RequestProcessor.commands?_modifyCommands]
    dsimp only
    split_ifs with hcd
    · rw [hcd.1, hcd.2]
    · rfl

/-- **The commands of a destination are what was declared for it.** -/
theorem load_commands {lines : List Line} (hload : load h lines = .ok s) (c : ℕ) (d : Bytes) :
    s.conf.proc.commands? c d = build (declarations h c d lines) := by
  refine Runs.foldlM_history (P := fun lines s => s.conf.proc.commands? c d =
    build (declarations h c d lines)) rfl ?_ hload
  intro lines u line t hu hcommands ht
  have hconf : u.conf.confs line.addr = confOf line.addr lines := by rw [load_confs hu]
  rw [commands?_set ht, hcommands, hconf, declarations_snoc, declaredBy]
  by_cases hc : line.addr = c
  · subst hc
    rw [if_pos rfl]
    cases line.declares h (confOf line.addr lines) with
    | none => simp
    | some p =>
      obtain ⟨d', x⟩ := p
      by_cases hd : d' = d
      · subst hd
        simp [build_snoc]
      · simp [hd, Ne.symm hd]
  · have hc' : ∀ d', ¬ (c = line.addr ∧ d = d') := fun _ heq => hc heq.1.symm
    rw [if_neg hc]
    cases line.declares h (confOf line.addr lines) with
    | none => simp
    | some p => simp [hc']

/-- A configuration is made by operations, so what holds of every configured server holds of a
server that has loaded one. -/
theorem load_run {lines : List Line} (hload : load h lines = .ok s) :
    ∃ ops : List ConfOp, s.conf = ConfState.run ops := by
  refine Runs.foldlM_history (P := fun _ s => ∃ ops : List ConfOp, s.conf = ConfState.run ops)
    ⟨[], rfl⟩ ?_ hload
  rintro lines u line t - ⟨ops, hops⟩ ht
  obtain ⟨ops', hops'⟩ := (Line.effect_set ht).ops
  refine ⟨ops ++ ops', ?_⟩
  rw [hops', hops, ConfState.run, ConfState.run, List.foldl_append]

/-! ### The tables -/

namespace Declaration

/-- The filter declared, with its key. -/
@[simp] def filter? : Declaration → Option (Bytes × TFilter)
  | .filter key f => some (key, f)
  | _ => none

@[simp] def rawFilter? : Declaration → Option TFilter
  | .rawFilter f => some f
  | _ => none

/-- The substitution declared for a key. -/
@[simp] def substitution? (key : Bytes) : Declaration → Option TSubstitute
  | .substitution k s => if k = key then some s else none
  | _ => none

@[simp] def rawSubstitution? : Declaration → Option TSubstitute
  | .rawSubstitution s => some s
  | _ => none

@[simp] def percentage? : Declaration → Option ℕ
  | .percentage n => some n
  | _ => none

end Declaration

/-- **The tables of a destination**: each holds what was declared for it, in order; the last
percentage counts. -/
structure Tables (c : Commands) (l : List Declaration) : Prop where
  filters : c.mFilters = l.filterMap Declaration.filter?
  rawFilters : c.mRawFilters = l.filterMap Declaration.rawFilter?
  substitutions : ∀ key, (c.mSubstitutions.get? key).getD [] =
    l.filterMap (Declaration.substitution? key)
  rawSubstitutions : c.mRawSubstitutions = l.filterMap Declaration.rawSubstitution?
  percentage : c.mDuplicationPercentage = (l.filterMap Declaration.percentage?).getLast?.getD 100

theorem tables_foldl (l : List Declaration) : Tables (l.foldl Declaration.addTo {}) l := by
  induction l using List.reverseRecOn with
  | nil => exact ⟨rfl, rfl, fun _ => by simp, rfl, rfl⟩
  | append_singleton l x ih =>
    obtain ⟨hfilters, hraw, hsubst, hrawSubst, hperc⟩ := ih
    rw [List.foldl_append, List.foldl_cons, List.foldl_nil]
    cases x with
    | filter key f =>
      refine ⟨?_, ?_, fun k => ?_, ?_, ?_⟩
      · simp [Declaration.addTo, hfilters]
      · simp [Declaration.addTo, hraw]
      · simp [Declaration.addTo, hsubst]
      · simp [Declaration.addTo, hrawSubst]
      · simp [Declaration.addTo, hperc]
    | rawFilter f =>
      refine ⟨?_, ?_, fun k => ?_, ?_, ?_⟩
      · simp [Declaration.addTo, hfilters]
      · simp [Declaration.addTo, hraw]
      · simp [Declaration.addTo, hsubst]
      · simp [Declaration.addTo, hrawSubst]
      · simp [Declaration.addTo, hperc]
    | substitution key s =>
      refine ⟨?_, ?_, fun k => ?_, ?_, ?_⟩
      · simp [Declaration.addTo, hfilters]
      · simp [Declaration.addTo, hraw]
      · by_cases hk : key = k
        · subst hk
          simp [Declaration.addTo, hsubst]
        · simp [Declaration.addTo, hsubst, hk, Ne.symm hk]
      · simp [Declaration.addTo, hrawSubst]
      · simp [Declaration.addTo, hperc]
    | rawSubstitution s =>
      refine ⟨?_, ?_, fun k => ?_, ?_, ?_⟩
      · simp [Declaration.addTo, hfilters]
      · simp [Declaration.addTo, hraw]
      · simp [Declaration.addTo, hsubst]
      · simp [Declaration.addTo, hrawSubst]
      · simp [Declaration.addTo, hperc]
    | percentage n =>
      refine ⟨?_, ?_, fun k => ?_, ?_, ?_⟩
      · simp [Declaration.addTo, hfilters]
      · simp [Declaration.addTo, hraw]
      · simp [Declaration.addTo, hsubst]
      · simp [Declaration.addTo, hrawSubst]
      · simp [Declaration.addTo]

theorem tables_build {l : List Declaration} {cmds : Commands} (h : build l = some cmds) :
    Tables cmds l := by
  unfold build at h
  split_ifs at h
  exact Option.some.inj h ▸ tables_foldl l

/-! ### The pool -/

/-- The last line of `DupThreads` or `DupQueue`, as `sets` reads it. -/
def lastBounds (sets : Directive → Option (ℕ × ℕ)) (lines : List Line) : ℕ × ℕ :=
  (lines.filterMap fun line => sets line.directive).getLast?.getD (1, 10)

/-- The numbers of a `DupThreads`. -/
def threads? : Directive → Option (ℕ × ℕ)
  | .dupThreads pMin pMax => bounds? pMin pMax
  | _ => none

/-- The numbers of a `DupQueue`. -/
def queue? : Directive → Option (ℕ × ℕ)
  | .dupQueue pMin pMax => bounds? pMin pMax
  | _ => none

theorem lastBounds_snoc (sets : Directive → Option (ℕ × ℕ)) (lines : List Line) (line : Line) :
    lastBounds sets (lines ++ [line]) = (sets line.directive).getD (lastBounds sets lines) := by
  unfold lastBounds
  rw [List.filterMap_append]
  cases hx : sets line.directive <;> simp [hx]

theorem pool_eq {line : Line} (ht : line.set h s = .ok t)
    (hthreads : ∀ pMin pMax, line.directive ≠ .dupThreads pMin pMax)
    (hqueue : ∀ pMin pMax, line.directive ≠ .dupQueue pMin pMax) : t.pool = s.pool := by
  have hdeclare : ∀ {text missing invalid : Bytes} {op : Regex → ConfOp},
      s.declare h line.addr line.path text missing invalid op = .ok t → t.pool = s.pool := by
    intro text missing invalid op hok
    obtain ⟨-, re, -, rfl⟩ := DupSetup.declare_eq_ok.1 hok
    rfl
  have hfilter : ∀ {fType : FilterTypes} {pField pFilter : Bytes},
      s.filterOf h line.addr line.path fType pField pFilter = .ok t → t.pool = s.pool := by
    intro fType pField pFilter hok
    obtain ⟨-, re, -, rfl⟩ := DupSetup.filterOf_eq_ok.1 hok
    rfl
  unfold Line.set at ht
  cases hd : line.directive with
  | dupThreads pMin pMax => exact absurd hd (hthreads pMin pMax)
  | dupQueue pMin pMax => exact absurd hd (hqueue pMin pMax)
  | dupName pName =>
    simp only [hd, DupSetup.setName] at ht
    split_ifs at ht
    exact Except.ok.inj ht ▸ rfl
  | dupUrlCodec pUrlCodec =>
    simp only [hd, DupSetup.setUrlCodec] at ht
    split_ifs at ht
    exact Except.ok.inj ht ▸ rfl
  | dupTimeout pTimeout =>
    simp only [hd, DupSetup.setTimeout] at ht
    split at ht
    · cases ht
    · exact Except.ok.inj ht ▸ rfl
  | dupDuplicationType pDupType =>
    simp only [hd, DupSetup.setDuplicationType, DupSetup.bind_setActive_eq_ok] at ht
    obtain ⟨-, ht⟩ := ht
    split at ht
    · cases ht
    · exact Except.ok.inj ht ▸ rfl
  | dupDestination pDestination perc =>
    simp only [hd, DupSetup.setDestination_eq_ok] at ht
    obtain ⟨-, n, -, rfl⟩ := ht
    rfl
  | dupApplicationScope pAppScope =>
    simp only [hd, DupSetup.setApplicationScope, DupSetup.bind_setActive_eq_ok] at ht
    obtain ⟨-, ht⟩ := ht
    split at ht
    · cases ht
    · exact Except.ok.inj ht ▸ rfl
  | dupFilter pField pFilter => rw [hd] at ht; exact hfilter ht
  | dupPreventFilter pField pFilter => rw [hd] at ht; exact hfilter ht
  | dupRawFilter pExpression => rw [hd] at ht; exact hdeclare ht
  | dupRawPreventFilter pExpression => rw [hd] at ht; exact hdeclare ht
  | dupRawSubstitute pMatch pReplace => rw [hd] at ht; exact hdeclare ht
  | dupSubstitute pField pMatch pReplace => rw [hd] at ht; exact hdeclare ht
  | dupErrorLogBodyMatch pMatch =>
    simp only [hd, DupSetup.setErrorLogBodyMatch] at ht
    split at ht
    · cases ht
    · exact Except.ok.inj ht ▸ rfl
  | dupSync =>
    simp only [hd, DupSetup.setSynchronous] at ht
    exact Except.ok.inj ht ▸ rfl
  | dup =>
    simp only [hd, DupSetup.setActive_eq_ok] at ht
    rw [ht.2]
    rfl

theorem pool_set {line : Line} (ht : line.set h s = .ok t) :
    (t.pool.mMinThreads, t.pool.mMaxThreads) =
        (threads? line.directive).getD (s.pool.mMinThreads, s.pool.mMaxThreads) ∧
      (t.pool.mMinQueued, t.pool.mMaxQueued) =
        (queue? line.directive).getD (s.pool.mMinQueued, s.pool.mMaxQueued) := by
  cases hd : line.directive with
  | dupThreads pMin pMax =>
    rw [Line.set, hd] at ht
    obtain ⟨lMin, lMax, hle, hb, rfl⟩ := DupSetup.setThreads_eq_ok.1 ht
    rw [threads?, queue?, hb]
    · exact ⟨rfl, rfl⟩
    · simp
  | dupQueue pMin pMax =>
    rw [Line.set, hd] at ht
    obtain ⟨lMin, lMax, hle, hb, rfl⟩ := DupSetup.setQueue_eq_ok.1 ht
    rw [threads?, queue?, hb]
    · exact ⟨rfl, rfl⟩
    · simp
  | _ =>
    rw [pool_eq ht (by simp [hd]) (by simp [hd])]
    exact ⟨rfl, rfl⟩

theorem load_pool {lines : List Line} (hload : load h lines = .ok s) :
    (s.pool.mMinThreads, s.pool.mMaxThreads) = lastBounds threads? lines ∧
      (s.pool.mMinQueued, s.pool.mMaxQueued) = lastBounds queue? lines := by
  refine Runs.foldlM_history (P := fun lines s =>
    (s.pool.mMinThreads, s.pool.mMaxThreads) = lastBounds threads? lines ∧
      (s.pool.mMinQueued, s.pool.mMaxQueued) = lastBounds queue? lines) ⟨rfl, rfl⟩ ?_ hload
  rintro lines u line t - ⟨hthreads, hqueue⟩ ht
  rw [lastBounds_snoc, lastBounds_snoc, ← hthreads, ← hqueue]
  exact pool_set ht

/-! ### Whole configurations -/

/-- A configuration is accepted when each of its lines is. -/
theorem accepted_iff (h : Host) (lines : List Line) :
    (∃ s, load h lines = .ok s) ↔
      ∀ p ∈ Runs.before lines, p.2.Accepted h (confOf p.2.addr p.1) = true := by
  have hcur : ∀ s line t, Line.set h s line = .ok t →
      t.conf.confs = nextConfs s.conf.confs line := fun _ _ _ ht => (Line.effect_set ht).confs
  have hrule := Runs.accepts_iff (fun s : DupSetup => s.conf.confs)
    (fun confs line => line.Accepted h (confs line.addr) = true) hcur
    (fun _ line => Line.set_iff line) {} lines
  simp only [run_nextConfs] at hrule
  exact hrule

/-- **Which configurations a server starts with**: those whose lines are all accepted at the cursor
that the lines of their location have set.  Otherwise the text it gives up with is that of the first
line that is not. -/
theorem configuration_accepted_iff (h : Host) (lines : List Line) :
    ((∃ s, load h lines = .ok s) ↔
        ∀ p ∈ Runs.before lines, p.2.Accepted h (confOf p.2.addr p.1) = true) ∧
      ∀ e, load h lines = .error e → ∃ pre line post s, lines = pre ++ line :: post ∧
        load h pre = .ok s ∧ line.Accepted h (confOf line.addr pre) = false ∧
        line.set h s = .error e := by
  refine ⟨accepted_iff h lines, fun e he => ?_⟩
  obtain ⟨pre, line, post, s, hlines, hpre, hset⟩ := Runs.foldlM_refused he
  refine ⟨pre, line, post, s, hlines, hpre, ?_, hset⟩
  have hconf : s.conf.confs line.addr = confOf line.addr pre := by rw [load_confs hpre]
  rw [← hconf, Bool.eq_false_iff, ne_eq, ← Line.set_iff, hset]
  rintro ⟨t, ht⟩
  cases ht

/-- **What a server starts with.**  The object of a location is the cursor its lines have set; the
commands of a destination are there iff something was declared for it, and its tables hold what was
declared for it at the cursor of the time, in order; the pool has the numbers of the last
`DupThreads` and `DupQueue`.  And such a configuration is one of those the operations make. -/
theorem configuration_meaning {lines : List Line} (hload : load h lines = .ok s) :
    (∀ c, s.conf.confs c = confOf c lines) ∧
      (∀ c d, (s.conf.proc.commands? c d = none ↔ declarations h c d lines = []) ∧
        ∀ cmds, s.conf.proc.commands? c d = some cmds →
          Tables cmds (declarations h c d lines)) ∧
      (s.pool.mMinThreads, s.pool.mMaxThreads) = lastBounds threads? lines ∧
      (s.pool.mMinQueued, s.pool.mMaxQueued) = lastBounds queue? lines ∧
      ∃ ops : List ConfOp, s.conf = ConfState.run ops := by
  obtain ⟨hthreads, hqueue⟩ := load_pool hload
  refine ⟨fun c => by rw [load_confs hload], fun c d => ⟨?_, fun cmds hcmds => ?_⟩, hthreads,
    hqueue, load_run hload⟩
  · rw [load_commands hload, build]
    split_ifs with hl <;> simp [hl]
  · rw [load_commands hload] at hcmds
    exact tables_build hcmds

/-- A destination with a filter, and the threads of the pool. -/
theorem configuration_meaning_filter :
    ∃ s cmds, load ⟨fun text => some (.literal text), true⟩
        [⟨1, str "/a", .dupDestination (str "host") none⟩,
          ⟨1, str "/a", .dupFilter (str "key") (str "value")⟩,
          ⟨0, [], .dupThreads (str "1") (str "2")⟩] = .ok s ∧
      s.conf.proc.commands? 1 (str "host") = some cmds ∧
      cmds.mFilters.map Prod.fst = [str "KEY"] ∧
      (s.pool.mMinThreads, s.pool.mMaxThreads) = (1, 2) := by
  obtain ⟨s, hload⟩ := (accepted_iff ⟨fun text => some (.literal text), true⟩
    [⟨1, str "/a", .dupDestination (str "host") none⟩,
      ⟨1, str "/a", .dupFilter (str "key") (str "value")⟩,
      ⟨0, [], .dupThreads (str "1") (str "2")⟩]).2 (by decide +kernel)
  obtain ⟨-, hcommands, hthreads, -⟩ := configuration_meaning hload
  obtain ⟨hnone, htables⟩ := hcommands 1 (str "host")
  cases hcmds : s.conf.proc.commands? 1 (str "host") with
  | none => exact absurd (hnone.1 hcmds) (by decide +kernel)
  | some cmds =>
    refine ⟨s, cmds, hload, hcmds, ?_, hthreads.trans (by decide +kernel)⟩
    rw [(htables cmds hcmds).filters]
    decide +kernel

/-! ### Locations -/

theorem confOf_ofLocation (c : ℕ) (lines : List Line) :
    confOf c (ofLocation c lines) = confOf c lines := by
  rw [confOf, ofLocation, ofLocation, List.filter_filter, confOf, ofLocation]
  simp

theorem declarations_ofLocation (h : Host) (c : ℕ) (d : Bytes) (lines : List Line) :
    declarations h c d (ofLocation c lines) = declarations h c d lines := by
  induction lines using List.reverseRecOn with
  | nil => rfl
  | append_singleton lines line ih =>
    rw [ofLocation_snoc, declarations_snoc]
    by_cases hc : line.addr = c
    · rw [if_pos hc, declarations_snoc, ih, declaredBy, declaredBy, confOf_ofLocation]
    · rw [if_neg hc, ih, declaredBy, if_neg hc]
      simp

/-- **Locations are independent.**  A configuration is accepted iff the lines of each location alone
are, and what a location and its destinations are is what its own lines alone make them. -/
theorem locations_independent (h : Host) (lines : List Line) :
    ((∃ s, load h lines = .ok s) ↔ ∀ c, ∃ s, load h (ofLocation c lines) = .ok s) ∧
      ∀ c s s', load h lines = .ok s → load h (ofLocation c lines) = .ok s' →
        s.conf.confs c = s'.conf.confs c ∧
          ∀ d, s.conf.proc.commands? c d = s'.conf.proc.commands? c d := by
  constructor
  · simp only [accepted_iff]
    induction lines using List.reverseRecOn with
    | nil => simp [ofLocation, Runs.before]
    | append_singleton lines line ih =>
      simp only [Runs.before_snoc, List.forall_mem_append, List.forall_mem_singleton]
      rw [ih]
      constructor
      · rintro ⟨hlines, hline⟩ c
        rw [ofLocation_snoc]
        split_ifs with hc
        · rw [Runs.before_snoc, List.forall_mem_append, List.forall_mem_singleton]
          subst hc
          exact ⟨hlines line.addr, (confOf_ofLocation line.addr lines).symm ▸ hline⟩
        · exact hlines c
      · intro hall
        have hline := hall line.addr
        rw [ofLocation_snoc, if_pos rfl, Runs.before_snoc, List.forall_mem_append,
          List.forall_mem_singleton, confOf_ofLocation] at hline
        refine ⟨fun c => ?_, hline.2⟩
        have hlines := hall c
        rw [ofLocation_snoc] at hlines
        split_ifs at hlines
        · rw [Runs.before_snoc, List.forall_mem_append] at hlines
          exact hlines.1
        · exact hlines
  · intro c s s' hload hload'
    refine ⟨?_, fun d => ?_⟩
    · rw [load_confs hload, load_confs hload']
      exact (confOf_ofLocation c lines).symm
    · rw [load_commands hload, load_commands hload', declarations_ofLocation]

end ModDup
