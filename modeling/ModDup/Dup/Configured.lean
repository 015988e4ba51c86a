import ModDup.Dup.Once

/-!
# The configuration as the requests see it

The directives of a configuration file move a cursor in the configuration object of their location
and add to the commands of the destination it points to (`src/mod_dup.cc` and
`RequestProcessor::addFilter` and the functions after it).  A filter keeps a copy of the cursor;
`runOne` and the body filter rely on what it says.

## Main definitions

* `ConfOp.target` : the commands an operation adds to.
* `Commands.Extends` : what was configured is still there, in its order.

## Main results

* `ConfState.step_spec` : all an operation does to the processor.
* `ConfState.frame_step`, `ConfState.extends_run` : the other commands, and the earlier ones.
* `highest_of_matched` : a filter that wants the answer makes the body filter collect it.
* `configuration_sound` : all of this for every configuration.
-/

namespace ModDup

open Bytes

/-! ### What an operation does -/

/-- The location and destination whose commands an operation adds to; one that throws adds to
none. -/
def ConfOp.target (s : ConfState) : ConfOp → Option (ℕ × Bytes)
  | .addFilter c _ _ _ => some (c, (s.confs c).currentDupDestination)
  | .addRawFilter c _ _ => some (c, (s.confs c).currentDupDestination)
  | .addSubstitution c _ _ _ => some (c, (s.confs c).currentDupDestination)
  | .addRawSubstitution c _ _ => some (c, (s.confs c).currentDupDestination)
  | .setDestinationDuplicationPercentage c destination _ => some (c, destination)
  | _ => none

/-- The substitutions declared for a field. -/
def Commands.declared (c : Commands) (field : Bytes) : List TSubstitute :=
  (c.mSubstitutions.get? field).getD []

/-- What was configured is still there, in the same order, in front of what was added. -/
structure Commands.Extends (old new : Commands) : Prop where
  filters : old.mFilters <+: new.mFilters
  rawFilters : old.mRawFilters <+: new.mRawFilters
  substitutions : ∀ field, old.declared field <+: new.declared field
  rawSubstitutions : old.mRawSubstitutions <+: new.mRawSubstitutions

theorem Commands.Extends.refl (c : Commands) : c.Extends c :=
  ⟨List.prefix_rfl, List.prefix_rfl, fun _ => List.prefix_rfl, List.prefix_rfl⟩

theorem Commands.Extends.trans {a b c : Commands} (h : a.Extends b) (h' : b.Extends c) :
    a.Extends c :=
  ⟨h.filters.trans h'.filters, h.rawFilters.trans h'.rawFilters,
    fun field => (h.substitutions field).trans (h'.substitutions field),
    h.rawSubstitutions.trans h'.rawSubstitutions⟩

namespace ConfState

variable {s : ConfState}

/-- **All an operation does to the processor**: it leaves the commands alone, or adds to those of
its target. -/
theorem step_spec (s : ConfState) (op : ConfOp) :
    (s.step op).proc.mCommands = s.proc.mCommands ∨
      ∃ c d f, op.target s = some (c, d) ∧ (∀ cmds : Commands, cmds.Extends (f cmds)) ∧
        (s.step op).proc = s.proc.modifyCommands c d f := by
  cases op with
  | setUrlCodec pUrlCodec => exact .inl rfl
  | setActive c path => exact .inl rfl
  | setSynchronous c => exact .inl rfl
  | setCurrentDuplicationType c dt => exact .inl rfl
  | setCurrentDupDestination c destination => exact .inl rfl
  | setCurrentApplicationScope c scope => exact .inl rfl
  | addFilter c pField pFilter fType =>
    simp only [step, RequestProcessor.addFilter]
    split_ifs
    · refine .inr ⟨c, _, _, rfl, fun cmds => ?_, rfl⟩
      exact ⟨List.prefix_append _ _, List.prefix_rfl, fun _ => List.prefix_rfl, List.prefix_rfl⟩
    · exact .inl rfl
  | addRawFilter c pFilter fType =>
    simp only [step, RequestProcessor.addRawFilter]
    refine .inr ⟨c, _, _, rfl, fun cmds => ?_, rfl⟩
    exact ⟨List.prefix_rfl, List.prefix_append _ _, fun _ => List.prefix_rfl, List.prefix_rfl⟩
  | addSubstitution c pField pMatch pReplace =>
    simp only [step, RequestProcessor.addSubstitution]
    refine .inr ⟨c, _, _, rfl, fun cmds => ?_, rfl⟩
    refine ⟨List.prefix_rfl, List.prefix_rfl, fun field => ?_, List.prefix_rfl⟩
    by_cases hfield : field = toUpper pField
    · subst hfield
      simp [Commands.declared]
    · simp [Commands.declared, hfield]
  | addRawSubstitution c pRegex pReplace =>
    simp only [step, RequestProcessor.addRawSubstitution]
    refine .inr ⟨c, _, _, rfl, fun cmds => ?_, rfl⟩
    exact ⟨List.prefix_rfl, List.prefix_rfl, fun _ => List.prefix_rfl, List.prefix_append _ _⟩
  | setDestinationDuplicationPercentage c destination percentage =>
    simp only [step, RequestProcessor.setDestinationDuplicationPercentage]
    refine .inr ⟨c, _, _, rfl, fun cmds => ?_, rfl⟩
    exact ⟨List.prefix_rfl, List.prefix_rfl, fun _ => List.prefix_rfl, List.prefix_rfl⟩

/-- **An operation leaves the commands of every other destination and location alone.** -/
theorem frame_step (s : ConfState) (op : ConfOp) {c : ℕ} {d : Bytes}
    (h : op.target s ≠ some (c, d)) :
    (s.step op).proc.commands? c d = s.proc.commands? c d := by
  rcases step_spec s op with hsame | ⟨c', d', f, htarget, -, hproc⟩
  · rw [RequestProcessor.commands?, hsame, RequestProcessor.commands?]
  · rw [hproc, RequestProcessor.commands?_modifyCommands, if_neg]
    rintro ⟨rfl, rfl⟩
    exact h htarget

theorem extends_step (s : ConfState) (op : ConfOp) {c : ℕ} {d : Bytes} {cmds : Commands}
    (hget : s.proc.commands? c d = some cmds) :
    ∃ cmds', (s.step op).proc.commands? c d = some cmds' ∧ cmds.Extends cmds' := by
  rcases step_spec s op with hsame | ⟨c', d', f, -, hf, hproc⟩
  · refine ⟨cmds, ?_, Commands.Extends.refl cmds⟩
    rw [RequestProcessor.commands?, hsame]
    exact hget
  · rw [hproc, RequestProcessor.commands?_modifyCommands]
    split_ifs with hcd
    · obtain ⟨rfl, rfl⟩ := hcd
      exact ⟨_, rfl, by rw [hget]; exact hf cmds⟩
    · exact ⟨cmds, hget, Commands.Extends.refl cmds⟩

/-- **What was configured stays, in its order.** -/
theorem extends_run (ops ops' : List ConfOp) {c : ℕ} {d : Bytes} {cmds : Commands}
    (hget : (run ops).proc.commands? c d = some cmds) :
    ∃ cmds', (run (ops ++ ops')).proc.commands? c d = some cmds' ∧ cmds.Extends cmds' := by
  induction ops' using List.reverseRecOn with
  | nil => exact ⟨cmds, by rwa [List.append_nil], Commands.Extends.refl cmds⟩
  | append_singleton ops' op ih =>
    obtain ⟨cmds', hget', hext⟩ := ih
    obtain ⟨cmds'', hget'', hext'⟩ := extends_step (run (ops ++ ops')) op hget'
    refine ⟨cmds'', ?_, hext.trans hext'⟩
    rw [← List.append_assoc, run, List.foldl_append]
    exact hget''

end ConfState

/-! ### What the requests rely on -/

/-- **A filter that wants the answer makes the body filter collect it.** -/
theorem highest_of_matched {ops : List ConfOp} {r : RequestInfo} {f : TFilter}
    (hf : f ∈ ((ConfState.run ops).proc.processRequest r).1)
    (htype : f.mDuplicationType = .requestWithAnswer) :
    ((ConfState.run ops).confs r.mConf).mHighestDuplicationType = .requestWithAnswer := by
  rw [RequestProcessor.processRequest_fst, List.mem_filterMap] at hf
  obtain ⟨d, -, hd⟩ := hf
  have hle := (RequestProcessor.matched?_run hd).2
  rw [htype] at hle
  cases hhigh : ((ConfState.run ops).confs r.mConf).mHighestDuplicationType with
  | requestWithAnswer => rfl
  | none => rw [hhigh] at hle; exact absurd hle (by decide)
  | headerOnly => rw [hhigh] at hle; exact absurd hle (by decide)
  | completeRequest => rw [hhigh] at hle; exact absurd hle (by decide)

/-- Only a location that duplicates requests starts a duplication. -/
theorem duplicates_of_initiated {srv : DupServer} {addr : ℕ} (haddr : srv.conf = some addr)
    {req : RequestRec} {es : List Event} {ri : RequestInfo}
    (hri : ri ∈ (srv.run req es).initiated) : srv.duplicates addr = true := by
  by_contra hno
  have hnot : ∀ addr', srv.conf = some addr' → srv.duplicates addr' = false := by
    intro addr' haddr'
    obtain rfl : addr = addr' := Option.some.inj (haddr.symm.trans haddr')
    simpa using hno
  have hnil : (srv.run req es).initiated = [] :=
    List.foldlRecOn (motive := fun s => s.initiated = []) es srv.step rfl fun s hs e _ =>
      (idle_step hnot s e).2.trans hs
  rw [hnil] at hri
  cases hri

theorem answer_of_matched {srv : DupServer} {addr : ℕ} (haddr : srv.conf = some addr)
    (req : RequestRec) (es : List Event)
    {ri : RequestInfo} (hri : ri ∈ (srv.run req es).initiated) {req' : RequestRec}
    {r : RequestInfo} (hprepared : prepareRequestInfo addr req' ri = (true, r)) {f : TFilter}
    (hf : f ∈ (srv.gProcessor.processRequest (r.parsed srv.gProcessor.mUrlCodec)).1)
    (htype : f.mDuplicationType = .requestWithAnswer) :
    r.mAnswer = answerOf (responseBuckets es) := by
  have hconf : r.mConf = addr ∧ r.mAnswer = ri.mAnswer := by
    unfold prepareRequestInfo at hprepared
    dsimp only at hprepared
    split_ifs at hprepared
    · exact absurd (Prod.mk.inj hprepared).1 (by decide)
    · obtain rfl := (Prod.mk.inj hprepared).2
      exact ⟨rfl, rfl⟩
  have hhigh : (srv.tConf addr).mHighestDuplicationType = .requestWithAnswer := by
    have hmatched := highest_of_matched hf htype
    rw [← hconf.1]
    exact hmatched
  have hdup := duplicates_of_initiated haddr hri
  rw [hconf.2]
  obtain ⟨-, hinit, -⟩ | ⟨-, r', hinit, hanswer⟩ := (inv_run haddr hdup req es).started
  · rw [hinit] at hri
    cases hri
  · rw [hinit, List.mem_singleton] at hri
    rw [hri]
    exact hanswer hhigh

/-- **Every configuration is sound**, whatever operations made it.  A filter names the destination
it is stored for and asks for no more than the highest duplication type of its location; so
`runOne` finds the commands of every matched filter, and a request that is matched by a filter that
wants the answer is handed over with it.  An operation changes the commands of its target only,
and keeps those that were there in their order. -/
theorem configuration_sound (srv : DupServer) :
    (∀ c d cmds, srv.gProcessor.commands? c d = some cmds → ∀ f ∈ cmds.filters,
        f.mDestination = d ∧
          f.mDuplicationType.val ≤ (srv.tConf c).mHighestDuplicationType.val) ∧
      (∀ env r, (srv.gProcessor.runOne env r).isSome) ∧
      (∀ addr, srv.conf = some addr → ∀ req es, ∀ ri ∈ (srv.run req es).initiated, ∀ req' r,
          prepareRequestInfo addr req' ri = (true, r) →
        ∀ f ∈ (srv.gProcessor.processRequest (r.parsed srv.gProcessor.mUrlCodec)).1,
          f.mDuplicationType = .requestWithAnswer → r.mAnswer = answerOf (responseBuckets es)) ∧
      (∀ op c d, op.target (ConfState.run srv.ops) ≠ some (c, d) →
        (ConfState.run (srv.ops ++ [op])).proc.commands? c d = srv.gProcessor.commands? c d) ∧
      (∀ ops' c d cmds, srv.gProcessor.commands? c d = some cmds →
        ∃ cmds', (ConfState.run (srv.ops ++ ops')).proc.commands? c d = some cmds' ∧
          cmds.Extends cmds') := by
  refine ⟨?_, ?_, ?_, ?_, ?_⟩
  · exact (ConfState.inv_run srv.ops).filters
  · intro env r
    obtain ⟨w, hw, -⟩ := runOne_spec srv.ops env r
    rw [DupServer.gProcessor, hw]
    rfl
  · intro addr haddr req es ri hri req' r hprepared f hf htype
    exact answer_of_matched haddr req es hri hprepared hf htype
  · intro op c d htarget
    rw [ConfState.run, List.foldl_append]
    exact ConfState.frame_step _ op htarget
  · intro ops' c d cmds hget
    exact ConfState.extends_run srv.ops ops' hget

end ModDup
