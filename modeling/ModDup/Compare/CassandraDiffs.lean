import ModDup.Compare.Exits
import ModDup.Lib.FirstFree

/-!
# The Cassandra differences of a record

The application leaves the differences it found in its database in the `Differences` table, by
request id.  `writeCassandraDiff` hands those of one request to the printer and takes them out of
the table (`src/response_diff.cc`).  The JSON printer records each under its field name, or under
that name and a number if it is in use (`jsonDiffPrinter::addCassandraDiff`).

## Main definitions

* `World.entriesOf` : the entries of a request.
* `DiffPrinter.cassandraLoop` : the search for a name, test by test.
* `DiffPrinter.cassandra` : the database differences of a JSON record.

## Main results

* `DiffPrinter.cassandraLoop_eq` : the search ends.
* `DiffPrinter.members_addFieldInfos` : every call adds a member of its own.
* `cassandra_differences_kept` : no difference is lost, recorded twice or left behind.
-/

namespace ModDup

open Bytes

/-- The entries of a request, in the order of the table. -/
def World.entriesOf (w : World) (id : Bytes) : List FieldInfo :=
  (w.differences.filter fun e => e.1 = id).map Prod.snd

namespace DiffPrinter

/-! ### The name of a difference -/

/-- The loop of `addCassandraDiff`; `none` when it has not ended after `fuel` tests. -/
def cassandraLoop (cassandra : Json) (fieldName : Bytes) : (fuel i : ℕ) → (lField : Bytes) →
    Option Bytes
  | 0, _, _ => none
  | fuel + 1, i, lField =>
    if cassandra.isMember lField then
      cassandraLoop cassandra fieldName fuel (i + 1) (fieldName ++ decimal i)
    else some lField

/-- The names that are tried. -/
def cassandraCandidate (fieldName : Bytes) : ℕ → Bytes
  | 0 => fieldName
  | i + 1 => fieldName ++ decimal (i + 1)

theorem cassandraCandidate_injective (fieldName : Bytes) :
    Function.Injective (cassandraCandidate fieldName) := by
  intro i j h
  cases i with
  | zero =>
    cases j with
    | zero => rfl
    | succ j => exact absurd (List.self_eq_append_right.1 h) (decimal_ne_nil _)
  | succ i =>
    cases j with
    | zero => exact absurd (List.append_right_eq_self.1 h) (decimal_ne_nil _)
    | succ j => exact decimal_injective (List.append_cancel_left h)

theorem cassandraLoop_eq_firstFree (cassandra : Json) (fieldName : Bytes) (fuel i : ℕ) :
    cassandraLoop cassandra fieldName fuel (i + 1) (cassandraCandidate fieldName i) =
      firstFree cassandra.isMember (cassandraCandidate fieldName) fuel i := by
  induction fuel generalizing i with
  | zero => rfl
  | succ fuel ih => rw [cassandraLoop, firstFree, ← ih]; rfl

theorem firstFree_cassandraCandidate (cassandra : Json) (fieldName : Bytes) :
    firstFree cassandra.isMember (cassandraCandidate fieldName) (cassandra.members.length + 1) 0 =
      some (cassandraField cassandra fieldName) := by
  have hsome : (firstFree cassandra.isMember (cassandraCandidate fieldName)
      (cassandra.members.length + 1) 0).isSome := by
    refine firstFree_isSome (l := cassandra.members.map Prod.fst)
      (cassandraCandidate_injective fieldName) (fun name hname => ?_) (by simp) 0
    obtain ⟨e, he, hkey⟩ := List.lookup_isSome_iff.1 hname
    exact List.mem_map.2 ⟨e, he, (eq_of_beq hkey).symm⟩
  have hfield : cassandraField cassandra fieldName =
      (firstFree cassandra.isMember (cassandraCandidate fieldName)
        (cassandra.members.length + 1) 0).getD fieldName := by
    rw [firstFree_eq_find?, List.range'_succ, List.range'_eq_map_range, List.map_cons, List.map_map]
    simp only [cassandraField, Function.comp_def, Nat.zero_add, Nat.add_comm 1, cassandraCandidate]
  obtain ⟨name, hname⟩ := Option.isSome_iff_exists.1 hsome
  rw [hfield, hname, Option.getD_some]

/-- **The search ends**, with the name that is used, after at most one test more than there are
members. -/
theorem cassandraLoop_eq (cassandra : Json) (fieldName : Bytes) {fuel : ℕ}
    (hfuel : cassandra.members.length < fuel) :
    cassandraLoop cassandra fieldName fuel 1 fieldName =
      some (cassandraField cassandra fieldName) :=
  (cassandraLoop_eq_firstFree cassandra fieldName fuel 0).trans
    (firstFree_mono (firstFree_cassandraCandidate cassandra fieldName) hfuel)

theorem cassandraField_not_isMember (cassandra : Json) (fieldName : Bytes) :
    cassandra.isMember (cassandraField cassandra fieldName) = false :=
  not_taken_of_firstFree (firstFree_cassandraCandidate cassandra fieldName)

/-! ### The members of a record -/

/-- `mJsonRes["diff"]["cassandra"]`. -/
def cassandra (p : DiffPrinter) : Json := p.mJsonRes.atPath [str "diff", str "cassandra"]

/-- The call of `addCassandraDiff` for an entry of the table. -/
def addFieldInfo (p : DiffPrinter) (f : FieldInfo) : DiffPrinter :=
  p.addCassandraDiff f.mName f.mMultivalueKey f.mDBValue f.mReqValue

/-- What the JSON record has of an entry. -/
def fieldRecord (f : FieldInfo) : Json :=
  .object [(str "mulVal", .string f.mMultivalueKey), (str "dbVal", .string f.mDBValue),
    (str "reqVal", .string f.mReqValue)]

/-- One call adds one member, under a name that was free. -/
theorem cassandra_addFieldInfo {p : DiffPrinter} (hk : p.kind ≠ .multiline) (f : FieldInfo) :
    (p.addFieldInfo f).cassandra =
      p.cassandra.setMember (cassandraField p.cassandra f.mName) (fieldRecord f) := by
  set name := cassandraField p.cassandra f.mName with hname
  set dir := [str "diff", str "cassandra"] with hdir
  have hnull : p.mJsonRes.atPath (dir ++ [name]) = .null := by
    rw [Json.atPath, List.foldl_append]
    exact Json.member_of_not_isMember (cassandraField_not_isMember _ _)
  have hjson : (p.addFieldInfo f).mJsonRes =
      Json.assign (fieldRecord f) (dir ++ [name]) p.mJsonRes := by
    have hcall : (p.addFieldInfo f).mJsonRes =
        Json.assign (.string f.mReqValue) (dir ++ [name] ++ [str "reqVal"])
          (Json.assign (.string f.mDBValue) (dir ++ [name] ++ [str "dbVal"])
            (Json.assign (.string f.mMultivalueKey) (dir ++ [name] ++ [str "mulVal"])
              p.mJsonRes)) := by
      unfold addFieldInfo addCassandraDiff
      cases hkind : p.kind with
      | multiline => exact absurd hkind hk
      | json => rfl
      | utf8json => rfl
    rw [hcall]
    generalize dir ++ [name] = path at hnull
    simp only [Json.assign_append _ path, Json.atPath_assign, Json.assign_assign, hnull]
    rfl
  rw [cassandra, hjson, Json.assign_append, Json.atPath_assign]
  rfl

theorem kind_addFieldInfo (p : DiffPrinter) (f : FieldInfo) : (p.addFieldInfo f).kind = p.kind :=
  kind_addCassandraDiff p _ _ _ _

/-- **Every call adds a member of its own**, and changes none that is there. -/
theorem members_addFieldInfos {p : DiffPrinter} (hk : p.kind ≠ .multiline) (fs : List FieldInfo) :
    ∃ names : List Bytes, names.length = fs.length ∧ names.Nodup ∧
      (∀ name ∈ names, p.cassandra.isMember name = false) ∧
      (fs.foldl addFieldInfo p).cassandra.members =
        p.cassandra.members ++ names.zip (fs.map fieldRecord) := by
  induction fs generalizing p with
  | nil => exact ⟨[], rfl, List.nodup_nil, by simp, by simp⟩
  | cons f fs ih =>
    set name := cassandraField p.cassandra f.mName
    have hfree : p.cassandra.isMember name = false := cassandraField_not_isMember _ _
    have hstep := cassandra_addFieldInfo hk f
    obtain ⟨names, hlen, hnodup, hnew, hmembers⟩ :=
      ih ((kind_addFieldInfo p f).trans_ne hk)
    have hbefore (n : Bytes) (hn : n ∈ names) : n ≠ name ∧ p.cassandra.isMember n = false := by
      have := hnew n hn
      rw [hstep, Json.isMember, Json.lookup_setMember] at this
      split_ifs at this with hname
      · cases this
      · exact ⟨hname, this⟩
    refine ⟨name :: names, by rw [List.length_cons, List.length_cons, hlen], ?_, ?_, ?_⟩
    · exact List.nodup_cons.2 ⟨fun hmem => (hbefore name hmem).1 rfl, hnodup⟩
    · exact List.forall_mem_cons.2 ⟨hfree, fun n hn => (hbefore n hn).2⟩
    · rw [List.foldl_cons, hmembers, hstep, Json.setMember_of_not_isMember hfree, Json.members,
        List.map_cons, List.zip_cons_cons, List.append_assoc, List.singleton_append]

end DiffPrinter

open DiffPrinter

theorem writeCassandraDiff_table (w : World) (id : Bytes) (p : DiffPrinter) :
    (writeCassandraDiff w id p).2.2 = { w with differences := w.without id } := by
  obtain ⟨diffs, hw⟩ := writeCassandraDiff_world w id p
  have hdiffs := differences_writeCassandraDiff w id p
  rw [hw] at hdiffs ⊢
  rw [← hdiffs]

/-- **No database difference is lost or left for another request.**  The entries of the request
are handed to the printer one after the other and leave the table, which keeps those of the other
requests; and in JSON each call ends and adds a member of its own, with the three values of the
call, to those that are there. -/
theorem cassandra_differences_kept (w : World) (u : Bytes) (printer : DiffPrinter) :
    (writeCassandraDiff w u printer).2.1 = (w.entriesOf u).foldl addFieldInfo printer ∧
      (writeCassandraDiff w u printer).2.2 =
        { w with differences := w.differences.filter fun e => e.1 ≠ u } ∧
      (∀ (cassandra : Json) (fieldName : Bytes), ∃ n, ∀ fuel > n,
        cassandraLoop cassandra fieldName fuel 1 fieldName =
          some (cassandraField cassandra fieldName)) ∧
      ∀ p : DiffPrinter, p.kind ≠ .multiline → ∀ calls : List FieldInfo,
        ∃ names : List Bytes, names.length = calls.length ∧ names.Nodup ∧
          (∀ name ∈ names, p.cassandra.isMember name = false) ∧
          (calls.foldl addFieldInfo p).cassandra.members =
            p.cassandra.members ++ names.zip (calls.map fieldRecord) := by
  refine ⟨?_, writeCassandraDiff_table w u printer,
    fun cassandra fieldName => ⟨_, fun _ hfuel => cassandraLoop_eq cassandra fieldName hfuel⟩,
    fun p hk calls => members_addFieldInfos hk calls⟩
  unfold writeCassandraDiff World.entriesOf
  dsimp only
  split_ifs with h
  · simp only [h, List.map_nil, List.foldl_nil]
  · rw [List.foldl_map]
    rfl

end ModDup
