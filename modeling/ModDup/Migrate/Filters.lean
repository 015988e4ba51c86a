import ModDup.Apache
import ModDup.Lib.Runs

/-!
# `mod_migrate`

A hook reads the whole body of a request before the location is known, looks for expressions in
it, in the headers and in the query string, and sets environment variables for `mod_rewrite`.  The
body is then gone from the connection, so an input filter hands it out again to whoever reads the
request later (`src/filters_migrate.cc`).  The filter keeps its position in its context pointer.

## Main definitions

* `enrichContext`, `MigrateState.translateHook` : the hook.
* `MigrateState.inputFilterBody2Brigade` : the filter.
* `Position` : where the filter is in the body.

## Main results

* `position_step` : what one call of the filter gives.
* `body_transparent` : what a sequence of calls gives.
-/

namespace ModDup

open Bytes

namespace Migrate

/-! ### The hook -/

/-- A compiled `boost::regex` of a `MigrateEnv`. -/
structure MatchRegex where
  /-- For each match in a text, in order, what a format gives for it. -/
  expansions : Bytes → Bytes → List Bytes

/-- `regex_replace` with `format_no_copy`: what is not matched is not copied. -/
def MatchRegex.replaceNoCopy (re : MatchRegex) (text format : Bytes) : Bytes :=
  (re.expansions text format).flatten

/-- `MigrateConf::MigrateEnv`. -/
structure MigrateEnv where
  mVarName : Bytes
  mMatchRegex : MatchRegex
  mSetValue : Bytes
  mApplicationScope : ApplicationScope

/-- `MigrateConf`. -/
structure MigrateConf where
  mDirName : Option Bytes := none
  mEnvLists : List MigrateEnv := []

/-- `MigrateModule::RequestInfo`, but for the pointer to the configuration, which nobody reads. -/
structure MigrateInfo where
  mId : Bytes
  mBody : Bytes := []
  mArgs : Bytes := []
  mHeader : Bytes := []

/-- `setEnvVar`, on the variables and the number of those that were set. -/
def setEnvVar (ctx : MigrateEnv) (toSet : Bytes) (env : AprTable × ℕ) : AprTable × ℕ :=
  if toSet ≠ [] then (aprTableSet env.1 (cstr ctx.mVarName) (cstr toSet), env.2 + 1) else env

/-- The texts of a request a directive looks at, in order. -/
def scopeTexts (info : MigrateInfo) (scope : ApplicationScope) : List Bytes :=
  (if scope.has .queryString then [info.mArgs] else []) ++
    (if scope.has .body && info.mBody ≠ [] then [info.mBody] else []) ++
    (if scope.has .headers && info.mHeader ≠ [] then [info.mHeader] else [])

/-- `enrichContext`: the variables of the request, and how many were set. -/
def enrichContext (conf : MigrateConf) (info : MigrateInfo) (subprocessEnv : AprTable) :
    AprTable × ℕ :=
  conf.mEnvLists.foldl (fun env ctx =>
    (scopeTexts info ctx.mApplicationScope).foldl (fun env text =>
      setEnvVar ctx (ctx.mMatchRegex.replaceNoCopy text ctx.mSetValue) env) env)
    (subprocessEnv, 0)

/-- A request in `mod_migrate`. -/
structure MigrateState where
  req : RequestRec
  /-- `subprocess_env`. -/
  subprocessEnv : AprTable := []
  /-- `remaining`. -/
  remaining : ℤ := 0
  /-- `read_length`. -/
  readLength : ℤ := 0
  info : Option MigrateInfo := none
  /-- The context pointer of the filter, as a number. -/
  ctx : ℤ := 0

/-- The header text `iterateOverHeadersCallBack` builds. -/
def headerText (t : AprTable) : Bytes := t.flatMap fun h => h.1 ++ str ": " ++ h.2 ++ [13, 10]

namespace MigrateState

/-- `translateHook`; all allocations succeed.  It declines every request. -/
def translateHook (nextReqId : ℕ) (conf : Option MigrateConf) (s : MigrateState) (up : Upstream) :
    MigrateState × Upstream :=
  match conf with
  | none => (s, up)
  | some conf =>
    if conf.mDirName.isNone then (s, up)
    else
      let (uid, req) := getOrSetUniqueID nextReqId s.req
      let (body, up) := extractBody up
      let info : MigrateInfo :=
        { mId := uid, mBody := body, mArgs := req.args.getD []
          mHeader := headerText req.headersIn }
      ({ s with
        req := req
        info := some info
        subprocessEnv := (enrichContext conf info s.subprocessEnv).1
        readLength := 0 }, up)

end MigrateState

/-! ### The filter -/

/-- The conversion to `int`. -/
def toInt (x : ℤ) : ℤ := x.bmod (2 ^ 32)

/-- What a call of the filter gives to its caller. -/
structure Delivery where
  /-- The bytes the filter writes. -/
  written : Bytes := []
  /-- What the filter before gives, if it is asked. -/
  next : Option (Option Brigade) := none

/-- All data in the brigade of the caller. -/
def Delivery.data (d : Delivery) : Bytes :=
  d.written ++ (d.next.join.getD []).flatMap Bucket.content

namespace MigrateState

/-- `ap_get_brigade` on the filter before, after bytes were written. -/
def getBrigade (s : MigrateState) (written : Bytes) (up : Upstream) :
    Delivery × MigrateState × Upstream :=
  (⟨written, some up.head?.join⟩, s, up.tail)

/-- `inputFilterBody2Brigade`; writing to the brigade succeeds. -/
def inputFilterBody2Brigade (perDirConfig : Bool) (s : MigrateState) (pReadbytes : ℤ)
    (up : Upstream) : Delivery × MigrateState × Upstream :=
  if !perDirConfig then s.getBrigade [] up
  else match s.info with
    -- after a rewrite to a location that is not treated
    | none => s.getBrigade [] up
    | some info =>
      if s.ctx = -1 then s.getBrigade [] up
      else
        let remaining := if s.ctx = 0 then (info.mBody.length : ℤ) else s.remaining
        let read := s.ctx
        let bSize := toInt info.mBody.length
        let toRead := toInt (min (bSize - read) pReadbytes)
        let written := if toRead > 0 then (info.mBody.drop read.toNat).take toRead.toNat else []
        let read := if toRead > 0 then read + toRead else read
        let remaining := if toRead > 0 then remaining - toRead else remaining
        if read ≥ bSize then
          -- the same call goes on to the filter before
          { s with remaining := remaining, ctx := -1 }.getBrigade written up
        else (⟨written, none⟩, { s with remaining := remaining, ctx := read }, up)

end MigrateState

/-! ### One call -/

theorem toInt_of_lt {x : ℤ} (hlo : 0 ≤ x) (hhi : x < 2 ^ 31) : toInt x = x :=
  Int.bmod_eq_of_le (by norm_num; omega) (by norm_num; omega)

/-- Where the filter is in the body: before its first call, inside, or at the end. -/
inductive Position (body : Bytes) (k : ℕ) (s : MigrateState) : Prop where
  | new (hk : k = 0) (hctx : s.ctx = 0)
  | inside (hpos : 0 < k) (hk : k < body.length) (hctx : s.ctx = k)
      (hremaining : s.remaining = (body.length - k : ℕ))
  | done (hk : body.length ≤ k) (hctx : s.ctx = -1) (hremaining : s.remaining = 0)

theorem inputFilter_at {body : Bytes} (hbody : body.length < 2 ^ 31) {k n : ℕ}
    (hk : k ≤ body.length) {s : MigrateState} {info : MigrateInfo} (hinfo : s.info = some info)
    (hmBody : info.mBody = body) (hctx : s.ctx = k)
    (hremaining : (if s.ctx = 0 then (body.length : ℤ) else s.remaining) = body.length - k)
    (up : Upstream) :
    s.inputFilterBody2Brigade true n up =
      if body.length ≤ k + n then
        { s with remaining := 0, ctx := -1 }.getBrigade ((body.drop k).take n) up
      else (⟨(body.drop k).take n, none⟩,
        { s with remaining := (body.length - (k + n) : ℕ), ctx := (k + n : ℕ) }, up) := by
  have hsize : toInt body.length = body.length := toInt_of_lt (by omega) (by omega)
  have hread : toInt (min ((body.length : ℤ) - k) n) = (min (body.length - k) n : ℕ) := by
    rw [toInt_of_lt (by omega) (by omega)]
    omega
  have htake : (body.drop k).take (min (body.length - k) n) = (body.drop k).take n := by
    rw [← List.length_drop, List.take_eq_take_iff]
    omega
  have hwritten : (if ((min (body.length - k) n : ℕ) : ℤ) > 0 then
      (body.drop (k : ℤ).toNat).take ((min (body.length - k) n : ℕ) : ℤ).toNat else []) =
      (body.drop k).take n := by
    rw [Int.toNat_natCast, Int.toNat_natCast, htake]
    split_ifs with hpos
    · rfl
    · rw [← htake]
      have hzero : min (body.length - k) n = 0 := by omega
      rw [hzero, List.take_zero]
  unfold MigrateState.inputFilterBody2Brigade
  simp only [hinfo, Bool.not_true, Bool.false_eq_true, if_false, hmBody, hremaining]
  rw [if_neg (by omega), hsize, hctx, hread, hwritten]
  by_cases hend : body.length ≤ k + n
  · have hrest : (if ((min (body.length - k) n : ℕ) : ℤ) > 0 then
        (body.length : ℤ) - k - (min (body.length - k) n : ℕ) else body.length - k) = 0 := by
      split_ifs <;> omega
    rw [if_pos hend, if_pos (by split_ifs <;> omega), hrest]
  · have hrest : (if ((min (body.length - k) n : ℕ) : ℤ) > 0 then
        (body.length : ℤ) - k - (min (body.length - k) n : ℕ) else body.length - k) =
        (body.length - (k + n) : ℕ) := by
      split_ifs <;> omega
    have hnew : (if ((min (body.length - k) n : ℕ) : ℤ) > 0 then
        (k : ℤ) + (min (body.length - k) n : ℕ) else k) = (k + n : ℕ) := by
      split_ifs <;> omega
    rw [if_neg hend, hrest, hnew, if_neg (by omega)]

/-- What a call gives that asks for `n` bytes at position `k`: the next bytes, and what the filter
before gives, once they are all there. -/
structure Serves (info : MigrateInfo) (k n : ℕ) (up : Upstream)
    (res : Delivery × MigrateState × Upstream) : Prop where
  written : res.1.written = (info.mBody.drop k).take n
  next : (res.1.next, res.2.2) =
    if info.mBody.length ≤ k + n then (some up.head?.join, up.tail) else (none, up)
  kept : res.2.1.info = some info
  remaining : res.2.1.remaining = (info.mBody.length - (k + n) : ℕ)
  position : Position info.mBody (k + n) res.2.1

/-- **What one call gives.** -/
theorem position_step {s : MigrateState} {info : MigrateInfo} (hinfo : s.info = some info)
    (hbody : info.mBody.length < 2 ^ 31) {k n : ℕ} (hn : 0 < n)
    (h : Position info.mBody k s) (up : Upstream) :
    Serves info k n up (s.inputFilterBody2Brigade true n up) := by
  have hserve : k ≤ info.mBody.length → s.ctx = k →
      (if s.ctx = 0 then (info.mBody.length : ℤ) else s.remaining) = info.mBody.length - k →
      Serves info k n up (s.inputFilterBody2Brigade true n up) := by
    intro hk hctx hremaining
    rw [inputFilter_at hbody hk hinfo rfl hctx hremaining up]
    by_cases hend : info.mBody.length ≤ k + n
    · rw [if_pos hend]
      refine ⟨rfl, by rw [if_pos hend]; rfl, hinfo, ?_, .done hend rfl rfl⟩
      rw [Nat.sub_eq_zero_of_le hend]
      rfl
    · rw [if_neg hend]
      exact ⟨rfl, by rw [if_neg hend], hinfo, rfl, .inside (by omega) (by omega) rfl rfl⟩
  cases h with
  | new hk hctx =>
    subst hk
    exact hserve (Nat.zero_le _) (by simpa using hctx) (by simp [hctx])
  | inside hpos hk hctx hremaining =>
    refine hserve hk.le hctx ?_
    rw [if_neg (by omega), hremaining]
    omega
  | done hk hctx hremaining =>
    have hcall : s.inputFilterBody2Brigade true n up = s.getBrigade [] up := by
      simp [MigrateState.inputFilterBody2Brigade, hinfo, hctx]
    rw [hcall]
    refine ⟨?_, by rw [if_pos (by omega)]; rfl, hinfo, ?_, .done (by omega) hctx hremaining⟩
    · rw [List.drop_eq_nil_of_le hk, List.take_nil]
      rfl
    · rw [Nat.sub_eq_zero_of_le (by omega)]
      exact hremaining

/-! ### All calls -/

/-- The calls of those who read the request. -/
structure Reading where
  deliveries : List Delivery := []
  state : MigrateState
  up : Upstream

/-- A call that asks for `n` bytes. -/
def Reading.step (rd : Reading) (n : ℕ) : Reading :=
  let (d, s, up) := rd.state.inputFilterBody2Brigade true n rd.up
  ⟨rd.deliveries ++ [d], s, up⟩

/-- All data the callers have received. -/
def Reading.data (rd : Reading) : Bytes := rd.deliveries.flatMap Delivery.data

/-- A request after the hook. -/
def Reading.start (nextReqId : ℕ) (conf : MigrateConf) (s : MigrateState) (up : Upstream) :
    Reading :=
  ⟨[], (s.translateHook nextReqId (some conf) up).1, (s.translateHook nextReqId (some conf) up).2⟩

/-- What the filter before gives after the body holds no data. -/
def EosOnly (up : Upstream) : Prop := ∀ b ∈ up, b = some [.eos]

theorem EosOnly.tail {up : Upstream} (h : EosOnly up) : EosOnly up.tail :=
  fun b hb => h b (List.mem_of_mem_tail hb)

theorem EosOnly.data_eq {up : Upstream} (h : EosOnly up) (written : Bytes) :
    Delivery.data ⟨written, some up.head?.join⟩ = written := by
  cases up with
  | nil => simp [Delivery.data]
  | cons b up =>
    have hb : b = some [.eos] := h b List.mem_cons_self
    simp [Delivery.data, hb, Bucket.content]

theorem Serves.data {info : MigrateInfo} {k n : ℕ} {up : Upstream}
    {res : Delivery × MigrateState × Upstream} (h : Serves info k n up res) (heos : EosOnly up) :
    res.1.data = (info.mBody.drop k).take n ∧ EosOnly res.2.2 := by
  have hnext := h.next
  rw [← h.written]
  split_ifs at hnext
  · obtain ⟨hasked, hup⟩ := Prod.mk.inj hnext
    have hdata := heos.data_eq res.1.written
    rw [← hasked] at hdata
    rw [hup]
    exact ⟨hdata, heos.tail⟩
  · obtain ⟨hasked, hup⟩ := Prod.mk.inj hnext
    rw [hup, Delivery.data, hasked]
    exact ⟨List.append_nil _, heos⟩

/-- The invariant of the calls. -/
structure ReadTo (info : MigrateInfo) (sizes : List ℕ) (rd : Reading) : Prop where
  kept : rd.state.info = some info
  position : Position info.mBody sizes.sum rd.state
  remaining : sizes ≠ [] → rd.state.remaining = (info.mBody.length - sizes.sum : ℕ)
  data : rd.data = info.mBody.take sizes.sum
  eos : EosOnly rd.up

theorem ReadTo.step {info : MigrateInfo} (hbody : info.mBody.length < 2 ^ 31) {sizes : List ℕ}
    {rd : Reading} (h : ReadTo info sizes rd) {n : ℕ} (hn : 0 < n) :
    ReadTo info (sizes ++ [n]) (rd.step n) := by
  have hserves := position_step h.kept hbody hn h.position rd.up
  have hsum : (sizes ++ [n]).sum = sizes.sum + n := by simp
  have hdelivery := hserves.data h.eos
  refine ⟨hserves.kept, by rw [hsum]; exact hserves.position,
    fun _ => by rw [hsum]; exact hserves.remaining, ?_, hdelivery.2⟩
  have hdata := h.data
  unfold Reading.data at hdata ⊢
  change (rd.deliveries ++ [(rd.state.inputFilterBody2Brigade true n rd.up).1]).flatMap _ = _
  rw [List.flatMap_append, hdata, hsum, List.take_add, List.flatMap_singleton, hdelivery.1]

/-- **The invariant holds after every sequence of calls.** -/
theorem readTo_run {info : MigrateInfo} (hbody : info.mBody.length < 2 ^ 31) {rd : Reading}
    (h : ReadTo info [] rd) {sizes : List ℕ} (hpos : ∀ n ∈ sizes, 0 < n) :
    ReadTo info sizes (Runs.run Reading.step rd sizes) := by
  induction sizes using List.reverseRecOn with
  | nil => exact h
  | append_singleton sizes n ih =>
    rw [Runs.run_snoc]
    exact (ih fun m hm => hpos m (List.mem_append_left _ hm)).step hbody (hpos n (by simp))

/-- The hook reads the whole body, however it is cut. -/
theorem translateHook_spec (nextReqId : ℕ) {conf : MigrateConf} (hactive : conf.mDirName ≠ none)
    (s : MigrateState) {body : Bytes} {payload : List Brigade} (hcut : CutOf body payload)
    (hread : .unreadable ∉ payload.flatten) (more : Upstream) :
    ∃ s' info, s.translateHook nextReqId (some conf) (payload.map some ++ more) = (s', more) ∧
      s'.info = some info ∧ info.mBody = body ∧ s'.ctx = s.ctx := by
  have hname : conf.mDirName.isNone = false := by
    simpa [Option.isSome_iff_ne_none] using hactive
  simp only [MigrateState.translateHook, hname, extractBody_cut_append hcut hread more,
    Bool.false_eq_true, if_false]
  exact ⟨_, _, rfl, rfl, rfl, rfl⟩

theorem readTo_start (nextReqId : ℕ) {conf : MigrateConf} (hactive : conf.mDirName ≠ none)
    (req : RequestRec) {body : Bytes} {payload : List Brigade} (hcut : CutOf body payload)
    (hread : .unreadable ∉ payload.flatten) {more : Upstream} (hmore : EosOnly more) :
    ∃ info : MigrateInfo, info.mBody = body ∧
      ReadTo info [] (.start nextReqId conf { req := req } (payload.map some ++ more)) := by
  obtain ⟨s', info, hhook, hinfo, hmBody, hctx⟩ :=
    translateHook_spec nextReqId hactive { req := req } hcut hread more
  rw [Reading.start, hhook]
  exact ⟨info, hmBody, hinfo, .new rfl hctx, fun h => absurd rfl h, rfl, hmore⟩

/-- **`mod_migrate` is transparent to the request body.**  However the body is cut and whatever
numbers of bytes the calls ask for, together they receive the body in order, every byte once;
the filter before is asked by the call that gives the last byte and by every later one, and by none
before; and `remaining` is the number of bytes still to be given. -/
theorem body_transparent (nextReqId : ℕ) {conf : MigrateConf} (hactive : conf.mDirName ≠ none)
    (req : RequestRec) {body : Bytes} (hbody : body.length < 2 ^ 31) {payload : List Brigade}
    (hcut : CutOf body payload) (hread : .unreadable ∉ payload.flatten) {more : Upstream}
    (hmore : EosOnly more) {sizes : List ℕ} (hpos : ∀ n ∈ sizes, 0 < n) {n : ℕ} (hn : 0 < n) :
    let rd := Runs.run Reading.step
      (.start nextReqId conf { req := req } (payload.map some ++ more)) sizes
    let rd' := rd.step n
    rd'.data = body.take (sizes.sum + n) ∧
      rd'.state.remaining = (body.length - (sizes.sum + n) : ℕ) ∧
      ∃ d, rd'.deliveries = rd.deliveries ++ [d] ∧ d.data = (body.drop sizes.sum).take n ∧
        (d.next.isSome = true ↔ body.length ≤ sizes.sum + n) := by
  intro rd rd'
  obtain ⟨info, rfl, hstart⟩ := readTo_start nextReqId hactive req hcut hread hmore
  have hrd : ReadTo info sizes rd := readTo_run hbody hstart hpos
  have hrd' : ReadTo info (sizes ++ [n]) rd' := hrd.step hbody hn
  have hsum : (sizes ++ [n]).sum = sizes.sum + n := by simp
  have hserves := position_step hrd.kept hbody hn hrd.position rd.up
  refine ⟨by rw [hrd'.data, hsum], by rw [hrd'.remaining (by simp), hsum],
    (rd.state.inputFilterBody2Brigade true n rd.up).1, rfl, ?_, ?_⟩
  · exact (hserves.data hrd.eos).1
  · have hnext := hserves.next
    split_ifs at hnext with hend
    · rw [(Prod.mk.inj hnext).1]
      simp [hend]
    · rw [(Prod.mk.inj hnext).1]
      simp [hend]

theorem body_transparent_abc :
    let payload := [[.data (str "ab"), .metadata], [.data (str "c"), .eos]]
    let rd := Runs.run Reading.step
      (.start 7 { mDirName := some (str "/") } { req := {} } (payload.map some ++ [some [.eos]]))
      [2]
    (rd.step 5).data = str "abc" ∧ (rd.step 5).state.remaining = 0 := by
  intro payload rd
  have hcut : CutOf (str "abc") payload :=
    ⟨[[.data (str "ab"), .metadata]], [.data (str "c")], rfl, by decide, by decide⟩
  have heos : EosOnly [some [.eos]] := by simp [EosOnly]
  have h := @body_transparent 7 { mDirName := some (str "/") } (by decide) {} (str "abc")
    (by decide) payload hcut (by decide) [some [.eos]] heos [2] (by decide) 5 (by decide)
  exact ⟨h.1.trans (by decide), h.2.1.trans (by decide)⟩

end Migrate

end ModDup
