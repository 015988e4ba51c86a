import ModDup.Compare.Format
import ModDup.Compare.Input
import ModDup.Lib.Runs

/-!
# The request body is replayed

The application behind `mod_compare` reads the body of the request in calls of sizes of its own.
The first call reads the whole payload and takes it apart, whatever it was cut into; it and the
next ones then give the original body piece by piece, and what follows goes to the filter before
(`inputFilterHandler` in `src/filters_compare.cc`).

## Main definitions

* `Replay`, `Replay.step` : the calls of the application, with their results.
* `Ready` : the next call gives the body from some position on.

## Main results

* `sendBody_opened` : what one call gives.
* `ready_start`, `step_ready` : the position before the first call, and after one.
* `replay_exact` : what a sequence of calls gives.
-/

namespace ModDup

open Bytes RequestInfo

/-! ### The calls -/

/-- What a call has written to the brigade of its caller. -/
def InputResult.written : InputResult → Bytes
  | .sent content => content
  | _ => []

/-- The calls so far. -/
structure Replay where
  results : List InputResult := []
  state : CompareState
  /-- What the filter before has left to give. -/
  up : Upstream

namespace Replay

/-- A duplicated request before the first call; the hook has run unless the path is an alias. -/
def start (nextReqId : ℕ) (conf : CompareConf) (translated : Bool) (q : RequestRec)
    (up : Upstream) : Replay where
  state := if translated then translateHook nextReqId (some conf) { req := q } else { req := q }
  up := up

/-- A call at time `call.1` that asks for `call.2` bytes. -/
def step (nextReqId : ℕ) (conf : CompareConf) (st : Replay) (call : ℤ × ℕ) : Replay :=
  let (res, s, up) :=
    compareInputFilterHandler nextReqId (some conf) call.1 call.2 st.state st.up
  ⟨st.results ++ [res], s, up⟩

/-- All bytes the callers have received. -/
def written (st : Replay) : Bytes := st.results.flatMap InputResult.written

end Replay

/-- The bytes a sequence of calls asks for. -/
def asked (calls : List (ℤ × ℕ)) : ℕ := (calls.map Prod.snd).sum

/-! ### One call -/

/-- The payload was read, and the body `b` was given up to position `k`. -/
structure Opened (b : Bytes) (k : ℕ) (s : CompareState) : Prop where
  dup : isDupResponse s.req = true
  read : s.inputRead = true
  length : aprTableGet s.req.headersIn (str "Content-Length") = some (decimal b.length)
  info : ∃ r, s.info = some r ∧ r.mReqBody = b ∧ r.offset = k

/-- The next call reads the payload if that was not done yet, and then gives the body `b` from
position `k` on. -/
def Ready (nextReqId : ℕ) (conf : CompareConf) (b : Bytes) (k : ℕ) (s : CompareState)
    (up : Upstream) : Prop :=
  ∀ now n, ∃ s' up', compareInputFilterHandler nextReqId (some conf) now n s up =
    sendBody n s' up' ∧ Opened b k s'

section Call

variable {nextReqId : ℕ} {conf : CompareConf} {b : Bytes} {k n : ℕ} {s : CompareState}
  {up : Upstream}

theorem Opened.ready (h : Opened b k s) : Ready nextReqId conf b k s up := by
  intro now n
  refine ⟨s, up, ?_, h⟩
  simp [compareInputFilterHandler, h.dup, h.read]

theorem sendBody_opened (h : Opened b k s) (hn : 0 < n) :
    (k < b.length → ∃ s', sendBody n s up = (.sent ((b.drop k).take n), s', up) ∧
        Opened b (min (k + n) b.length) s') ∧
      (b.length ≤ k → sendBody n s up = getBrigade s up) := by
  obtain ⟨r, hinfo, hbody, hoffset⟩ := h.info
  unfold sendBody
  simp only [hinfo, hbody, hoffset]
  constructor
  · intro hk
    rw [if_pos (by omega)]
    have hpiece : (b.drop k).take (min (b.length - k) n) = (b.drop k).take n := by
      rw [← List.length_drop, List.take_eq_take_iff]
      omega
    rw [hpiece]
    refine ⟨_, rfl, h.dup, h.read, h.length, _, rfl, rfl, ?_⟩
    change k + min (b.length - k) n = min (k + n) b.length
    omega
  · intro hk
    rw [if_neg (by omega)]

theorem readPayload_payload {r : RequestInfo} (hr : Fresh r) {h a content : Bytes}
    (hp : DupPayload b h a content) (now : ℤ) :
    (readPayload now content r).1 = .ok ∧ (readPayload now content r).2.mReqBody = b ∧
      (readPayload now content r).2.offset = 0 := by
  obtain ⟨H, hblock⟩ := hp.lines
  have hsections := deserializeBody_sections { r with mBody := r.mBody ++ content, offset := 0 }
    (by simp [hr.1, hp.text]) hp.reqBody hp.header hp.answer
  rw [hblock.deserializeHeader_eq] at hsections
  simp [readPayload, hsections]

/-- **The first call reads the payload**, however it is cut. -/
theorem ready_start {q : RequestRec} (hdup : isDupResponse q = true) (translated : Bool)
    {h a content : Bytes} (hp : DupPayload b h a content) {payload : List Brigade}
    (hcut : CutOf content payload) (hread : .unreadable ∉ payload.flatten) (more : Upstream) :
    Ready nextReqId conf b 0
      (Replay.start nextReqId conf translated q (payload.map some ++ more)).state
      (payload.map some ++ more) := by
  intro now n
  obtain ⟨r₁, hr₁, hnew, hcall⟩ := inputFilter_first nextReqId conf now n hdup
    (translated_eq nextReqId conf translated q) (payload.map some ++ more)
  have hsame := sameRequest_openPayload nextReqId now content q
  obtain ⟨hok, hbody, hoffset⟩ := readPayload_payload hnew hp now
  simp only [extractBody_cut_append hcut hread, hok, ne_eq, not_true_eq_false, ↓reduceIte] at hcall
  refine ⟨_, _, hcall, ?_⟩
  refine ⟨?_, rfl, ?_, (readPayload now content r₁).2, ?_, hbody, hoffset⟩
  · exact ((sameRequest_contentLength _ _).trans hsame).dup.trans hdup
  · rw [← hbody]
    exact aprTableGet_set_self _ _ _
  · simp only [openPayload, hr₁, Option.map_some]

end Call

/-! ### All calls -/

section Run

variable {nextReqId : ℕ} {conf : CompareConf} {b : Bytes} {k n : ℕ} {st : Replay}

/-- What a call adds to the results, and where the next one goes on. -/
theorem step_ready (h : Ready nextReqId conf b k st.state st.up) (now : ℤ) (hn : 0 < n) :
    Opened b (max k (min (k + n) b.length)) (st.step nextReqId conf (now, n)).state ∧
      (k < b.length →
        (st.step nextReqId conf (now, n)).results = st.results ++ [.sent ((b.drop k).take n)]) ∧
      (b.length ≤ k →
        ∃ brigade, (st.step nextReqId conf (now, n)).results = st.results ++ [.next brigade]) := by
  obtain ⟨s, up, hcall, hopened⟩ := h now n
  obtain ⟨hbefore, hafter⟩ := @sendBody_opened b k n s up hopened hn
  unfold Replay.step
  simp only [hcall]
  by_cases hk : k < b.length
  · obtain ⟨s', hsent, hopened'⟩ := hbefore hk
    rw [hsent, max_eq_right (by omega)]
    exact ⟨hopened', fun _ => rfl, fun hle => absurd hk (not_lt.2 hle)⟩
  · rw [hafter (not_lt.1 hk), max_eq_left (by omega)]
    exact ⟨hopened, fun hlt => absurd hlt hk, fun _ => ⟨_, rfl⟩⟩

/-- The invariant of the calls: the body was given up to where the calls have asked for it. -/
structure Replayed (nextReqId : ℕ) (conf : CompareConf) (b : Bytes) (calls : List (ℤ × ℕ))
    (st : Replay) : Prop where
  ready : Ready nextReqId conf b (min (asked calls) b.length) st.state st.up
  opened : calls ≠ [] → Opened b (min (asked calls) b.length) st.state
  written : st.written = b.take (asked calls)

theorem Replayed.step {calls : List (ℤ × ℕ)} (h : Replayed nextReqId conf b calls st) (now : ℤ)
    (hn : 0 < n) :
    Replayed nextReqId conf b (calls ++ [(now, n)]) (st.step nextReqId conf (now, n)) := by
  have hasked : asked (calls ++ [(now, n)]) = asked calls + n := by simp [asked]
  obtain ⟨hopened, hbefore, hafter⟩ := step_ready h.ready now hn
  have hposition : max (min (asked calls) b.length)
      (min (min (asked calls) b.length + n) b.length) = min (asked calls + n) b.length := by omega
  rw [hposition] at hopened
  refine ⟨by rw [hasked]; exact hopened.ready, fun _ => by rw [hasked]; exact hopened, ?_⟩
  have hwritten := h.written
  unfold Replay.written at hwritten ⊢
  rw [hasked]
  by_cases hk : asked calls < b.length
  · rw [hbefore (by omega), List.flatMap_append, hwritten, min_eq_left hk.le, List.take_add]
    simp [InputResult.written]
  · obtain ⟨brigade, hnext⟩ := hafter (by omega)
    rw [hnext, List.flatMap_append, hwritten, List.take_of_length_le (by omega),
      List.take_of_length_le (by omega)]
    simp [InputResult.written]

/-- **The invariant holds after every sequence of calls.** -/
theorem replayed_run {st : Replay} (hstart : Ready nextReqId conf b 0 st.state st.up)
    (hnone : st.results = []) {calls : List (ℤ × ℕ)} (hpos : ∀ c ∈ calls, 0 < c.2) :
    Replayed nextReqId conf b calls (Runs.run (Replay.step nextReqId conf) st calls) := by
  induction calls using List.reverseRecOn with
  | nil =>
    refine ⟨?_, fun h => absurd rfl h, by simp [Replay.written, hnone, asked]⟩
    simpa [asked] using hstart
  | append_singleton calls call ih =>
    rw [Runs.run_snoc]
    have hcalls := ih fun c hc => hpos c (List.mem_append_left _ hc)
    exact hcalls.step call.1 (hpos call (by simp))

end Run

/-- **The original request body is replayed exactly.**  The payload may be cut in any way, and the
calls may ask for any numbers of bytes; together they give the body in order, every byte once.  A
call before its end gives as much as it asks for and there is, and one after it is passed on.
`Content-Length` is the size of the body. -/
theorem replay_exact (nextReqId : ℕ) (conf : CompareConf) (translated : Bool) {q : RequestRec}
    (hdup : isDupResponse q = true) {b h a content : Bytes} (hp : DupPayload b h a content)
    {payload : List Brigade} (hcut : CutOf content payload)
    (hread : .unreadable ∉ payload.flatten) (more : Upstream) {calls : List (ℤ × ℕ)}
    (hpos : ∀ c ∈ calls, 0 < c.2) (now : ℤ) {n : ℕ} (hn : 0 < n) :
    let st := Runs.run (Replay.step nextReqId conf)
      (.start nextReqId conf translated q (payload.map some ++ more)) calls
    let st' := st.step nextReqId conf (now, n)
    st.written = b.take (asked calls) ∧ st'.state.info.map RequestInfo.mReqBody = some b ∧
      aprTableGet st'.state.req.headersIn (str "Content-Length") = some (decimal b.length) ∧
      (asked calls < b.length → ∃ c, st'.results = st.results ++ [.sent c] ∧
        c = (b.drop (asked calls)).take n ∧ c.length = min n (b.length - asked calls) ∧
        0 < c.length) ∧
      (b.length ≤ asked calls → ∃ brigade, st'.results = st.results ++ [.next brigade]) := by
  intro st st'
  have hst : Replayed nextReqId conf b calls st :=
    replayed_run (ready_start hdup translated hp hcut hread more) rfl hpos
  have hst' := (hst.step now hn).opened (by simp)
  obtain ⟨-, hbefore, hafter⟩ := step_ready hst.ready now hn
  refine ⟨hst.written, ?_, hst'.length, fun hlt => ?_, fun hle => ?_⟩
  · obtain ⟨r, hinfo, hbody, -⟩ := hst'.info
    rw [hinfo, Option.map_some, hbody]
  · rw [min_eq_left hlt.le] at hbefore
    have hlen : ((b.drop (asked calls)).take n).length = min n (b.length - asked calls) := by
      rw [List.length_take, List.length_drop]
    exact ⟨_, hbefore hlt, rfl, hlen, by rw [hlen]; omega⟩
  · exact hafter (by omega)

/-- A payload with the body `abc`. -/
def abcPayload : Bytes := serialize (str "abc") ++ serialize (str "A: b\n") ++ serialize (str "ok")

/-- A duplicated request. -/
def dupRequest : RequestRec where
  headersIn := [(str "Duplication-Type", str "Response")]

theorem replay_exact_abc :
    let payload := [[.data (abcPayload.take 10), .metadata], [.data (abcPayload.drop 10), .eos]]
    let st := Runs.run (Replay.step 0 {}) (.start 0 {} true dupRequest (payload.map some ++ []))
      [(0, 2)]
    st.written = str "ab" ∧ ∃ c, (st.step 0 {} (1, 5)).results = st.results ++ [.sent c] ∧
      c = str "c" := by
  intro payload st
  have hp : DupPayload (str "abc") (str "A: b\n") (str "ok") abcPayload :=
    ⟨by decide, by decide, by decide, ⟨[(str "A", str "b")], by decide, by decide⟩, rfl⟩
  have hcut : CutOf abcPayload payload :=
    ⟨[[.data (abcPayload.take 10), .metadata]], [.data (abcPayload.drop 10)], rfl, by decide,
      by decide⟩
  have h := @replay_exact 0 {} true dupRequest (by decide) _ _ _ _ hp payload hcut (by decide) []
    [(0, 2)] (by decide) 1 5 (by decide)
  obtain ⟨c, hc, hval, -⟩ := h.2.2.2.1 (by decide)
  exact ⟨h.1.trans (by decide), c, hc, hval.trans (by decide)⟩

end ModDup
