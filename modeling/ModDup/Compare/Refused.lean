import ModDup.Compare.Replay

/-!
# Refused payloads

`deserializeBody` assigns a section to its field as soon as it is read, and the header lines one
by one, so a payload that is refused later on may leave parts of itself behind.  The input filter
marks the payload as read before it looks at the status, and what was left is then handed out as
the request body (`src/deserialize.cc`, `src/filters_compare.cc`).

## Main definitions

* `readLines` : the header lines before the first that is malformed.
* `NothingNew` : the parts that were read are what the fields hold already.
* `Spent` : a request whose body has been handed out.

## Main results

* `deserializeBody_same_iff` : when a refused payload leaves nothing behind.
* `nothing_written_iff` : when no later call hands out a part of it.
* `refused_payload_iff` : both.
-/

namespace ModDup

open Bytes RequestInfo

/-! ### What a refused payload leaves -/

/-- The names and values of the lines before the first without separator. -/
def readLines : List Bytes → KeyValList
  | [] => []
  | lLine :: lines =>
    match find lDelim lLine with
    | none => []
    | some lPos => (lLine.take lPos, lLine.drop (lPos + 2)) :: readLines lines

theorem deserializeLines_snd (m : MapStr) (ls : List Bytes) :
    (deserializeLines m ls).2 = m.setAll (readLines ls) := by
  induction ls generalizing m with
  | nil => rfl
  | cons l ls ih =>
    rw [deserializeLines, readLines]
    cases find lDelim l with
    | none => rfl
    | some pos => exact ih _

/-- The well-formed lines at the head of the block, as a map, are in the map already. -/
def LinesKnown (m : MapStr) (header : Bytes) : Prop :=
  ∀ e ∈ (OrdMap.empty.setAll (readLines (getlines header))).entries, e ∈ m.entries

theorem deserializeHeader_same_iff {m : MapStr} {header : Bytes} :
    (deserializeHeader m header).2 = m ↔ LinesKnown m header := by
  rw [deserializeHeader, deserializeLines_snd]
  exact OrdMap.setAll_eq_self_iff

/-- The request body, the answer and its headers are the same. -/
def SamePayload (r r' : RequestInfo) : Prop :=
  r'.mReqBody = r.mReqBody ∧ r'.mResponseBody = r.mResponseBody ∧
    r'.mResponseHeader = r.mResponseHeader

/-- As far as the sections of `mBody` can be read, they are what the fields hold. -/
def NothingNew (r : RequestInfo) : Prop :=
  r.mBody.length < 3 * sectionSizeChars ∨
    ∀ b pos₁, readSection r.mBody 0 = some (b, pos₁) → b = r.mReqBody ∧
      ∀ h pos₂, readSection r.mBody pos₁ = some (h, pos₂) →
        ∀ a pos₃, readSection r.mBody pos₂ = some (a, pos₃) →
          a = r.mResponseBody ∧ LinesKnown r.mResponseHeader h

/-- Whatever the status is, the fields are the old ones iff nothing new was read. -/
theorem deserializeBody_same_iff (r : RequestInfo) :
    SamePayload r (deserializeBody r).2 ↔ NothingNew r := by
  unfold NothingNew deserializeBody SamePayload
  by_cases hlen : r.mBody.length < 3 * sectionSizeChars
  · simp [hlen]
  cases h₁ : readSection r.mBody 0 with
  | none => simp [hlen]
  | some b =>
    obtain ⟨b, pos₁⟩ := b
    cases h₂ : readSection r.mBody pos₁ with
    | none => simp [hlen, h₂]
    | some h =>
      obtain ⟨h, pos₂⟩ := h
      cases h₃ : readSection r.mBody pos₂ with
      | none => simp [hlen, h₂, h₃]
      | some a =>
        obtain ⟨a, pos₃⟩ := a
        simp [hlen, h₂, h₃, ← deserializeHeader_same_iff]

theorem mReqBody_deserializeBody (r : RequestInfo) :
    (deserializeBody r).2.mReqBody =
      if r.mBody.length < 3 * sectionSizeChars then r.mReqBody
      else ((readSection r.mBody 0).map Prod.fst).getD r.mReqBody := by
  unfold deserializeBody
  by_cases hlen : r.mBody.length < 3 * sectionSizeChars
  · simp [hlen]
  simp only [if_neg hlen]
  cases readSection r.mBody 0 with
  | none => rfl
  | some b =>
    dsimp only
    cases readSection r.mBody b.2 with
    | none => rfl
    | some h =>
      dsimp only
      cases readSection r.mBody h.2 <;> rfl

/-- Reading a payload sets the offset back. -/
theorem offset_readPayload (now : ℤ) (content : Bytes) (r : RequestInfo) :
    (readPayload now content r).2.offset = 0 := by
  unfold readPayload deserializeBody
  dsimp only
  repeat' split
  all_goals rfl

/-! ### What the later calls hand out -/

/-- The payload was read and all of the request body was given. -/
structure Spent (s : CompareState) : Prop where
  dup : isDupResponse s.req = true
  read : s.inputRead = true
  info : ∃ r, s.info = some r ∧ r.mReqBody.length ≤ r.offset

section Later

variable {nextReqId : ℕ} {conf : CompareConf} {st : Replay} {q : RequestRec} {up : Upstream}

theorem written_step (st : Replay) (call : ℤ × ℕ) :
    (Replay.step nextReqId conf st call).written = st.written ++
      (compareInputFilterHandler nextReqId (some conf) call.1 call.2 st.state st.up).1.written := by
  simp [Replay.step, Replay.written]

theorem spent_step (hs : Spent st.state) (call : ℤ × ℕ) :
    (Replay.step nextReqId conf st call).written = st.written ∧
      Spent (Replay.step nextReqId conf st call).state := by
  obtain ⟨r, hinfo, hle⟩ := hs.info
  have hcall : compareInputFilterHandler nextReqId (some conf) call.1 call.2 st.state st.up =
      getBrigade st.state st.up := by
    have hzero : ¬ min (r.mReqBody.length - r.offset) call.2 > 0 := by omega
    simp [compareInputFilterHandler, hs.dup, hs.read, sendBody, hinfo, hzero]
  refine ⟨?_, ?_⟩
  · rw [written_step, hcall]
    simp [getBrigade, InputResult.written]
  · have hstate : (Replay.step nextReqId conf st call).state = st.state := by
      simp [Replay.step, hcall, getBrigade]
    rw [hstate]
    exact hs

theorem spent_run (hs : Spent st.state) (calls : List (ℤ × ℕ)) :
    (Runs.run (Replay.step nextReqId conf) st calls).written = st.written :=
  (Runs.run_invariant (P := fun st' : Replay => st'.written = st.written ∧ Spent st'.state)
    (G := fun _ => True) (fun _ call h _ =>
      ⟨(spent_step h.2 call).1.trans h.1, (spent_step h.2 call).2⟩)
    ⟨rfl, hs⟩ fun _ _ => trivial).1

theorem written_step_one {r : RequestInfo} (hdup : isDupResponse st.state.req = true)
    (hread : st.state.inputRead = true) (hinfo : st.state.info = some r)
    (hlt : r.offset < r.mReqBody.length) :
    (Replay.step nextReqId conf st (0, 1)).written ≠ st.written := by
  have hone : min (r.mReqBody.length - r.offset) 1 = 1 := by omega
  have hbyte : (r.mReqBody.drop r.offset).take 1 ≠ [] := by
    rw [Ne, List.take_eq_nil_iff, List.drop_eq_nil_iff]
    omega
  have hsent : (compareInputFilterHandler nextReqId (some conf) 0 1 st.state st.up).1 =
      .sent ((r.mReqBody.drop r.offset).take 1) := by
    simp [compareInputFilterHandler, hdup, hread, sendBody, hinfo, hone]
  rw [written_step, hsent]
  exact fun h => hbyte (List.append_right_eq_self.1 h)

/-- The payload is too short, or its first section is empty or not there. -/
def NoFirstSection (content : Bytes) : Prop :=
  content.length < 3 * sectionSizeChars ∨ ∀ b pos, readSection content 0 = some (b, pos) → b = []

theorem mReqBody_readPayload_eq_nil_iff (now : ℤ) (content : Bytes) {r : RequestInfo}
    (hbody : r.mBody = []) (hreq : r.mReqBody = []) :
    (readPayload now content r).2.mReqBody = [] ↔ NoFirstSection content := by
  have hread : (readPayload now content r).2.mReqBody =
      (deserializeBody { r with mBody := r.mBody ++ content, offset := 0 }).2.mReqBody := rfl
  rw [hread, mReqBody_deserializeBody, hbody, List.nil_append, hreq, NoFirstSection]
  by_cases hlen : content.length < 3 * sectionSizeChars
  · simp [hlen]
  · rw [if_neg hlen]
    cases h : readSection content 0 with
    | none => simp
    | some b =>
      obtain ⟨b, pos⟩ := b
      simp [hlen]

/-- Only a request with its answer is refused; others are passed on. -/
theorem isDupResponse_of_refused {translated : Bool} {call : ℤ × ℕ}
    (h : (compareInputFilterHandler nextReqId (some conf) call.1 call.2
      (Replay.start nextReqId conf translated q up).state up).1 = .status .httpBadRequest) :
    isDupResponse q = true := by
  by_contra hno
  have hno' : isDupResponse (Replay.start nextReqId conf translated q up).state.req = false := by
    rw [Bool.not_eq_true] at hno
    rcases translated_eq nextReqId conf translated q with heq | heq
    · rw [Replay.start, heq]
      exact hno
    · rw [Replay.start, heq]
      exact (sameRequest_initRequest nextReqId { req := q }).dup.trans hno
  simp [compareInputFilterHandler, hno', getBrigade] at h

theorem openPayload_of_refused {translated : Bool} {call : ℤ × ℕ}
    (h : (compareInputFilterHandler nextReqId (some conf) call.1 call.2
      (Replay.start nextReqId conf translated q up).state up).1 = .status .httpBadRequest) :
    compareInputFilterHandler nextReqId (some conf) call.1 call.2
        (Replay.start nextReqId conf translated q up).state up =
      (.status .httpBadRequest, openPayload nextReqId call.1 (extractBody up).1 q,
        (extractBody up).2) := by
  have hstart := translated_eq nextReqId conf translated q
  obtain ⟨r, -, -, hcall⟩ :=
    inputFilter_first nextReqId conf call.1 call.2 (isDupResponse_of_refused h) hstart up
  rw [Replay.start] at h ⊢
  rw [hcall] at h ⊢
  dsimp only at h ⊢
  split_ifs at h ⊢ with hok
  · rw [InputResult.status.inj h]
  · unfold sendBody at h
    split at h
    · cases h
    · dsimp only at h
      split_ifs at h
      cases h

theorem first_refused {translated : Bool} {call : ℤ × ℕ}
    (h : (Replay.step nextReqId conf (.start nextReqId conf translated q up) call).results =
      [.status .httpBadRequest]) :
    ∃ r, r.mBody = [] ∧ r.mReqBody = [] ∧
      let st := Replay.step nextReqId conf (.start nextReqId conf translated q up) call
      st.written = [] ∧ isDupResponse st.state.req = true ∧ st.state.inputRead = true ∧
        st.state.info = some (readPayload call.1 (extractBody up).1 r).2 := by
  have hres : (compareInputFilterHandler nextReqId (some conf) call.1 call.2
      (Replay.start nextReqId conf translated q up).state up).1 = .status .httpBadRequest := by
    simpa [Replay.step, Replay.start] using h
  have hdup := isDupResponse_of_refused hres
  obtain ⟨r, hr, hnew, -⟩ := inputFilter_first nextReqId conf call.1 call.2 hdup
    (translated_eq nextReqId conf translated q) up
  have hreq : r.mReqBody = [] := by
    have hinit : (initRequest nextReqId { req := q }).info.map RequestInfo.mReqBody = some [] := rfl
    rw [hr] at hinit
    exact Option.some.inj hinit
  have hstep : Replay.step nextReqId conf (.start nextReqId conf translated q up) call =
      ⟨[.status .httpBadRequest], openPayload nextReqId call.1 (extractBody up).1 q,
        (extractBody up).2⟩ := by
    rw [Replay.step, show (Replay.start nextReqId conf translated q up).up = up from rfl,
      openPayload_of_refused hres]
    rfl
  rw [hstep]
  refine ⟨r, hnew.1, hreq, rfl, ?_, rfl, ?_⟩
  · exact (sameRequest_openPayload nextReqId call.1 _ q).dup.trans hdup
  · simp only [openPayload, hr, Option.map_some]

/-- After a first call that refused the payload, no call ever writes a byte iff there was no first
section to be read. -/
theorem nothing_written_iff {translated : Bool} {call : ℤ × ℕ}
    (h : (Replay.step nextReqId conf (.start nextReqId conf translated q up) call).results =
      [.status .httpBadRequest]) :
    (∀ calls, (Runs.run (Replay.step nextReqId conf)
        (.start nextReqId conf translated q up) (call :: calls)).written = []) ↔
      NoFirstSection (extractBody up).1 := by
  obtain ⟨r, hbody, hreq, hwritten, hdup, hread, hinfo⟩ := first_refused h
  have hoffset := offset_readPayload call.1 (extractBody up).1 r
  rw [← mReqBody_readPayload_eq_nil_iff call.1 (extractBody up).1 hbody hreq]
  constructor
  · intro hall
    by_contra hne
    refine @written_step_one nextReqId conf _ _ hdup hread hinfo ?_ ?_
    · rw [hoffset]
      exact List.length_pos_iff.2 hne
    · rw [hwritten]
      exact hall [(0, 1)]
  · intro hnil calls
    rw [Runs.run_cons, spent_run ⟨hdup, hread, _, hinfo, by simp [hnil]⟩]
    exact hwritten

end Later

/-- When a payload that is refused leaves nothing behind: its fields are as before iff whatever was
read of it is in them already, and no call gives a part of it to the application iff no first
section was there to be read. -/
theorem refused_payload_iff (r : RequestInfo) (nextReqId : ℕ) (conf : CompareConf)
    (translated : Bool) (q : RequestRec) (up : List (Option Brigade)) (call : ℤ × ℕ) :
    ((deserializeBody r).1 = .httpBadRequest →
      (SamePayload r (deserializeBody r).2 ↔ NothingNew r)) ∧
    ((Replay.step nextReqId conf (.start nextReqId conf translated q up) call).results =
        [.status .httpBadRequest] →
      ((∀ calls, (Runs.run (Replay.step nextReqId conf)
          (.start nextReqId conf translated q up) (call :: calls)).written = []) ↔
        NoFirstSection (extractBody up).1)) :=
  ⟨fun _ => deserializeBody_same_iff r, fun h => nothing_written_iff h⟩

/-- A payload whose second size is no number. -/
def brokenPayload : Bytes := str "00000002da000kk002totototo00000125"

/-- It is refused with its first section assigned, and the second call gives that section to the
application. -/
theorem refused_payload_sent :
    let r : RequestInfo := { mBody := brokenPayload }
    let q : RequestRec := { headersIn := [(str "Duplication-Type", str "Response")] }
    let st := Runs.run (Replay.step 0 {})
      (.start 0 {} false q [some [.data brokenPayload, .eos]]) [(0, 10), (0, 10)]
    (deserializeBody r).1 = .httpBadRequest ∧ r.mReqBody = [] ∧
      (deserializeBody r).2.mReqBody = str "da" ∧
      st.results = [.status .httpBadRequest, .sent (str "da")] := by
  exact ⟨by decide, rfl, by decide, rfl⟩

end ModDup
