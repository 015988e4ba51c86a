import ModDup.Dup.Send
import ModDup.Compare.Deserialize

/-!
# The wire between the two modules

What `sendDupFormat` of `mod_dup` writes is what `deserializeBody` of `mod_compare` reads.  The
format has no escaping: the sizes protect the bodies, but in the header block a line feed ends
a line.  The headers of the answer hold none, the validation headers can: they quote the text a
filter matched, which the client chose.

## Main definitions

* `TailOk`, `InnerOk` : the lines of a text that a header block would show on lines of their own.
* `PatternsOk` : the matched filters whose validation headers can be read back.

## Main results

* `dupFormat_roundtrip` : the round trip, for headers that hold no line feed.
* `payload_decodable_iff` : when a payload that `runOne` sends is accepted.
-/

namespace ModDup

open Bytes RequestInfo

/-! ### The header block -/

theorem getlines_answerHeaders (H : KeyValList) :
    getlines (answerHeaders H) = H.flatMap fun v => (headerLine v).splitOn nl := by
  induction H with
  | nil => exact getlines_nil
  | cons v H ih =>
    rw [answerHeaders, List.flatMap_cons, List.append_assoc, List.singleton_append,
      getlines_append_cons, List.flatMap_cons]
    exact congrArg _ ih

/-- A header that its line can be read back from. -/
def HeaderOk (v : KeyVal) : Prop := ¬ lDelim <:+: v.1 ∧ nl ∉ v.1 ∧ nl ∉ v.2

theorem splitOn_headerLine {v : KeyVal} (h : HeaderOk v) :
    (headerLine v).splitOn nl = [headerLine v] := by
  refine List.splitOn_eq_singleton ?_
  have hdelim : nl ∉ str ": " := by decide
  simp [headerLine, h.2.1, h.2.2, hdelim]

/-- Headers without line feed are read back, the last of a name winning. -/
theorem deserializeHeader_answerHeaders (m : MapStr) {H : KeyValList} (h : ∀ v ∈ H, HeaderOk v) :
    deserializeHeader m (answerHeaders H) = (true, m.setAll H) := by
  have hlines : (H.flatMap fun v => (headerLine v).splitOn nl) =
      H.map fun v => v.1 ++ lDelim ++ v.2 := by
    rw [← List.flatMap_pure_eq_map]
    exact List.flatMap_congr fun v hv => splitOn_headerLine (h v hv)
  rw [deserializeHeader, getlines_answerHeaders, hlines]
  exact deserializeLines_lines m fun v hv => (h v hv).1

theorem deserializeHeader_append (m : MapStr) {H : KeyValList} (h : ∀ v ∈ H, HeaderOk v)
    (H' : KeyValList) :
    deserializeHeader m (answerHeaders (H ++ H')) =
      deserializeHeader (m.setAll H) (answerHeaders H') := by
  have hfirst := deserializeHeader_answerHeaders m h
  rw [deserializeHeader, getlines_answerHeaders] at hfirst
  rw [deserializeHeader, getlines_answerHeaders, List.flatMap_append,
    deserializeLines_append (by rw [hfirst]), hfirst, deserializeHeader, getlines_answerHeaders]

/-- **The round trip.**  The request body, the answer body and the answer headers of the
request that was sent are recovered, each name bound to the value of its last occurrence. -/
theorem dupFormat_roundtrip (sent : RequestInfo) (id : Bytes) (startTime : ℤ)
    (hheaders : ∀ v ∈ sent.mHeadersOut, HeaderOk v)
    (hbody : sent.mBody.length < 10 ^ 8)
    (hblock : (answerHeaders sent.mHeadersOut).length < 10 ^ 8)
    (hanswer : sent.mAnswer.length < 10 ^ 8) :
    let result := deserializeBody (received id startTime (dupFormat sent))
    result.1 = .ok ∧ result.2.mReqBody = sent.mBody ∧ result.2.mResponseBody = sent.mAnswer ∧
      ∀ k, result.2.mResponseHeader.get? k = sent.mHeadersOut.reverse.lookup k := by
  intro result
  have hresult := deserializeBody_sections (received id startTime (dupFormat sent)) rfl hbody
    hblock hanswer
  have hheader := deserializeHeader_answerHeaders
    (received id startTime (dupFormat sent)).mResponseHeader hheaders
  refine ⟨?_, ?_, ?_, fun k => ?_⟩
  · simp only [result, hresult, hheader, ↓reduceIte]
  · simp only [result, hresult]
  · simp only [result, hresult]
  · have hfresh : (received id startTime (dupFormat sent)).mResponseHeader.get? k = none := rfl
    simp only [result, hresult, hheader, OrdMap.get?_setAll, hfresh, Option.or_none]
    -- the map and the statement compare names with two different instances
    congr 1
    exact lawful_beq_subsingleton _ _

/-- A request with repeated answer headers, and digits, line feeds and NUL in the bodies. -/
def sampleSent : RequestInfo :=
  { RequestInfo.make [] 0 with
    mBody := str "42", mAnswer := [10, 0, 49]
    mHeadersOut := [(str "A", str "1"), (str "B:", str "x: y"), (str "A", str "2")] }

theorem dupFormat_roundtrip_sample :
    let result := deserializeBody (received [] 0 (dupFormat sampleSent))
    result.1 = .ok ∧ result.2.mReqBody = str "42" ∧ result.2.mResponseBody = [10, 0, 49] ∧
      result.2.mResponseHeader.get? (str "A") = some (str "2") := by
  obtain ⟨hok, hreq, hans, hget⟩ := dupFormat_roundtrip sampleSent [] 0
    (by unfold HeaderOk; decide) (by decide) (by decide) (by decide)
  exact ⟨hok, hreq, hans, (hget _).trans (by decide)⟩

/-! ### Lines of a text -/

/-- Every line after the first has a separator. -/
def TailOk (t : Bytes) : Prop := ∀ l ∈ (t.splitOn nl).tail, lDelim <:+: l

/-- Every line between the first and the last has a separator. -/
def InnerOk (t : Bytes) : Prop := ∀ l ∈ (t.splitOn nl).tail.dropLast, lDelim <:+: l

instance (t : Bytes) : Decidable (TailOk t) :=
  inferInstanceAs (Decidable (∀ l ∈ (t.splitOn nl).tail, lDelim <:+: l))

instance (t : Bytes) : Decidable (InnerOk t) :=
  inferInstanceAs (Decidable (∀ l ∈ (t.splitOn nl).tail.dropLast, lDelim <:+: l))

theorem TailOk.innerOk {t : Bytes} (h : TailOk t) : InnerOk t :=
  fun l hl => h l (List.mem_of_mem_dropLast hl)

theorem tail_splitOn_append {q : Bytes} (hq : nl ∉ q) (t : Bytes) :
    ((q ++ t).splitOn nl).tail = (t.splitOn nl).tail := by
  rw [splitOn_append_of_not_mem hq]
  cases t.splitOn nl <;> rfl

theorem tailOk_append {q : Bytes} (hq : nl ∉ q) {t : Bytes} : TailOk (q ++ t) ↔ TailOk t := by
  rw [TailOk, tail_splitOn_append hq, TailOk]

/-- A text with a separator that stands between two others makes the line they share a good
one. -/
theorem tailOk_glue {g : Bytes} (hnl : nl ∉ g) (hg : lDelim <:+: g) (x y : Bytes) :
    TailOk (x ++ (g ++ y)) ↔ InnerOk x ∧ TailOk y := by
  have hshared : ∀ a b, lDelim <:+: a ++ (g ++ b) := fun a b =>
    hg.trans ⟨a, b, by simp⟩
  obtain ⟨p, ps, hps⟩ := List.exists_cons_of_ne_nil (List.splitOn_ne_nil nl y)
  have hgy : (g ++ y).splitOn nl = (g ++ p) :: ps := by
    rw [splitOn_append_of_not_mem hnl, hps, List.modifyHead_cons]
  rw [TailOk, splitOn_append, hgy, InnerOk, TailOk, hps]
  obtain ⟨q, qs, hqs⟩ := List.exists_cons_of_ne_nil (List.splitOn_ne_nil nl x)
  rw [hqs]
  cases qs with
  | nil => simp
  | cons q' qs =>
    simp only [List.dropLast_cons_cons, List.cons_append, List.tail_cons, List.forall_mem_append,
      List.forall_mem_cons, List.headD_cons, hshared, true_and]

/-! ### The validation headers -/

/-- What the log says of a filter before the text of its expression. -/
def logHead (f : TFilter) : Bytes := f.mScope.enumToString ++ str " filter: \""

/-- What the log says of a filter from the text of its expression on. -/
def logBody (f : TFilter) : Bytes :=
  f.mRegex.str ++ (str "\" matched: \"" ++ (f.mMatch ++ (str "\" Destination: " ++ f.mDestination)))

/-- The log of several filters after the head of the first. -/
def logBodies : TFilter → List TFilter → Bytes
  | f, [] => logBody f
  | f, f' :: fs => logBody f ++ ((str " AND " ++ logHead f') ++ logBodies f' fs)

theorem intercalate_filterLog (f : TFilter) (fs : List TFilter) :
    (str " AND ").intercalate ((f :: fs).map filterLog) = logHead f ++ logBodies f fs := by
  induction fs generalizing f with
  | nil => simp [filterLog, logHead, logBodies, logBody, List.append_assoc]
  | cons f' fs ih =>
    rw [List.map_cons, List.map_cons, List.intercalate_cons_cons, ← List.map_cons, ih f']
    simp [filterLog, logHead, logBodies, logBody, List.append_assoc]

theorem logHead_ok (f : TFilter) : nl ∉ logHead f ∧ lDelim <:+: logHead f := by
  unfold logHead
  cases f.mScope <;> decide

/-- The lines of the log, from the expression of the first filter on. -/
theorem tailOk_logBodies (f : TFilter) (fs : List TFilter) :
    TailOk (logBodies f fs) ↔
      (∀ g ∈ f :: fs, InnerOk g.mRegex.str ∧ InnerOk g.mMatch ∧ InnerOk g.mDestination) ∧
        ∀ g ∈ (f :: fs).getLast?, TailOk g.mDestination := by
  have hbody : ∀ (g : TFilter) (t : Bytes), TailOk (logBody g ++ t) ↔
      InnerOk g.mRegex.str ∧ InnerOk g.mMatch ∧ TailOk (g.mDestination ++ t) := by
    intro g t
    simp only [logBody, List.append_assoc]
    rw [tailOk_glue (by decide) (by decide), tailOk_glue (by decide) (by decide)]
  induction fs generalizing f with
  | nil =>
    have h := hbody f []
    rw [List.append_nil, List.append_nil] at h
    simp only [logBodies, h, List.mem_singleton, forall_eq, List.getLast?_singleton,
      Option.mem_some_iff, forall_eq']
    exact ⟨fun h => ⟨⟨h.1, h.2.1, h.2.2.innerOk⟩, h.2.2⟩, fun h => ⟨h.1.1, h.1.2.1, h.2⟩⟩
  | cons f' fs ih =>
    have hhead := logHead_ok f'
    have hglue : nl ∉ str " AND " ++ logHead f' ∧ lDelim <:+: str " AND " ++ logHead f' := by
      refine ⟨?_, hhead.2.trans (List.suffix_append _ _).isInfix⟩
      rw [List.mem_append, not_or]
      exact ⟨by decide, hhead.1⟩
    rw [logBodies, hbody, tailOk_glue hglue.1 hglue.2, List.getLast?_cons_cons,
      List.forall_mem_cons]
    simp only [ih f', and_assoc]

/-- The matched filters whose validation headers can be read back: the text each filter matched
has a separator on every line after the first, and so have, in the log, the inner lines of its
expression and of its destination, and the end of the last destination. -/
def PatternsOk (fs : List TFilter) : Prop :=
  (∀ f ∈ fs, TailOk f.mMatch ∧ InnerOk f.mRegex.str ∧ InnerOk f.mDestination) ∧
    ∀ f ∈ fs.getLast?, TailOk f.mDestination

theorem tailOk_xDupLog {fs : List TFilter} (hfs : fs ≠ []) (n m : ℕ) :
    TailOk (xDupLog fs n m) ↔
      (∀ g ∈ fs, InnerOk g.mRegex.str ∧ InnerOk g.mMatch ∧ InnerOk g.mDestination) ∧
        ∀ g ∈ fs.getLast?, TailOk g.mDestination := by
  obtain ⟨f, fs, rfl⟩ := List.exists_cons_of_ne_nil hfs
  rw [xDupLog, if_pos hfs, intercalate_filterLog, tailOk_append (by decide),
    tailOk_append (logHead_ok f).1, tailOk_logBodies]

/-- The first line of a header shows its name; the others are lines of its value. -/
theorem headerLine_lines {v : KeyVal} (hname : nl ∉ v.1) :
    (∀ l ∈ (headerLine v).splitOn nl, lDelim <:+: l) ↔ TailOk v.2 := by
  have hq : nl ∉ v.1 ++ str ": " := by
    rw [List.mem_append, not_or]
    exact ⟨hname, by decide⟩
  obtain ⟨p, ps, hps⟩ := List.exists_cons_of_ne_nil (List.splitOn_ne_nil nl v.2)
  rw [headerLine, splitOn_append_of_not_mem hq, TailOk, hps, List.modifyHead_cons,
    List.forall_mem_cons]
  exact and_iff_right ⟨v.1, p, rfl⟩

theorem validationHeaders_lines {fs : List TFilter} (hfs : fs ≠ []) (n m : ℕ) :
    (∀ v ∈ validationHeadersDup fs n m, ∀ l ∈ (headerLine v).splitOn nl, lDelim <:+: l) ↔
      PatternsOk fs := by
  have hpat : nl ∉ str "X-MATCHED-PATTERN" := by decide
  have hlog : nl ∉ str "X_DUP_LOG" := by decide
  rw [validationHeadersDup, List.forall_mem_append, List.forall_mem_map, List.forall_mem_singleton,
    headerLine_lines hlog, tailOk_xDupLog hfs]
  have hmatch : ∀ f : TFilter, (∀ l ∈ (headerLine (str "X-MATCHED-PATTERN", f.mMatch)).splitOn nl,
      lDelim <:+: l) ↔ TailOk f.mMatch := fun f => headerLine_lines hpat
  simp only [hmatch]
  constructor
  · rintro ⟨hmatch, hall, hlast⟩
    exact ⟨fun f hf => ⟨hmatch f hf, (hall f hf).1, (hall f hf).2.2⟩, hlast⟩
  · rintro ⟨hall, hlast⟩
    exact ⟨fun f hf => (hall f hf).1,
      fun f hf => ⟨(hall f hf).2.1, (hall f hf).1.innerOk, (hall f hf).2.2⟩, hlast⟩

/-- A header block made of good headers and the validation headers is accepted iff the
patterns are. -/
theorem deserializeHeader_validation {H : KeyValList} (hH : ∀ v ∈ H, HeaderOk v)
    {fs : List TFilter} (hfs : fs ≠ []) (n m : ℕ) (header : MapStr) :
    (deserializeHeader header (answerHeaders (H ++ validationHeadersDup fs n m))).1 = true ↔
      PatternsOk fs := by
  have hown : ∀ v ∈ H, ∀ l ∈ (headerLine v).splitOn nl, lDelim <:+: l := by
    intro v hv l hl
    rw [splitOn_headerLine (hH v hv), List.mem_singleton] at hl
    exact ⟨v.1, v.2, hl.symm⟩
  rw [deserializeHeader, deserializeLines_fst, getlines_answerHeaders,
    ← validationHeaders_lines hfs]
  simp only [List.forall_mem_flatMap, List.forall_mem_append]
  exact and_iff_right hown

/-! ### What `runOne` sends -/

/-- The request as it is sent to a destination with commands `c`: parsed, substituted, and with
the validation headers. -/
def RequestProcessor.sent (p : RequestProcessor) (r : RequestInfo) (c : Commands) : RequestInfo :=
  { (substituteRequest p.mUrlCodec (r.parsed p.mUrlCodec) c).2 with
    mHeadersOut := (p.processRequest (r.parsed p.mUrlCodec)).2.mHeadersOut }

/-- A payload is accepted by `mod_compare`, which recovers both bodies. -/
def Decodes (content : Bytes) (sent : RequestInfo) : Prop :=
  ∀ id startTime, (deserializeBody (received id startTime content)).1 = .ok ∧
    (deserializeBody (received id startTime content)).2.mReqBody = sent.mBody ∧
    (deserializeBody (received id startTime content)).2.mResponseBody = sent.mAnswer

/-- **When the payloads of a request can be decoded.**  Each payload that `runOne` sends for a
request with its answer is accepted, and gives back both bodies, iff the texts that the filters
of the request matched can stand in a header block. -/
theorem payload_decodable_iff (ops : List ConfOp) (env : Env) (r : RequestInfo)
    (hheaders : ∀ v ∈ r.mHeadersOut, HeaderOk v) :
    ∃ w, (ConfState.run ops).proc.runOne env r = some w ∧
      ∀ call ∈ w.calls, call.matchedFilter.mDuplicationType = .requestWithAnswer →
        ∃ c content,
          (ConfState.run ops).proc.commands? r.mConf call.matchedFilter.mDestination = some c ∧
          call.postFields = some content ∧
          (((ConfState.run ops).proc.sent r c).mBody.length < 10 ^ 8 →
            (answerHeaders ((ConfState.run ops).proc.sent r c).mHeadersOut).length < 10 ^ 8 →
            ((ConfState.run ops).proc.sent r c).mAnswer.length < 10 ^ 8 →
            (Decodes content ((ConfState.run ops).proc.sent r c) ↔
              PatternsOk ((ConfState.run ops).proc.processRequest
                (r.parsed (ConfState.run ops).proc.mUrlCodec)).1)) := by
  obtain ⟨w, hw, hcalls⟩ := runOne_spec ops env r
  refine ⟨w, hw, fun call hcall htype => ?_⟩
  obtain ⟨hmem, c, hc, heq⟩ := hcalls call hcall
  set p := (ConfState.run ops).proc
  have hpost : call.postFields = some (dupFormat (p.sent r c)) := by
    rw [heq, curlCall, if_pos htype]
    rfl
  refine ⟨c, dupFormat (p.sent r c), hc, hpost, fun hbody hblock hanswer => ?_⟩
  -- the headers of the answer, then those `processRequest` adds
  obtain ⟨n, m, hsnd⟩ := processRequest_snd p (r.parsed p.mUrlCodec)
  have hout : (p.sent r c).mHeadersOut = r.mHeadersOut ++
      validationHeadersDup (p.processRequest (r.parsed p.mUrlCodec)).1 n m :=
    congrArg RequestInfo.mHeadersOut hsnd
  have hstatus : ∀ id startTime,
      (deserializeBody (received id startTime (dupFormat (p.sent r c)))).1 = .ok ↔
        PatternsOk (p.processRequest (r.parsed p.mUrlCodec)).1 := by
    intro id startTime
    rw [deserializeBody_sections (received id startTime (dupFormat (p.sent r c))) rfl hbody hblock
      hanswer, ← deserializeHeader_validation hheaders (List.ne_nil_of_mem hmem) n m
      (received id startTime (dupFormat (p.sent r c))).mResponseHeader, hout]
    split_ifs with h <;> simp [h]
  constructor
  · exact fun h => (hstatus [] 0).1 (h [] 0).1
  · intro h id startTime
    refine ⟨(hstatus id startTime).2 h, ?_, ?_⟩ <;>
      rw [deserializeBody_sections (received id startTime (dupFormat (p.sent r c))) rfl hbody
        hblock hanswer]

/-- A location that duplicates with their answer the requests whose body matches `re`. -/
def answerOps (re : Regex) : List ConfOp :=
  [.setCurrentDupDestination 1 (str "host"), .setCurrentDuplicationType 1 .requestWithAnswer,
    .setCurrentApplicationScope 1 .body, .addRawFilter 1 re .regular]

/-- A request of that location, with its answer. -/
def answeredRequest (body : Bytes) : RequestInfo :=
  { RequestInfo.make (str "1") 0 with
    mConf := 1, mMethod := str "POST", mPath := str "/p", mBody := body, mAnswer := str "done"
    mHeadersOut := [(str "Server", str "a")] }

/-- A server that answers every call. -/
def quietEnv : Env := ⟨fun _ => none, fun _ => true, fun _ => ([], 0)⟩

theorem payload_decodable_plain :
    ∃ w call content,
      (ConfState.run (answerOps (.literal (str "ab")))).proc.runOne quietEnv
        (answeredRequest (str "xab")) = some w ∧ call ∈ w.calls ∧
      call.postFields = some content ∧ (deserializeBody (received [] 0 content)).1 = .ok := by
  obtain ⟨w, hw, hcalls⟩ := payload_decodable_iff (answerOps (.literal (str "ab"))) quietEnv
    (answeredRequest (str "xab")) (by unfold HeaderOk; decide)
  have hmade : ((ConfState.run (answerOps (.literal (str "ab")))).proc.runOne quietEnv
      (answeredRequest (str "xab"))).map (fun w => w.calls.map fun call =>
        (call.matchedFilter.mDuplicationType, call.matchedFilter.mDestination)) =
      some [(.requestWithAnswer, str "host")] := by decide +kernel
  rw [hw, Option.map_some, Option.some.injEq] at hmade
  obtain ⟨call, hcall, hkind⟩ := List.mem_map.1 (hmade ▸ List.mem_singleton_self _)
  obtain ⟨htype, hdest⟩ := Prod.mk.inj hkind
  obtain ⟨c, content, hc, hpost, hiff⟩ := hcalls call hcall htype
  have hsizes : ((ConfState.run (answerOps (.literal (str "ab")))).proc.commands? 1
      (str "host")).all (fun c =>
        let sent := (ConfState.run (answerOps (.literal (str "ab")))).proc.sent
          (answeredRequest (str "xab")) c
        sent.mBody.length < 10 ^ 8 ∧ (answerHeaders sent.mHeadersOut).length < 10 ^ 8 ∧
          sent.mAnswer.length < 10 ^ 8) = true := by decide +kernel
  rw [← hdest, show (1 : ℕ) = (answeredRequest (str "xab")).mConf from rfl, hc, Option.all_some,
    decide_eq_true_eq] at hsizes
  have hpat : PatternsOk ((ConfState.run (answerOps (.literal (str "ab")))).proc.processRequest
      ((answeredRequest (str "xab")).parsed .default)).1 := by
    unfold PatternsOk
    decide +kernel
  exact ⟨w, call, content, hw, hcall, hpost,
    ((hiff hsizes.1 hsizes.2.1 hsizes.2.2).2 hpat [] 0).1⟩

/-- A match that spans two lines of the body makes a header line without separator: the
payload is refused. -/
theorem payload_newline_refused :
    ((ConfState.run (answerOps (.quoted (str "a\\nb") [97, 10, 98]))).proc.runOne quietEnv
      (answeredRequest [97, 10, 98])).map (fun w => w.calls.map fun call =>
        call.postFields.map fun content => (deserializeBody (received [] 0 content)).1) =
      some [some .httpBadRequest] := by
  decide +kernel

end ModDup
