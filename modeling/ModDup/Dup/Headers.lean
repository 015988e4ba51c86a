import ModDup.Dup.Scopes
import ModDup.Dup.Send

/-!
# The header lines of a call

The headers of a duplicated request are lines of a curl list: those the call sets itself, then
those of the original request that are not there yet (`addOrigHeaders`, `sendDupFormat` in
`src/RequestProcessor.cc`).  The names are compared byte by byte, and the lines are not looked at.

## Main definitions

* `copiedHeaders` : the headers `addOrigHeaders` copies, before they are written as lines.
* `CopiesOnce` : no name twice and none that must not be copied, ignoring case.
* `SingleLine` : a text without line ends.

## Main results

* `addOrigHeaders_copiesOnce_iff` : which headers of a request are copied as they should be.
* `call_single_lines_iff` : which calls have one line per header.
-/

namespace ModDup

open Bytes

/-! ### The headers that are copied -/

/-- A name that is neither in the set nor one of those never copied. -/
def Free (headers : List Bytes) (name : Bytes) : Prop := name ∉ headers ∧ name ∉ neverCopied

instance (headers : List Bytes) (name : Bytes) : Decidable (Free headers name) :=
  inferInstanceAs (Decidable (_ ∧ _))

/-- The headers `copyHeaders` writes as lines. -/
def copiedHeaders : List Bytes → KeyValList → KeyValList
  | _, [] => []
  | headers, v :: l =>
    if Free headers v.1 then v :: copiedHeaders (v.1 :: headers) l
    else copiedHeaders headers l

theorem copyHeaders_eq_map (headers : List Bytes) (l : KeyValList) :
    copyHeaders headers l = (copiedHeaders headers l).map fun v => cstr (headerLine v) := by
  induction l generalizing headers with
  | nil => rfl
  | cons v l ih =>
    rw [copyHeaders, copiedHeaders]
    by_cases hfree : Free headers v.1
    · rw [if_pos hfree, List.map_cons, ← ih]
      exact if_pos hfree
    · rw [if_neg hfree, ← ih]
      exact if_neg hfree

theorem filter_copiedHeaders (headers : List Bytes) (l : KeyValList) (name : Bytes) :
    (Free headers name →
      (copiedHeaders headers l).filter (fun v => v.1 = name) =
        (l.find? fun v => v.1 = name).toList) ∧
      (¬ Free headers name → (copiedHeaders headers l).filter (fun v => v.1 = name) = []) := by
  induction l generalizing headers with
  | nil => exact ⟨fun _ => rfl, fun _ => rfl⟩
  | cons v l ih =>
    have hcons : Free (v.1 :: headers) name ↔ name ≠ v.1 ∧ Free headers name := by
      simp [Free, and_assoc]
    by_cases hname : v.1 = name
    · subst hname
      simp only [copiedHeaders, List.find?_cons, decide_true, Option.toList_some]
      refine ⟨fun hfree => ?_, fun hno => ?_⟩
      · rw [if_pos hfree, List.filter_cons_of_pos (by simp),
          (ih (v.1 :: headers)).2 fun h => (hcons.1 h).1 rfl]
      · rw [if_neg hno]
        exact (ih headers).2 hno
    · simp only [copiedHeaders, List.find?_cons, hname, decide_false]
      split_ifs with hv
      · rw [List.filter_cons_of_neg (by simpa using hname)]
        refine ⟨fun hfree => (ih _).1 (hcons.2 ⟨Ne.symm hname, hfree⟩), fun hno => (ih _).2 ?_⟩
        exact fun h => hno (hcons.1 h).2
      · exact ih headers

theorem mem_copiedHeaders {headers : List Bytes} {l : KeyValList} {v : KeyVal}
    (h : v ∈ copiedHeaders headers l) : v ∈ l ∧ Free headers v.1 := by
  induction l generalizing headers with
  | nil => cases h
  | cons w l ih =>
    simp only [copiedHeaders] at h
    split_ifs at h with hw
    · rcases List.mem_cons.1 h with rfl | h
      · exact ⟨List.mem_cons_self, hw⟩
      · obtain ⟨hmem, hfree⟩ := ih h
        exact ⟨List.mem_cons_of_mem _ hmem, fun hin => hfree.1 (List.mem_cons_of_mem _ hin),
          hfree.2⟩
    · obtain ⟨hmem, hfree⟩ := ih h
      exact ⟨List.mem_cons_of_mem _ hmem, hfree⟩

theorem nodup_copiedHeaders (headers : List Bytes) (l : KeyValList) :
    (copiedHeaders headers l).Pairwise fun a b => a.1 ≠ b.1 := by
  induction l generalizing headers with
  | nil => exact .nil
  | cons v l ih =>
    simp only [copiedHeaders]
    split_ifs
    · refine List.pairwise_cons.2 ⟨fun w hw hname => ?_, ih _⟩
      exact (mem_copiedHeaders hw).2.1 (hname ▸ List.mem_cons_self)
    · exact ih headers

theorem exists_copied {headers : List Bytes} {l : KeyValList} {v : KeyVal} (hv : v ∈ l)
    (hfree : Free headers v.1) : ∃ w ∈ copiedHeaders headers l, w.1 = v.1 := by
  obtain ⟨w, hw⟩ : ∃ w, (l.find? fun w => w.1 = v.1) = some w := by
    rw [← Option.isSome_iff_exists, List.find?_isSome]
    exact ⟨v, hv, by simp⟩
  have hfilter := (filter_copiedHeaders headers l v.1).1 hfree
  rw [hw] at hfilter
  have hmem : w ∈ (copiedHeaders headers l).filter fun w => w.1 = v.1 := by
    rw [hfilter]
    exact List.mem_singleton_self w
  obtain ⟨hmem, hname⟩ := List.mem_filter.1 hmem
  exact ⟨w, hmem, by simpa using hname⟩

/-! ### Ignoring case -/

/-- Two names are the same header. -/
def SameHeader (a b : Bytes) : Prop := toLower a = toLower b

instance (a b : Bytes) : Decidable (SameHeader a b) := inferInstanceAs (Decidable (_ = _))

/-- The name is not, in any case, that of an initial entry nor one never copied. -/
def Wanted (headers : List Bytes) (name : Bytes) : Prop :=
  ∀ n ∈ headers ++ neverCopied, ¬ SameHeader name n

/-- What the new entries should be, for the initial names `headers`: ignoring case, none has the
name of an initial or an earlier entry or one never copied, and every other name has one entry,
that of its first occurrence. -/
structure CopiesOnce (headers : List Bytes) (l new : KeyValList) : Prop where
  initial : ∀ v ∈ new, ∀ n ∈ headers, ¬ SameHeader v.1 n
  earlier : new.Pairwise fun a b => ¬ SameHeader a.1 b.1
  forbidden : ∀ v ∈ new, ∀ n ∈ neverCopied, ¬ SameHeader v.1 n
  others : ∀ v ∈ l, Wanted headers v.1 →
    new.filter (fun w => SameHeader w.1 v.1) = (l.find? fun w => SameHeader w.1 v.1).toList

theorem Wanted.free {headers : List Bytes} {name : Bytes} (h : Wanted headers name) :
    Free headers name :=
  ⟨fun hin => h name (List.mem_append_left _ hin) rfl,
    fun hin => h name (List.mem_append_right _ hin) rfl⟩

/-- Entries that are the same header are the same entry. -/
theorem CopiesOnce.eq_of_sameHeader {headers : List Bytes} {l new : KeyValList}
    (h : CopiesOnce headers l new) {v w : KeyVal} (hv : v ∈ new) (hw : w ∈ new)
    (hsame : SameHeader v.1 w.1) : v = w := by
  by_contra hne
  have hsymm : Std.Symm fun a b : KeyVal => ¬ SameHeader a.1 b.1 :=
    ⟨fun a b hab hba => hab hba.symm⟩
  exact h.earlier.forall hv hw hne hsame

/-- Where all spellings of a name are the same, ignoring case changes nothing. -/
theorem filter_sameHeader {headers : List Bytes} {l : KeyValList} {name : Bytes}
    (hfree : Free headers name) (hspelling : ∀ w ∈ l, SameHeader w.1 name ↔ w.1 = name) :
    ((copiedHeaders headers l).filter fun w => SameHeader w.1 name) =
      (l.find? fun w => SameHeader w.1 name).toList := by
  have hfind : (l.find? fun w => SameHeader w.1 name) = l.find? fun w => w.1 = name := by
    rw [← List.head?_filter, ← List.head?_filter]
    congr 1
    exact List.filter_congr fun w hw => by simp [hspelling w hw]
  rw [hfind, ← (filter_copiedHeaders headers l name).1 hfree]
  exact List.filter_congr fun w hw => by simp [hspelling w (mem_copiedHeaders hw).1]

/-- **When `addOrigHeaders` makes no duplicate and no forbidden header**: iff every name of the
request that is not spelled as an initial name or as one never copied is none of them in another
case either, and no two of these differ in their case only. -/
theorem addOrigHeaders_copiesOnce_iff (slist : List Bytes) (rInfo : RequestInfo) :
    let headers := slist.filterMap headerName
    addOrigHeaders rInfo slist = ((copiedHeaders headers rInfo.mHeadersIn).map
        fun v => cstr (headerLine v)) ∧
      (CopiesOnce headers rInfo.mHeadersIn (copiedHeaders headers rInfo.mHeadersIn) ↔
        (∀ v ∈ rInfo.mHeadersIn, Free headers v.1 → Wanted headers v.1) ∧
          ∀ v ∈ rInfo.mHeadersIn, ∀ w ∈ rInfo.mHeadersIn, Free headers v.1 → Free headers w.1 →
            SameHeader v.1 w.1 → v.1 = w.1) := by
  intro headers
  refine ⟨copyHeaders_eq_map headers rInfo.mHeadersIn, ?_⟩
  generalize rInfo.mHeadersIn = l
  constructor
  · intro h
    refine ⟨fun v hv hfree => ?_, fun v hv w hw hfv hfw hsame => ?_⟩
    · obtain ⟨v', hv', hname⟩ := exists_copied hv hfree
      intro n hn
      rw [← hname]
      rcases List.mem_append.1 hn with hn | hn
      · exact h.initial v' hv' n hn
      · exact h.forbidden v' hv' n hn
    · obtain ⟨v', hv', hnv⟩ := exists_copied hv hfv
      obtain ⟨w', hw', hnw⟩ := exists_copied hw hfw
      rw [← hnv, ← hnw] at hsame ⊢
      rw [h.eq_of_sameHeader hv' hw' hsame]
  · rintro ⟨hspell, hcase⟩
    refine ⟨fun v hv n hn => ?_, ?_, fun v hv n hn => ?_, fun v hv hwanted => ?_⟩
    · obtain ⟨hmem, hfree⟩ := mem_copiedHeaders hv
      exact hspell v hmem hfree n (List.mem_append_left _ hn)
    · refine (nodup_copiedHeaders headers l).imp_of_mem fun {a b} ha hb hne hsame => ?_
      obtain ⟨hma, hfa⟩ := mem_copiedHeaders ha
      obtain ⟨hmb, hfb⟩ := mem_copiedHeaders hb
      exact hne (hcase a hma b hmb hfa hfb hsame)
    · obtain ⟨hmem, hfree⟩ := mem_copiedHeaders hv
      exact hspell v hmem hfree n (List.mem_append_right _ hn)
    · refine filter_sameHeader hwanted.free fun w hw => ?_
      refine ⟨fun hsame => ?_, fun heq => heq ▸ rfl⟩
      have hwanted' : Wanted headers w.1 := by
        intro n hn hsame'
        exact hwanted n hn (hsame.symm.trans hsame')
      exact hcase w hw v hv hwanted'.free hwanted.free hsame

/-- A client that spells the names in lower case: the copy gets its `host`, against the rule that
it is never copied, and a second `content-type` beside the one the call sets. -/
theorem addOrigHeaders_lower_case :
    let slist := [str "Content-Type: application/x-dup-serialized"]
    let rInfo : RequestInfo := { RequestInfo.make [] 0 with
      mHeadersIn := [(str "host", str "a"), (str "content-type", str "b")] }
    addOrigHeaders rInfo slist = [str "host: a", str "content-type: b"] ∧
      SameHeader (str "host") (str "Host") ∧
      ¬ CopiesOnce (slist.filterMap headerName) rInfo.mHeadersIn
        (copiedHeaders (slist.filterMap headerName) rInfo.mHeadersIn) := by
  intro slist rInfo
  refine ⟨by decide +kernel, by decide +kernel, fun h => ?_⟩
  have hhost : (str "host", str "a") ∈
      copiedHeaders (slist.filterMap headerName) rInfo.mHeadersIn := by decide +kernel
  exact h.forbidden _ hhost (str "Host") (by decide +kernel) (by decide +kernel)

/-! ### One line per header -/

/-- Neither a carriage return nor a line feed. -/
def SingleLine (s : Bytes) : Prop := 10 ∉ s ∧ 13 ∉ s

instance (s : Bytes) : Decidable (SingleLine s) := inferInstanceAs (Decidable (_ ∧ _))

/-- The names and values of the headers are single lines. -/
def SingleLines (l : KeyValList) : Prop := ∀ v ∈ l, SingleLine v.1 ∧ SingleLine v.2

theorem singleLine_append {s t : Bytes} : SingleLine (s ++ t) ↔ SingleLine s ∧ SingleLine t := by
  simp only [SingleLine, List.mem_append, not_or]
  exact and_and_and_comm

theorem SingleLine.cstr {s : Bytes} (h : SingleLine s) : SingleLine (cstr s) :=
  ⟨fun hmem => h.1 (List.takeWhile_subset _ hmem), fun hmem => h.2 (List.takeWhile_subset _ hmem)⟩

theorem singleLine_decimal (n : ℕ) : SingleLine (decimal n) := by
  constructor
  · intro hmem
    exact absurd (digit_of_mem_decimal hmem).1 (by decide)
  · intro hmem
    exact absurd (digit_of_mem_decimal hmem).1 (by decide)

theorem singleLine_decimalInt (i : ℤ) : SingleLine (decimalInt i) := by
  unfold decimalInt
  split_ifs
  · exact singleLine_append.2 ⟨(by decide : SingleLine [45]), singleLine_decimal _⟩
  · exact singleLine_decimal _

theorem singleLine_headerLine {v : KeyVal} (h : SingleLine v.1 ∧ SingleLine v.2) :
    SingleLine (headerLine v) := by
  rw [headerLine, singleLine_append, singleLine_append]
  exact ⟨⟨h.1, by decide⟩, h.2⟩

theorem singleLine_pattern {name text : Bytes} (hnul : 0 ∉ name) (hname : SingleLine name) :
    SingleLine (cstr (headerLine (name, text))) ↔ SingleLine (cstr text) := by
  have hcstr : cstr (headerLine (name, text)) = name ++ str ": " ++ cstr text := by
    have hsep : ∀ c ∈ str ": ", (decide (c ≠ 0)) = true := by decide +kernel
    have hfix : ∀ c ∈ name ++ str ": ", (decide (c ≠ 0)) = true := by
      intro c hc
      rcases List.mem_append.1 hc with hc | hc
      · simpa using ne_of_mem_of_not_mem hc hnul
      · exact hsep c hc
    exact List.takeWhile_append_of_pos hfix
  rw [hcstr, singleLine_append, singleLine_append]
  exact ⟨fun h => h.2, fun h => ⟨⟨hname, by decide⟩, h⟩⟩

theorem singleLine_addCommonHeaders (r : RequestInfo) :
    ∀ line ∈ addCommonHeaders r, SingleLine line := by
  have helapsed : SingleLine (str "ELAPSED_TIME_BY_DUP: " ++ decimalInt r.mElapsedTime) :=
    singleLine_append.2 ⟨by decide, singleLine_decimalInt _⟩
  intro line hline
  simp only [addCommonHeaders, List.mem_cons, List.not_mem_nil, or_false] at hline
  rcases hline with rfl | rfl | rfl | rfl
  · exact helapsed.cstr
  · decide
  · decide
  · decide

theorem singleLine_addValidationHeadersCompare (r : RequestInfo) (f : TFilter) :
    ∀ line ∈ addValidationHeadersCompare r f, SingleLine line := by
  unfold addValidationHeadersCompare
  split_ifs
  · decide
  · simp

theorem singleLine_contentLength (s : Bytes) : SingleLine (contentLength s) :=
  singleLine_append.2 ⟨by decide, singleLine_decimal _⟩

theorem singleLine_addOrigHeaders {r : RequestInfo} (h : SingleLines r.mHeadersIn)
    (slist : List Bytes) : ∀ line ∈ addOrigHeaders r slist, SingleLine line := by
  intro line hline
  rw [addOrigHeaders, copyHeaders_eq_map] at hline
  obtain ⟨v, hv, rfl⟩ := List.mem_map.1 hline
  exact (singleLine_headerLine (h v (mem_copiedHeaders hv).1)).cstr

/-- The lines of the dup format: the patterns are what may not be clean. -/
theorem singleLine_dupFormatHeaders_iff (r : RequestInfo) :
    (∀ line ∈ dupFormatHeaders r, SingleLine line) ↔
      ∀ v ∈ r.mHeadersOut, v.1 = str "X-MATCHED-PATTERN" → SingleLine (cstr v.2) := by
  have hpattern : ∀ v : KeyVal, v.1 = str "X-MATCHED-PATTERN" →
      (SingleLine (cstr (headerLine v)) ↔ SingleLine (cstr v.2)) := by
    rintro ⟨name, text⟩ rfl
    exact singleLine_pattern (by decide) (by decide)
  rw [dupFormatHeaders, List.forall_mem_append, List.forall_mem_map]
  constructor
  · rintro ⟨-, hlines⟩ v hv hname
    rw [← hpattern v hname]
    exact hlines v (List.mem_filter.2 ⟨hv, by simpa using hname⟩)
  · intro h
    refine ⟨by decide, fun v hv => ?_⟩
    obtain ⟨hmem, hname⟩ := List.mem_filter.1 hv
    have hname : v.1 = str "X-MATCHED-PATTERN" := by simpa using hname
    rw [hpattern v hname]
    exact h v hmem hname

/-- The lines of one call. -/
def CurlCall.lines (call : CurlCall) : List Bytes := call.slist ++ call.origHeaders

/-- **One call**: with clean headers in the request, only the patterns of a request sent with its
answer can break a line. -/
theorem curlCall_single_lines_iff (f : TFilter) {r : RequestInfo} (h : SingleLines r.mHeadersIn) :
    (∀ line ∈ (curlCall f r).lines, SingleLine line) ↔
      (f.mDuplicationType = .requestWithAnswer →
        ∀ v ∈ r.mHeadersOut, v.1 = str "X-MATCHED-PATTERN" → SingleLine (cstr v.2)) := by
  rw [← singleLine_dupFormatHeaders_iff]
  have hcommon := singleLine_addCommonHeaders r
  have hcomp := singleLine_addValidationHeadersCompare r f
  have hlen : ∀ s, ∀ line ∈ [contentLength s], SingleLine line := by
    intro s line hline
    obtain rfl := List.mem_singleton.1 hline
    exact singleLine_contentLength s
  have horig := singleLine_addOrigHeaders h
  unfold curlCall CurlCall.lines
  split_ifs with hanswer hbody
  · simp only [List.forall_mem_append]
    exact ⟨fun hall _ => hall.1.1.2,
      fun hdup => ⟨⟨⟨⟨hcommon, hcomp⟩, hdup hanswer⟩, hlen _⟩, horig _⟩⟩
  · simp only [List.forall_mem_append]
    exact ⟨fun _ ht => absurd ht hanswer, fun _ => ⟨⟨⟨hcommon, hcomp⟩, hlen _⟩, horig _⟩⟩
  · simp only [List.forall_mem_append]
    exact ⟨fun _ ht => absurd ht hanswer, fun _ => ⟨⟨hcommon, hcomp⟩, horig _⟩⟩

/-- Without substitutions on the headers, a call has the headers of the request. -/
theorem substituteRequest_headersIn (u : UrlCodec) (r : RequestInfo) {c : Commands}
    (h : keySubOn c.mSubstitutions .headers = false) :
    (substituteRequest u r c).2.mHeadersIn = r.mHeadersIn := by
  rw [substituteRequest, foldl_rawSubstitute]
  simp [keySubstituteRequest, h]

/-- The patterns in the headers of the answer are those of the answer itself and the texts of the
matched filters. -/
theorem singleLine_patterns_iff {p : RequestProcessor} {r : RequestInfo}
    (hout : SingleLines r.mHeadersOut) :
    (∀ v ∈ (p.processRequest r).2.mHeadersOut, v.1 = str "X-MATCHED-PATTERN" →
        SingleLine (cstr v.2)) ↔
      ∀ f ∈ (p.processRequest r).1, SingleLine (cstr f.mMatch) := by
  have hlog : str "X_DUP_LOG" ≠ str "X-MATCHED-PATTERN" := by decide
  obtain ⟨n, m, hsnd⟩ := processRequest_snd p r
  rw [hsnd]
  simp only [validationHeadersDup, List.forall_mem_append, List.forall_mem_map,
    List.forall_mem_singleton]
  constructor
  · rintro ⟨-, hpat, -⟩ f hf
    exact hpat f hf trivial
  · intro h
    refine ⟨fun v hv _ => (hout v hv).2.cstr, fun f hf _ => h f hf, fun hname => ?_⟩
    exact absurd hname hlog

/-- **When a call has one line per header**, whatever is in the body, the path and the query
string: iff it does not carry the answer, or no filter that was matched holds a text with a line
end (as far as a C string shows it).  The headers of the request and of the answer are clean, and
the destination has no substitutions on headers. -/
theorem call_single_lines_iff (ops : List ConfOp) (env : Env) (r : RequestInfo)
    (hin : SingleLines r.mHeadersIn) (hout : SingleLines r.mHeadersOut) :
    ∃ w, (ConfState.run ops).proc.runOne env r = some w ∧
      ∀ call ∈ w.calls, ∀ c,
        (ConfState.run ops).proc.commands? r.mConf call.matchedFilter.mDestination = some c →
        keySubOn c.mSubstitutions .headers = false →
          ((∀ line ∈ call.lines, SingleLine line) ↔
            (call.matchedFilter.mDuplicationType = .requestWithAnswer →
              ∀ f ∈ ((ConfState.run ops).proc.processRequest
                (r.parsed (ConfState.run ops).proc.mUrlCodec)).1, SingleLine (cstr f.mMatch))) := by
  obtain ⟨w, hw, hcalls⟩ := runOne_spec ops env r
  refine ⟨w, hw, fun call hcall c hc hsubs => ?_⟩
  obtain ⟨-, c', hc', hmade⟩ := hcalls call hcall
  obtain rfl : c = c' := Option.some.inj (hc.symm.trans hc')
  set p := (ConfState.run ops).proc
  set orig := r.parsed p.mUrlCodec
  -- the call is made from the original headers
  have hclean : SingleLines { (substituteRequest p.mUrlCodec orig c).2 with
      mHeadersOut := (p.processRequest orig).2.mHeadersOut }.mHeadersIn := by
    simp only
    rw [substituteRequest_headersIn _ _ hsubs]
    exact hin
  have hiff := curlCall_single_lines_iff call.matchedFilter hclean
  rw [← hmade] at hiff
  have hpats := singleLine_patterns_iff (p := p) (r := orig) hout
  exact hiff.trans (imp_congr_right fun _ => hpats)

/-- A worker that is not stopped, with destinations that answer nothing. -/
def silentEnv : Env := ⟨fun _ => none, fun _ => true, fun _ => ([], 0)⟩

/-- A location that sends requests with their answer, for a given filter on the body. -/
def bodyFilterOps (re : Regex) : List ConfOp :=
  [.setCurrentDupDestination 1 (str "host"), .setCurrentDuplicationType 1 .requestWithAnswer,
    .setCurrentApplicationScope 1 .body, .addRawFilter 1 re .regular]

/-- A request of that location with a body of two lines. -/
def bodyRequest : RequestInfo :=
  { RequestInfo.make (str "1") 0 with mConf := 1, mBody := str "a=1\r\nX-Admin: yes" }

theorem call_single_lines_literal :
    ∃ w, (ConfState.run (bodyFilterOps (.literal (str "a=1")))).proc.runOne silentEnv bodyRequest =
        some w ∧
      ∀ call ∈ w.calls, call.matchedFilter.mDestination = str "host" →
        ∀ line ∈ call.lines, SingleLine line := by
  obtain ⟨w, hw, hcalls⟩ := call_single_lines_iff (bodyFilterOps (.literal (str "a=1"))) silentEnv
    bodyRequest (by simp [SingleLines, bodyRequest, RequestInfo.make])
    (by simp [SingleLines, bodyRequest, RequestInfo.make])
  refine ⟨w, hw, fun call hcall hdest => ?_⟩
  rw [hcalls call hcall _ (by rw [hdest]; rfl) rfl]
  intro _ f hf
  have htexts : ∀ text ∈ (((ConfState.run (bodyFilterOps
      (.literal (str "a=1")))).proc.processRequest (bodyRequest.parsed .default)).1).map
      TFilter.mMatch, SingleLine (cstr text) := by
    decide +kernel
  exact htexts f.mMatch (List.mem_map_of_mem hf)

/-- A filter that matches the whole body: its second line becomes a header of the call. -/
theorem call_injected_header :
    SingleLines bodyRequest.mHeadersIn ∧ SingleLines bodyRequest.mHeadersOut ∧
      (∃ c, (ConfState.run (bodyFilterOps .dotPlus)).proc.commands? 1 (str "host") = some c ∧
        keySubOn c.mSubstitutions .headers = false) ∧
      ∃ w, (ConfState.run (bodyFilterOps .dotPlus)).proc.runOne silentEnv bodyRequest = some w ∧
        ∃ call ∈ w.calls, str "X-MATCHED-PATTERN: a=1\r\nX-Admin: yes" ∈ call.lines ∧
          ¬ SingleLine (str "X-MATCHED-PATTERN: a=1\r\nX-Admin: yes") := by
  have hrun : (((ConfState.run (bodyFilterOps .dotPlus)).proc.runOne silentEnv bodyRequest).map
      fun w => w.calls.any fun call =>
        decide (str "X-MATCHED-PATTERN: a=1\r\nX-Admin: yes" ∈ call.lines)) = some true := by
    decide +kernel
  obtain ⟨w, hw, hany⟩ := Option.map_eq_some_iff.1 hrun
  obtain ⟨call, hcall, hline⟩ := List.any_eq_true.1 hany
  refine ⟨by simp [SingleLines, bodyRequest, RequestInfo.make],
    by simp [SingleLines, bodyRequest, RequestInfo.make], ⟨_, rfl, rfl⟩, w, hw, call, hcall, ?_,
    by decide⟩
  exact of_decide_eq_true hline

end ModDup
