import ModDup.Compare.Filters

/-!
# Receiving a duplicated request

A duplicated request reaches `mod_compare` with the original request, its answer and what
`mod_dup` said about them in headers of its own.  The request is first given back its method and
content type, and the input filter then reads the payload, takes it apart and hands the original
body to the application (`src/filters_compare.cc`).  After that the application answers, and the
answer goes through the output filters.

## Main definitions

* `initRequest`, `translateHook`, `compareInputFilterHandler` : the way in.
* `respond` : a response on its way through the two output filters.

## Main results

* `payloadRead_receive` : what is there once a payload was read.
* `respond_eq` : however the response is cut, it is compared once, as a whole.
-/

namespace ModDup

open Bytes

/-! ### The request -/

/-- The methods `changeMethod` knows. -/
def knownMethods : List Bytes := [str "GET", str "PUT", str "PATCH", str "POST", str "DELETE"]

/-- `changeMethod`; other methods are left as they are. -/
def changeMethod (req : RequestRec) (pMethod : Bytes) : RequestRec :=
  if pMethod ∈ knownMethods then { req with method := pMethod } else req

/-- The original method. -/
def restoreMethod (req : RequestRec) : RequestRec :=
  match aprTableGet req.headersIn (str "X_DUP_METHOD") with
  | none => req
  | some lMethod =>
    let req := changeMethod req lMethod
    { req with headersIn := aprTableUnset req.headersIn (str "X_DUP_METHOD") }

/-- A request with its answer is marked. -/
def markTranslated (req : RequestRec) : RequestRec :=
  match aprTableGet req.headersIn (str "Content-Type") with
  | none => req
  | some lDupType =>
    if (str "application/x-dup-serialized").isPrefixOf lDupType then
      { req with headersIn := aprTableSet req.headersIn (str "X-COMPARE-TRANSLATED") (str "1") }
    else req

/-- The original content type. -/
def restoreContentType (req : RequestRec) : RequestRec :=
  match aprTableGet req.headersIn (str "X_DUP_CONTENT_TYPE") with
  | none => req
  | some lContentType =>
    { req with
      headersIn := aprTableUnset (aprTableSet req.headersIn (str "Content-Type") lContentType)
        (str "X_DUP_CONTENT_TYPE") }

/-- The status of the original request, `-1` when it is not there or no number. -/
def originalStatus (reqHeader : MapStr) : ℤ :=
  ((reqHeader.get? (str "X_DUP_HTTP_STATUS")).bind (lexicalCastInt 32)).getD (-1)

/-- `initRequest`. -/
def initRequest (nextReqId : ℕ) (s : CompareState) : CompareState :=
  let (info, req) := makeRequestInfo nextReqId s.req
  let req := restoreContentType (markTranslated (restoreMethod req))
  -- the copy still has the two headers that are removed below
  let reqHeader := info.mReqHeader.setAll req.headersIn
  { s with
    info := some { info with mReqHeader := reqHeader, mReqHttpStatus := originalStatus reqHeader }
    req := { req with
      headersIn := aprTableUnset (aprTableUnset req.headersIn (str "ELAPSED_TIME_BY_DUP"))
        (str "X_DUP_HTTP_STATUS") } }

/-- `translateHook`. -/
def translateHook (nextReqId : ℕ) (conf : Option CompareConf) (s : CompareState) : CompareState :=
  if conf.any CompareConf.mIsActive then initRequest nextReqId s else s

/-! ### The payload -/

/-- What a call of the input filter returns: a status of its own, bytes of the request body, or
what the filter before gives. -/
inductive InputResult where
  | status (st : ApStatus)
  | sent (content : Bytes)
  | next (brigade : Option Brigade)

/-- `ap_get_brigade` on the filter before. -/
def getBrigade (s : CompareState) (up : Upstream) : InputResult × CompareState × Upstream :=
  (.next up.head?.join, s, up.tail)

/-- The info after the payload was read at time `now`: the status of `deserializeBody`, and the
clock restarted. -/
def readPayload (now : ℤ) (content : Bytes) (r : RequestInfo) : ApStatus × RequestInfo :=
  let (lStatus, r) := deserializeBody { r with mBody := r.mBody ++ content, offset := 0 }
  (lStatus, { r with mStartTime := now })

/-- Bytes of the request body for the application.  A section is smaller than the range of `int`,
so the conversion of the size is exact. -/
def sendBody (pReadbytes : ℕ) (s : CompareState) (up : Upstream) :
    InputResult × CompareState × Upstream :=
  match s.info with
  | none => getBrigade s up
  | some lRI =>
    let toSend := min (lRI.mReqBody.length - lRI.offset) pReadbytes
    if toSend > 0 then
      (.sent ((lRI.mReqBody.drop lRI.offset).take toSend),
        { s with info := some { lRI with offset := lRI.offset + toSend } }, up)
    else getBrigade s up

/-- `inputFilterHandler` of `mod_compare`, where `up` is what the filter before has to give. -/
def compareInputFilterHandler (nextReqId : ℕ) (conf : Option CompareConf) (now : ℤ)
    (pReadbytes : ℕ) (s : CompareState) (up : Upstream) : InputResult × CompareState × Upstream :=
  if !isDupResponse s.req || conf.isNone then getBrigade s up
  else if s.inputRead then sendBody pReadbytes s up
  else
    let s := if s.info.isNone then initRequest nextReqId s else s
    match s.info with
    | none => getBrigade s up
    | some r =>
      let (content, up) := extractBody up
      let (lStatus, r) := readPayload now content r
      -- set whatever the status is: a payload that was refused is not read again
      let s := { s with info := some r, inputRead := true }
      if lStatus ≠ .ok then (.status lStatus, s, up)
      else
        let s := { s with req := { s.req with
          headersIn := aprTableSet s.req.headersIn (str "Content-Length")
            (decimal r.mReqBody.length) } }
        sendBody pReadbytes s up

/-! ### The response -/

/-- The brigades of a response, each through the two output filters; an exception ends it. -/
def respond (env : CompareEnv) (conf : Option CompareConf) :
    List Brigade → CompareState → World → Bool × CompareState × World
  | [], s, w => (false, s, w)
  | b :: bs, s, w =>
    let (s, w) := outputFilterHandler env conf w s b
    match outputFilterHandler2 env conf w s with
    | (true, s, w) => (true, s, w)
    | (false, s, w) => respond env conf bs s w

/-! ### What is there once the payload was read -/

/-- The headers `initRequest` sets or removes. -/
def initNames : List Bytes :=
  [cUniqueId, str "X_DUP_METHOD", str "X-COMPARE-TRANSLATED", str "Content-Type",
    str "X_DUP_CONTENT_TYPE", str "ELAPSED_TIME_BY_DUP", str "X_DUP_HTTP_STATUS"]

/-- `f` reads a table and does not see the headers with these names. -/
structure BlindTo {α : Type} (names : List Bytes) (f : AprTable → α) : Prop where
  set : ∀ n ∈ names, ∀ t val, f (aprTableSet t n val) = f t
  unset : ∀ n ∈ names, ∀ t, f (aprTableUnset t n) = f t

theorem blindTo_aprTableGet {names : List Bytes} {key : Bytes}
    (hkey : ∀ n ∈ names, sameName n key = false) : BlindTo names (aprTableGet · key) where
  set n hn _ _ := aprTableGet_set_of_ne (hkey n hn)
  unset n hn _ := aprTableGet_unset_of_ne (hkey n hn)

/-! What does not see the first five of these names reads the same after each step of
`initRequest` but the last, which removes the other two. -/

namespace BlindTo

variable {α : Type} {f : AprTable → α} (hf : BlindTo (initNames.take 5) f)
include hf

theorem headersIn_makeRequestInfo (nextReqId : ℕ) (req : RequestRec) :
    f (makeRequestInfo nextReqId req).2.headersIn = f req.headersIn := by
  change f (getOrSetUniqueID nextReqId req).2.headersIn = _
  unfold getOrSetUniqueID
  split
  · exact hf.set _ (by simp [initNames]) _ _
  · rfl

theorem headersIn_restoreMethod (req : RequestRec) :
    f (restoreMethod req).headersIn = f req.headersIn := by
  unfold restoreMethod
  split
  · rfl
  · dsimp only
    rw [hf.unset _ (by simp [initNames])]
    unfold changeMethod
    split_ifs <;> rfl

theorem headersIn_markTranslated (req : RequestRec) :
    f (markTranslated req).headersIn = f req.headersIn := by
  unfold markTranslated
  split
  · rfl
  · split_ifs
    · exact hf.set _ (by simp [initNames]) _ _
    · rfl

theorem headersIn_restoreContentType (req : RequestRec) :
    f (restoreContentType req).headersIn = f req.headersIn := by
  unfold restoreContentType
  split
  · rfl
  · dsimp only
    rw [hf.unset _ (by simp [initNames]), hf.set _ (by simp [initNames])]

theorem headersIn_restored (nextReqId : ℕ) (req : RequestRec) :
    f (restoreContentType (markTranslated (restoreMethod
      (makeRequestInfo nextReqId req).2))).headersIn = f req.headersIn := by
  rw [hf.headersIn_restoreContentType, hf.headersIn_markTranslated, hf.headersIn_restoreMethod,
    hf.headersIn_makeRequestInfo]

end BlindTo

theorem aprTableGet_initRequest (nextReqId : ℕ) (s : CompareState) {key : Bytes}
    (hkey : ∀ n ∈ initNames, sameName n key = false) :
    aprTableGet (initRequest nextReqId s).req.headersIn key =
      aprTableGet s.req.headersIn key := by
  have hblind := blindTo_aprTableGet hkey
  have hfirst : BlindTo (initNames.take 5) (aprTableGet · key) :=
    blindTo_aprTableGet fun n hn => hkey n (List.mem_of_mem_take hn)
  calc aprTableGet (initRequest nextReqId s).req.headersIn key
      = aprTableGet (restoreContentType (markTranslated (restoreMethod
          (makeRequestInfo nextReqId s.req).2))).headersIn key :=
        (hblind.unset _ (by simp [initNames]) _).trans (hblind.unset _ (by simp [initNames]) _)
    _ = aprTableGet s.req.headersIn key := hfirst.headersIn_restored nextReqId s.req

theorem initRequest_uri (nextReqId : ℕ) (s : CompareState) :
    (initRequest nextReqId s).req.uri = s.req.uri := by
  have hmake : (makeRequestInfo nextReqId s.req).2.uri = s.req.uri := by
    change (getOrSetUniqueID nextReqId s.req).2.uri = _
    unfold getOrSetUniqueID
    split <;> rfl
  have hrestore : ∀ req, (restoreMethod req).uri = req.uri := by
    intro req
    unfold restoreMethod changeMethod
    split
    · rfl
    · dsimp only
      split_ifs <;> rfl
  have hmarked : ∀ req, (markTranslated req).uri = req.uri := by
    intro req
    unfold markTranslated
    split
    · rfl
    · split_ifs <;> rfl
  have hcontent : ∀ req, (restoreContentType req).uri = req.uri := by
    intro req
    unfold restoreContentType
    split <;> rfl
  change (restoreContentType (markTranslated (restoreMethod
    (makeRequestInfo nextReqId s.req).2))).uri = _
  rw [hcontent, hmarked, hrestore, hmake]

/-- The request asks for the status of the comparison. -/
def hasCompLog (req : RequestRec) : Bool := (aprTableGet req.headersIn (str "X_COMP_LOG")).isSome

/-- The request is still the one that came in, as far as the output filters go by it. -/
structure SameRequest (req q : RequestRec) : Prop where
  uri : req.uri = q.uri
  dup : isDupResponse req = isDupResponse q
  log : hasCompLog req = hasCompLog q

theorem sameRequest_of_get {req q : RequestRec} (huri : req.uri = q.uri)
    (hget : ∀ key ∈ [str "Duplication-Type", str "X_COMP_LOG"],
      aprTableGet req.headersIn key = aprTableGet q.headersIn key) : SameRequest req q := by
  refine ⟨huri, ?_, ?_⟩
  · rw [isDupResponse, hget _ (by simp), isDupResponse]
  · rw [hasCompLog, hget _ (by simp), hasCompLog]

theorem SameRequest.trans {a b c : RequestRec} (h : SameRequest a b) (h' : SameRequest b c) :
    SameRequest a c :=
  ⟨h.uri.trans h'.uri, h.dup.trans h'.dup, h.log.trans h'.log⟩

theorem sameRequest_initRequest (nextReqId : ℕ) (s : CompareState) :
    SameRequest (initRequest nextReqId s).req s.req := by
  refine sameRequest_of_get (initRequest_uri nextReqId s) fun key hkey =>
    aprTableGet_initRequest nextReqId s ?_
  simp only [List.mem_cons, List.not_mem_nil, or_false] at hkey
  rcases hkey with rfl | rfl <;> decide

/-- Nothing of a response is there yet. -/
structure Unanswered (s : CompareState) (r : RequestInfo) : Prop where
  info : s.info = some r
  header : r.mDupResponseHeader = .empty
  body : r.mDupResponseBody = []
  eos : r.mEOS = false
  done1 : s.done1 = false
  done2 : s.done2 = false

/-- The answer that came with the request is there: header block `h` and body `a`. -/
structure PayloadRead (q : RequestRec) (h a : Bytes) (s : CompareState) (r : RequestInfo) : Prop
    extends Unanswered s r where
  request : SameRequest s.req q
  read : s.inputRead = true
  original : r.mResponseHeader = (deserializeHeader .empty h).2
  answer : r.mResponseBody = a

/-- A duplicated request comes in: the hook runs unless the path is an alias, then the
application reads the body in calls of the given sizes. -/
def receive (nextReqId : ℕ) (conf : CompareConf) (translated : Bool) (now : ℤ) (reads : List ℕ)
    (q : RequestRec) (payload : List Brigade) : CompareState :=
  (reads.foldl (fun st n => (compareInputFilterHandler nextReqId (some conf) now n st.1 st.2).2)
    (if translated then translateHook nextReqId (some conf) { req := q } else { req := q },
      payload.map some)).1

section Payload

variable {q : RequestRec} {h a : Bytes} {s : CompareState} {r : RequestInfo}

theorem payloadRead_sendBody (hs : PayloadRead q h a s r) (pReadbytes : ℕ) (up : Upstream) :
    ∃ r', PayloadRead q h a (sendBody pReadbytes s up).2.1 r' := by
  unfold sendBody
  rw [hs.info]
  dsimp only
  split_ifs
  · refine ⟨{ r with offset := r.offset + min (r.mReqBody.length - r.offset) pReadbytes }, ?_⟩
    exact ⟨⟨rfl, hs.header, hs.body, hs.eos, hs.done1, hs.done2⟩, hs.request, hs.read, hs.original,
      hs.answer⟩
  · exact ⟨r, hs⟩

/-- An info that has nothing but what `initRequest` puts into it. -/
def Fresh (r : RequestInfo) : Prop :=
  r.mBody = [] ∧ r.mResponseHeader = .empty ∧ r.mDupResponseHeader = .empty ∧
    r.mDupResponseBody = [] ∧ r.mEOS = false

theorem readPayload_sections (now : ℤ) (hr : Fresh r) {b : Bytes} (hb : b.length < 10 ^ 8)
    (hh : h.length < 10 ^ 8) (ha : a.length < 10 ^ 8) :
    let r' := (readPayload now (RequestInfo.serialize b ++ RequestInfo.serialize h ++
      RequestInfo.serialize a) r).2
    r'.mResponseHeader = (deserializeHeader .empty h).2 ∧ r'.mResponseBody = a ∧
      r'.mDupResponseHeader = .empty ∧ r'.mDupResponseBody = [] ∧ r'.mEOS = false := by
  obtain ⟨hbody, hheader, hrest⟩ := hr
  have hsections := deserializeBody_sections { r with
    mBody := r.mBody ++ (RequestInfo.serialize b ++ RequestInfo.serialize h ++
      RequestInfo.serialize a), offset := 0 } (b := b) (h := h) (a := a)
    (by simp [hbody]) hb hh ha
  simp only [readPayload, hsections]
  exact ⟨by rw [hheader], trivial, hrest⟩

/-- The state a call leaves when it has read the payload `content`. -/
def openPayload (nextReqId : ℕ) (now : ℤ) (content : Bytes) (q : RequestRec) : CompareState :=
  let s := initRequest nextReqId { req := q }
  { s with info := s.info.map fun r => (readPayload now content r).2, inputRead := true }

theorem sameRequest_openPayload (nextReqId : ℕ) (now : ℤ) (content : Bytes) (q : RequestRec) :
    SameRequest (openPayload nextReqId now content q).req q := by
  have hreq : (openPayload nextReqId now content q).req =
      (initRequest nextReqId { req := q }).req := by simp only [openPayload]
  rw [hreq]
  exact sameRequest_initRequest nextReqId { req := q }

/-- The request before the first call: the hook was called or not. -/
theorem translated_eq (nextReqId : ℕ) (conf : CompareConf) (translated : Bool) (q : RequestRec) :
    (if translated then translateHook nextReqId (some conf) { req := q } else { req := q }) =
        ({ req := q } : CompareState) ∨
      (if translated then translateHook nextReqId (some conf) { req := q } else { req := q }) =
        initRequest nextReqId { req := q } := by
  unfold translateHook
  split_ifs
  · exact .inr rfl
  · exact .inl rfl
  · exact .inl rfl

/-- The first call of the input filter reads the payload, whether the hook was called or not; the
body is only sent if the payload was accepted. -/
theorem inputFilter_first (nextReqId : ℕ) (conf : CompareConf) (now : ℤ) (n : ℕ)
    (hdup : isDupResponse q = true)
    (hs : s = { req := q } ∨ s = initRequest nextReqId { req := q }) (up : Upstream) :
    ∃ r, (initRequest nextReqId { req := q }).info = some r ∧ Fresh r ∧
      compareInputFilterHandler nextReqId (some conf) now n s up =
        let (lStatus, r) := readPayload now (extractBody up).1 r
        let s := openPayload nextReqId now (extractBody up).1 q
        if lStatus ≠ .ok then (.status lStatus, s, (extractBody up).2)
        else sendBody n { s with req := { s.req with
          headersIn := aprTableSet s.req.headersIn (str "Content-Length")
            (decimal r.mReqBody.length) } } (extractBody up).2 := by
  set s₁ := initRequest nextReqId { req := q } with hs₁
  have hsame : SameRequest s₁.req q := sameRequest_initRequest nextReqId { req := q }
  have hopen : (if s.info.isNone then initRequest nextReqId s else s) = s₁ := by
    rcases hs with rfl | rfl <;> rfl
  have hdup' : isDupResponse s.req = true := by
    rcases hs with rfl | rfl
    · exact hdup
    · exact hsame.dup.trans hdup
  have hfirst : s.inputRead = false := by rcases hs with rfl | rfl <;> rfl
  obtain ⟨r₁, hr₁, hnew⟩ : ∃ r, s₁.info = some r ∧ Fresh r := ⟨_, rfl, rfl, rfl, rfl, rfl, rfl⟩
  refine ⟨r₁, hr₁, hnew, ?_⟩
  unfold compareInputFilterHandler
  simp only [hdup', Option.isNone_some, Bool.not_true, Bool.or_self, hfirst, hopen, hr₁,
    Bool.false_eq_true, ↓reduceIte, openPayload, ← hs₁, Option.map_some]

theorem sameRequest_contentLength (req : RequestRec) (v : Bytes) :
    SameRequest
      { req with headersIn := aprTableSet req.headersIn (str "Content-Length") v } req := by
  refine sameRequest_of_get rfl fun key hkey => aprTableGet_set_of_ne ?_
  simp only [List.mem_cons, List.not_mem_nil, or_false] at hkey
  rcases hkey with rfl | rfl <;> decide

theorem payloadRead_first (nextReqId : ℕ) (conf : CompareConf) (now : ℤ) (n : ℕ)
    (hdup : isDupResponse q = true)
    (hs : s = { req := q } ∨ s = initRequest nextReqId { req := q })
    {b : Bytes} {payload : List Brigade}
    (hcut : CutOf (RequestInfo.serialize b ++ RequestInfo.serialize h ++ RequestInfo.serialize a)
      payload)
    (hread : .unreadable ∉ payload.flatten) (hb : b.length < 10 ^ 8) (hh : h.length < 10 ^ 8)
    (ha : a.length < 10 ^ 8) :
    ∃ r, PayloadRead q h a
      (compareInputFilterHandler nextReqId (some conf) now n s (payload.map some)).2.1 r := by
  obtain ⟨r₁, hr₁, hnew, hcall⟩ :=
    inputFilter_first nextReqId conf now n hdup hs (payload.map some)
  set content := RequestInfo.serialize b ++ RequestInfo.serialize h ++ RequestInfo.serialize a
  have hsame := sameRequest_openPayload nextReqId now content q
  obtain ⟨horig, hans, hfresh⟩ := readPayload_sections now hnew hb hh ha
  -- the header block may be refused; what was read of it stays
  have hpayload : ∀ req, SameRequest req q →
      PayloadRead q h a { openPayload nextReqId now content q with req := req }
        (readPayload now content r₁).2 := by
    intro req hreq
    refine ⟨⟨?_, hfresh.1, hfresh.2.1, hfresh.2.2, rfl, rfl⟩, hreq, rfl, horig, hans⟩
    simp only [openPayload, hr₁, Option.map_some]
  simp only [hcall, extractBody_cut hcut hread]
  split_ifs
  · exact ⟨_, hpayload _ hsame⟩
  · refine payloadRead_sendBody (r := (readPayload now content r₁).2) ?_ n []
    exact hpayload _ ((sameRequest_contentLength _ _).trans hsame)

/-- Once the payload was read, further calls of the input filter change nothing that matters. -/
theorem payloadRead_receive (nextReqId : ℕ) (conf : CompareConf) (translated : Bool) (now : ℤ)
    {reads : List ℕ} (hreads : reads ≠ []) (hdup : isDupResponse q = true) {b : Bytes}
    {payload : List Brigade}
    (hcut : CutOf (RequestInfo.serialize b ++ RequestInfo.serialize h ++ RequestInfo.serialize a)
      payload)
    (hread : .unreadable ∉ payload.flatten) (hb : b.length < 10 ^ 8) (hh : h.length < 10 ^ 8)
    (ha : a.length < 10 ^ 8) :
    ∃ r, PayloadRead q h a (receive nextReqId conf translated now reads q payload) r := by
  obtain ⟨n, ns, rfl⟩ := List.exists_cons_of_ne_nil hreads
  have hstart := translated_eq nextReqId conf translated q
  rw [receive, List.foldl_cons]
  refine List.foldlRecOn (motive := fun (st : CompareState × Upstream) =>
      ∃ r, PayloadRead q h a st.1 r) ns _
    (payloadRead_first nextReqId conf now n hdup hstart hcut hread hb hh ha) ?_
  rintro ⟨s, up⟩ ⟨r, hs⟩ m -
  have hdup' : isDupResponse s.req = true := hs.request.dup.trans hdup
  have hread' : s.inputRead = true := hs.read
  have hcall : compareInputFilterHandler nextReqId (some conf) now m s up = sendBody m s up := by
    simp [compareInputFilterHandler, hdup', hread']
  dsimp only
  rw [hcall]
  exact payloadRead_sendBody hs m up

end Payload

/-! ### The response as a whole -/

/-- The request after a call of the first output filter. -/
def compMark (w : World) (conf : CompareConf) (req : RequestRec) : RequestRec :=
  if hasCompLog req then
    { req with headersOut := aprTableSet req.headersOut (str "X-COMP-STATUS") (compStatus w conf) }
  else req

theorem compMark_status (w : World) (conf : CompareConf) (req : RequestRec) :
    (compMark w conf req).status = req.status := by
  unfold compMark
  split_ifs <;> rfl

theorem compMark_headersOut (w : World) (conf : CompareConf) {req req' : RequestRec}
    (hlog : hasCompLog req = hasCompLog req') (hout : req.headersOut = req'.headersOut) :
    (compMark w conf req).headersOut = (compMark w conf req').headersOut := by
  unfold compMark
  rw [hlog]
  split_ifs
  · dsimp only
    rw [hout]
  · exact hout

/-- The second call of the filter sets the same header again. -/
theorem compMark_compMark (w : World) (conf : CompareConf) (req : RequestRec) :
    compMark w conf (compMark w conf req) = compMark w conf req := by
  by_cases hlog : hasCompLog req = true
  · have hlog' : hasCompLog { req with
        headersOut := aprTableSet req.headersOut (str "X-COMP-STATUS") (compStatus w conf) } =
        true := hlog
    rw [compMark, compMark, if_pos hlog, if_pos hlog']
    simp only [aprTableSet_set]
  · rw [compMark, compMark, if_neg hlog, if_neg hlog]

theorem sameRequest_compMark (w : World) (conf : CompareConf) (req : RequestRec) :
    SameRequest (compMark w conf req) req := by
  unfold compMark
  split_ifs <;> exact ⟨rfl, rfl, rfl⟩

theorem readResponse_data (now : ℤ) (r : RequestInfo) {bs : Brigade} (hbs : .eos ∉ bs) :
    readResponse now r bs =
      { r with mDupResponseBody := r.mDupResponseBody ++ bs.flatMap Bucket.content } := by
  induction bs generalizing r with
  | nil => simp [readResponse]
  | cons b bs ih =>
    rw [List.mem_cons, not_or] at hbs
    have hb : readResponse now r (b :: bs) =
        readResponse now { r with mDupResponseBody := r.mDupResponseBody ++ b.content } bs := by
      cases b with
      | eos => exact absurd rfl hbs.1
      | _ => rfl
    rw [hb, ih _ hbs.2]
    simp

theorem readResponse_end (now : ℤ) (r : RequestInfo) {last : Brigade} (hlast : .eos ∉ last) :
    readResponse now r (last ++ [.eos]) = RequestInfo.eosSeen
      { r with mDupResponseBody := r.mDupResponseBody ++ last.flatMap Bucket.content }
      now true := by
  rw [← readResponse_data now r hlast, readResponse, List.foldl_append]
  rfl

section Respond

variable {env : CompareEnv} {conf : CompareConf} {w : World} {s : CompareState} {r : RequestInfo}

theorem outputFilterHandler_eq (hinfo : s.info = some r) (hdone : s.done1 = false)
    (huri : find (str "comp_truncate") s.req.uri = none) (hdup : isDupResponse s.req = true)
    (b : Brigade) :
    outputFilterHandler env (some conf) w s b =
      ({ s with info := some (readResponse env.now r b), req := compMark w conf s.req }, w) := by
  simp only [outputFilterHandler, hdone, huri, hdup, hinfo]
  rfl

theorem outputFilterHandler2_of_not_eos (hinfo : s.info = some r) (heos : r.mEOS = false) :
    outputFilterHandler2 env (some conf) w s = (false, s, w) := by
  unfold outputFilterHandler2
  rw [hinfo]
  cases s.done2 <;> simp [heos]

/-- **However a response is cut, it is compared once, as a whole.** -/
theorem respond_eq (hinfo : s.info = some r) (heos : r.mEOS = false) (hdone : s.done1 = false)
    (huri : find (str "comp_truncate") s.req.uri = none) (hdup : isDupResponse s.req = true)
    {data : Bytes} {bs : List Brigade} (hcut : CutOf data bs) :
    respond env (some conf) bs s w =
      outputFilterHandler2 env (some conf) w { s with
        req := compMark w conf s.req
        info := some (RequestInfo.eosSeen
          { r with mDupResponseBody := r.mDupResponseBody ++ data } env.now true) } := by
  obtain ⟨init, last, rfl, hno, rfl⟩ := hcut
  -- the brigades before the last only add to the body
  induction init generalizing s r with
  | nil =>
    simp only [List.flatten_nil, List.nil_append] at hno ⊢
    rw [respond, outputFilterHandler_eq hinfo hdone huri hdup, readResponse_end env.now r hno]
    dsimp only
    split <;> rename_i hout <;> rw [hout]
    rfl
  | cons b init ih =>
    simp only [List.flatten_cons, List.append_assoc, List.mem_append, not_or] at hno
    have hsame := sameRequest_compMark w conf s.req
    have hrest : .eos ∉ init.flatten ++ last := by
      rw [List.mem_append, not_or]
      exact hno.2
    rw [List.cons_append, respond, outputFilterHandler_eq hinfo hdone huri hdup,
      readResponse_data env.now r hno.1]
    set r₁ : RequestInfo :=
      { r with mDupResponseBody := r.mDupResponseBody ++ b.flatMap Bucket.content }
    dsimp only
    rw [outputFilterHandler2_of_not_eos (r := r₁) rfl heos]
    dsimp only
    rw [ih (s := { s with info := some r₁, req := compMark w conf s.req }) (r := r₁) rfl heos hdone
      (by rw [hsame.uri]; exact huri) (hsame.dup.trans hdup) hrest]
    simp only [r₁, compMark_compMark, List.flatten_cons, List.append_assoc, List.flatMap_append]

end Respond

end ModDup
