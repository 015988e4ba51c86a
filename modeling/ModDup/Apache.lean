import ModDup.RequestInfo

/-!
# What the modules see of the server

A request of the server has two header tables, and its bodies come in brigades of buckets.  The
tables compare names without regard to case.  Both modules keep a `RequestInfo` beside the
request, made by the first of their hooks that runs (`src/Utils.cc`, `src/Utils.hh`).

## Main definitions

* `AprTable` with `aprTableGet`, `aprTableSet`, `aprTableUnset`.
* `Bucket`, `Brigade`, `CutOf` : the pieces of a body.
* `extractBody` : a body read from the filter before.
* `RequestRec` : the request of the server.
* `makeRequestInfo`, `getOrSetUniqueID`.
-/

namespace ModDup

open Bytes

/-! ### Tables -/

/-- `apr_table_t`: entries in order, names compared ignoring case. -/
abbrev AprTable := KeyValList

/-- Two names are the same for a table. -/
def sameName (a b : Bytes) : Bool := toLower a = toLower b

/-- `apr_table_get`: the value of the first entry. -/
def aprTableGet (t : AprTable) (key : Bytes) : Option Bytes :=
  (t.find? fun e => sameName e.1 key).map Prod.snd

/-- `apr_table_unset`. -/
def aprTableUnset (t : AprTable) (key : Bytes) : AprTable := t.filter fun e => !sameName e.1 key

/-- `apr_table_set`: the first entry of that name takes the value, the others go; without one
an entry is added. -/
def aprTableSet : AprTable → Bytes → Bytes → AprTable
  | [], key, val => [(key, val)]
  | e :: t, key, val =>
    if sameName e.1 key then (e.1, val) :: aprTableUnset t key else e :: aprTableSet t key val

section OtherName

variable {t : AprTable} {key key' val : Bytes}

theorem sameName_ne_of_sameName (h : sameName key key' = false) {a : Bytes}
    (ha : sameName a key = true) : sameName a key' = false := by
  simp only [sameName, decide_eq_true_eq, decide_eq_false_iff_not] at ha h ⊢
  rwa [ha]

theorem aprTableGet_unset_of_ne (h : sameName key key' = false) :
    aprTableGet (aprTableUnset t key) key' = aprTableGet t key' := by
  unfold aprTableGet aprTableUnset
  rw [List.find?_filter]
  congr 2
  funext e
  by_cases he : sameName e.1 key
  · simp [he, sameName_ne_of_sameName h he]
  · simp [he]

theorem aprTableGet_set_of_ne (h : sameName key key' = false) :
    aprTableGet (aprTableSet t key val) key' = aprTableGet t key' := by
  induction t with
  | nil => simp [aprTableSet, aprTableGet, h]
  | cons e t ih =>
    simp only [aprTableSet]
    split_ifs with he
    · have := aprTableGet_unset_of_ne (t := t) h
      simp only [aprTableGet, List.find?_cons, sameName_ne_of_sameName h he] at this ⊢
      exact this
    · by_cases he' : sameName e.1 key'
      · simp [aprTableGet, he']
      · simp only [aprTableGet, List.find?_cons, he'] at ih ⊢
        exact ih

theorem aprTableGet_set_self (t : AprTable) (key val : Bytes) :
    aprTableGet (aprTableSet t key val) key = some val := by
  induction t with
  | nil => simp [aprTableSet, aprTableGet, sameName]
  | cons e t ih =>
    unfold aprTableSet
    split_ifs with h
    · simp [aprTableGet, h]
    · simp only [aprTableGet, List.find?_cons, h] at ih ⊢
      exact ih

theorem aprTableSet_ne_nil (t : AprTable) (key val : Bytes) : aprTableSet t key val ≠ [] := by
  cases t with
  | nil => simp [aprTableSet]
  | cons e t =>
    rw [aprTableSet]
    split_ifs <;> simp

theorem aprTableUnset_set (t : AprTable) (key val : Bytes) :
    aprTableUnset (aprTableSet t key val) key = aprTableUnset t key := by
  induction t with
  | nil => simp [aprTableSet, aprTableUnset, sameName]
  | cons e t ih =>
    simp only [aprTableSet]
    split_ifs with he
    · simp [aprTableUnset, he]
    · simp only [aprTableUnset, List.filter_cons, he] at ih ⊢
      rw [ih]

theorem aprTableSet_set (t : AprTable) (key val : Bytes) :
    aprTableSet (aprTableSet t key val) key val = aprTableSet t key val := by
  induction t with
  | nil => simp [aprTableSet, aprTableUnset, sameName]
  | cons e t ih =>
    rw [aprTableSet]
    split_ifs with he
    · rw [aprTableSet, if_pos he]
      simp [aprTableUnset]
    · rw [aprTableSet, if_neg he, ih]

theorem get?_setAll_unset (m : MapStr) (t : AprTable) {k : Bytes} (h : sameName k key = false) :
    (m.setAll (aprTableUnset t key)).get? k = (m.setAll t).get? k := by
  induction t generalizing m with
  | nil => rfl
  | cons e t ih =>
    by_cases he : sameName e.1 key
    · have hne : k ≠ e.1 := by rintro rfl; simp [h] at he
      have hset : (m.set e.1 e.2).get? k = m.get? k := by rw [OrdMap.get?_set, if_neg hne]
      have hcons : m.setAll (e :: t) = (m.set e.1 e.2).setAll t := rfl
      rw [aprTableUnset, List.filter_cons_of_neg (by simp [he]), hcons, OrdMap.get?_setAll _ t,
        hset, ← OrdMap.get?_setAll]
      exact ih m
    · rw [aprTableUnset, List.filter_cons_of_pos (by simp [he])]
      exact ih (m.set e.1 e.2)

theorem get?_setAll_set (m : MapStr) (t : AprTable) {k : Bytes} (h : sameName k key = false) :
    (m.setAll (aprTableSet t key val)).get? k = (m.setAll t).get? k := by
  rw [← get?_setAll_unset m _ h, aprTableUnset_set, get?_setAll_unset m t h]

end OtherName

/-! ### Buckets -/

/-- A bucket.  Reading one can fail. -/
inductive Bucket where
  | data (content : Bytes)
  | unreadable
  | metadata
  | eos
  deriving DecidableEq, Repr

/-- `apr_bucket_brigade`. -/
abbrev Brigade := List Bucket

/-- What reading a bucket gives; metadata reads as nothing. -/
def Bucket.content : Bucket → Bytes
  | .data content => content
  | _ => []

/-- A way to send data: brigades that hold it in their buckets, and the end of the stream. -/
def CutOf (data : Bytes) (bs : List Brigade) : Prop :=
  ∃ init last, bs = init ++ [last ++ [.eos]] ∧ .eos ∉ init.flatten ++ last ∧
    (init.flatten ++ last).flatMap Bucket.content = data

/-- What the filter before gives, one brigade for each call of `ap_get_brigade`; `none` where the
call fails. -/
abbrev Upstream := List (Option Brigade)

/-- The loop of `extractBrigadeContent` over a brigade: whether the body is complete, and what is
appended to it. -/
def extractBrigadeContent : Brigade → Bool × Bytes
  | [] => (false, [])
  | .eos :: _ => (true, [])
  | .unreadable :: _ => (true, [])
  | .metadata :: bs => extractBrigadeContent bs
  | .data content :: bs =>
    ((extractBrigadeContent bs).1, content ++ (extractBrigadeContent bs).2)

/-- Calls of `extractBrigadeContent` until it is done: the body, and what is left to read.  A call
that fails ends the body. -/
def extractBody : Upstream → Bytes × Upstream
  | [] => ([], [])
  | none :: up => ([], up)
  | some b :: up =>
    if (extractBrigadeContent b).1 then ((extractBrigadeContent b).2, up)
    else ((extractBrigadeContent b).2 ++ (extractBody up).1, (extractBody up).2)

theorem extractBrigadeContent_append {bs : Brigade} (heos : .eos ∉ bs) (hread : .unreadable ∉ bs)
    (bs' : Brigade) :
    extractBrigadeContent (bs ++ bs') =
      ((extractBrigadeContent bs').1,
        bs.flatMap Bucket.content ++ (extractBrigadeContent bs').2) := by
  induction bs with
  | nil => rfl
  | cons b bs ih =>
    simp only [List.mem_cons, not_or] at heos hread
    have hrest := ih heos.2 hread.2
    cases b with
    | eos => exact absurd rfl heos.1
    | unreadable => exact absurd rfl hread.1
    | metadata => simp [extractBrigadeContent, hrest, Bucket.content]
    | data content => simp [extractBrigadeContent, hrest, Bucket.content]

/-- However it is cut, data that can be read is read to its end, and nothing behind it. -/
theorem extractBody_cut_append {data : Bytes} {bs : List Brigade} (h : CutOf data bs)
    (hread : .unreadable ∉ bs.flatten) (more : Upstream) :
    extractBody (bs.map some ++ more) = (data, more) := by
  obtain ⟨init, last, rfl, heos, rfl⟩ := h
  induction init with
  | nil =>
    simp only [List.flatten_nil, List.nil_append, List.flatten_singleton, List.mem_append,
      not_or] at heos hread
    have hlast := extractBrigadeContent_append heos hread.1 [.eos]
    simp [extractBody, hlast, extractBrigadeContent]
  | cons b init ih =>
    simp only [List.flatten_cons, List.cons_append, List.append_assoc, List.mem_append, not_or]
      at heos hread
    rw [← not_or, ← List.mem_append] at heos
    have hb := extractBrigadeContent_append heos.1 hread.1 []
    rw [List.append_nil] at hb
    have hrest := ih hread.2 heos.2
    simp only [List.cons_append, List.map_cons, extractBody, hb, extractBrigadeContent,
      Bool.false_eq_true, ↓reduceIte, hrest]
    simp

theorem extractBody_cut {data : Bytes} {bs : List Brigade} (h : CutOf data bs)
    (hread : .unreadable ∉ bs.flatten) : extractBody (bs.map some) = (data, []) := by
  have happend := extractBody_cut_append h hread []
  rwa [List.append_nil] at happend

/-! ### Requests -/

/-- `request_rec`. -/
structure RequestRec where
  method : Bytes := []
  uri : Bytes := []
  unparsedUri : Bytes := []
  args : Option Bytes := none
  status : ℤ := 200
  headersIn : AprTable := []
  headersOut : AprTable := []
  requestTime : ℤ := 0

/-- `c_UNIQUE_ID`. -/
def cUniqueId : Bytes := str "UNIQUE_ID"

/-- `getOrSetUniqueID`; `nextReqId` is the number `getNextReqId` would draw. -/
def getOrSetUniqueID (nextReqId : ℕ) (r : RequestRec) : Bytes × RequestRec :=
  match aprTableGet r.headersIn cUniqueId with
  | none =>
    (decimal nextReqId, { r with
      headersIn := aprTableSet r.headersIn cUniqueId (decimal nextReqId)
      headersOut := aprTableSet r.headersOut cUniqueId (decimal nextReqId) })
  | some lID => (lID, { r with headersOut := aprTableSet r.headersOut cUniqueId lID })

theorem aprTableGet_getOrSetUniqueID (nextReqId : ℕ) (r : RequestRec) {key : Bytes}
    (h : sameName cUniqueId key = false) :
    aprTableGet (getOrSetUniqueID nextReqId r).2.headersIn key = aprTableGet r.headersIn key := by
  unfold getOrSetUniqueID
  split
  · exact aprTableGet_set_of_ne h
  · rfl

theorem headersOut_getOrSetUniqueID_ne_nil (nextReqId : ℕ) (r : RequestRec) :
    (getOrSetUniqueID nextReqId r).2.headersOut ≠ [] := by
  unfold getOrSetUniqueID
  split <;> exact aprTableSet_ne_nil _ _ _

/-- `makeRequestInfo`. -/
def makeRequestInfo (nextReqId : ℕ) (r : RequestRec) : RequestInfo × RequestRec :=
  let (uid, r) := getOrSetUniqueID nextReqId r
  (RequestInfo.make uid r.requestTime, r)

end ModDup
