import ModDup.RequestInfo
import ModDup.Lib.Utf8

/-!
# The difference printers

A difference record is built by one of three printers: one line of JSON, the same with invalid
UTF-8 replaced, or a text of several lines (`src/libws_diff/DiffPrinter`).  All three keep a
flag that says whether something was added that is a difference.

The JSON text itself is written by `Json::FastWriter`; of it only the line feed at the end is
used here.

## Main definitions

* `Json`, `FastWriter` : JSON values and their writer.
* `DiffPrinter` : a printer, with one function for each of its `add` methods.
* `DiffPrinter.retrieveDiff` : the record and the flag.

## Main results

* `Json.member_setMember`, `Json.assign_append`, `Json.atPath_assign_append` : what an assignment
  does to the members and to what is at a path.
* `DiffPrinter.retrieveDiff_fst` : the flag returned is the flag, for the three printers.
* `DiffPrinter.isADiff_addFullDiffText` : a body difference that is not empty sets it.
-/

namespace ModDup

open Bytes

/-! ### JSON values -/

/-- `Json::Value`, as far as the printer builds them. -/
inductive Json where
  | null
  | int (i : ℤ)
  | string (s : Bytes)
  | array (l : List Json)
  | object (l : List (Bytes × Json))

namespace Json

/-- The members of an object. -/
def members : Json → List (Bytes × Json)
  | .object l => l
  | _ => []

/-- `value[key]`, null when there is no such member. -/
def member (j : Json) (key : Bytes) : Json := (j.members.lookup key).getD .null

/-- `isMember`. -/
def isMember (j : Json) (key : Bytes) : Bool := (j.members.lookup key).isSome

/-- Set a member, at its place if it exists. -/
def setMember (j : Json) (key : Bytes) (v : Json) : Json :=
  if j.isMember key then .object (j.members.map fun e => if e.1 = key then (key, v) else e)
  else .object (j.members ++ [(key, v)])

/-- `value[k₁][k₂]... = v`. -/
def assign (v : Json) : List Bytes → Json → Json
  | [], _ => v
  | key :: path, j => j.setMember key (assign v path (j.member key))

/-- `value[k₁][k₂]...`. -/
def atPath (j : Json) (path : List Bytes) : Json := path.foldl member j

theorem lookup_replace (l : List (Bytes × Json)) (key k : Bytes) (v : Json) :
    (l.map fun e => if e.1 = key then (key, v) else e).lookup k =
      if k = key then (l.lookup key).map fun _ => v else l.lookup k := by
  induction l with
  | nil => simp
  | cons e l ih =>
    obtain ⟨k', v'⟩ := e
    rw [List.map_cons, OrdMap.lookup_cons_of_lawful, OrdMap.lookup_cons_of_lawful]
    by_cases hk' : k' = key
    · subst hk'
      simp only [↓reduceIte, Option.map_some, OrdMap.lookup_cons_of_lawful, ih]
      split_ifs <;> rfl
    · rw [if_neg hk', OrdMap.lookup_cons_of_lawful, ih, if_neg (Ne.symm hk')]
      by_cases hk : k = key
      · rw [if_neg (hk ▸ Ne.symm hk'), if_pos hk, if_pos hk]
      · rw [if_neg hk, if_neg hk]

theorem lookup_of_not_isMember {j : Json} {key : Bytes} (h : j.isMember key = false) :
    j.members.lookup key = none := by
  cases hl : j.members.lookup key with
  | none => rfl
  | some v =>
    rw [isMember, hl] at h
    cases h

theorem lookup_setMember (j : Json) (key k : Bytes) (v : Json) :
    (j.setMember key v).members.lookup k = if k = key then some v else j.members.lookup k := by
  cases hmem : j.isMember key with
  | true =>
    obtain ⟨v', hv'⟩ := Option.isSome_iff_exists.1 hmem
    rw [setMember, if_pos hmem, members, lookup_replace, hv', Option.map_some]
  | false =>
    rw [setMember, hmem, if_neg Bool.false_ne_true, members, List.lookup_append,
      OrdMap.lookup_cons_of_lawful, List.lookup_nil]
    split_ifs with hk
    · rw [hk, lookup_of_not_isMember hmem, Option.none_or]
    · rw [Option.or_none]

@[simp] theorem member_setMember (j : Json) (key k : Bytes) (v : Json) :
    (j.setMember key v).member k = if k = key then v else j.member k := by
  rw [member, lookup_setMember]
  split_ifs <;> rfl

theorem isMember_setMember_self (j : Json) (key : Bytes) (v : Json) :
    (j.setMember key v).isMember key = true := by
  rw [isMember, lookup_setMember, if_pos rfl, Option.isSome_some]

theorem setMember_of_not_isMember {j : Json} {key : Bytes} (h : j.isMember key = false)
    (v : Json) : j.setMember key v = .object (j.members ++ [(key, v)]) := by
  rw [setMember, h, if_neg Bool.false_ne_true]

theorem member_of_not_isMember {j : Json} {key : Bytes} (h : j.isMember key = false) :
    j.member key = .null := by
  rw [member, lookup_of_not_isMember h, Option.getD_none]

theorem setMember_setMember (j : Json) (key : Bytes) (v v' : Json) :
    (j.setMember key v).setMember key v' = j.setMember key v' := by
  have hreplace (e : Bytes × Json) :
      (if (if e.1 = key then (key, v) else e).1 = key then (key, v')
        else if e.1 = key then (key, v) else e) = if e.1 = key then (key, v') else e := by
    split_ifs <;> simp_all
  rw [setMember, if_pos (isMember_setMember_self j key v)]
  cases hmem : j.isMember key with
  | true =>
    rw [setMember, setMember, if_pos hmem, if_pos hmem, members, List.map_map]
    congr 1
    exact List.map_congr_left fun e _ => hreplace e
  | false =>
    have hnot : ∀ e ∈ j.members, e.1 ≠ key := fun e he heq => by
      have := List.lookup_eq_none_iff.1 (lookup_of_not_isMember hmem) e he
      simp [heq] at this
    rw [setMember_of_not_isMember hmem, setMember_of_not_isMember hmem, members, List.map_append,
      List.map_singleton, if_pos rfl]
    congr 2
    exact (List.map_congr_left fun e he => if_neg (hnot e he)).trans (List.map_id' _)

theorem assign_append (v : Json) (path path' : List Bytes) (j : Json) :
    assign v (path ++ path') j = assign (assign v path' (j.atPath path)) path j := by
  induction path generalizing j with
  | nil => rfl
  | cons key path ih => rw [List.cons_append, assign, ih]; rfl

theorem assign_assign (v v' : Json) (path : List Bytes) (j : Json) :
    assign v' path (assign v path j) = assign v' path j := by
  induction path generalizing j with
  | nil => rfl
  | cons key path ih =>
    simp only [assign, member_setMember, ↓reduceIte, ih, setMember_setMember]

theorem atPath_assign_append (v : Json) (path path' : List Bytes) (j : Json) :
    (assign v (path ++ path') j).atPath path = assign v path' (j.atPath path) := by
  induction path generalizing j with
  | nil => rfl
  | cons key path ih =>
    rw [List.cons_append, assign, atPath, List.foldl_cons, member_setMember, if_pos rfl]
    exact ih _

theorem atPath_assign (v : Json) (path : List Bytes) (j : Json) :
    (assign v path j).atPath path = v := by
  have h := atPath_assign_append v path [] j
  rwa [List.append_nil] at h

/-- A path that leaves the assigned one at its second member is not touched. -/
theorem atPath_assign_of_ne (v : Json) (key : Bytes) {k k' : Bytes} (h : k ≠ k')
    (path path' : List Bytes) (j : Json) :
    (assign v (key :: k :: path) j).atPath (key :: k' :: path') =
      j.atPath (key :: k' :: path') := by
  simp only [assign, atPath, List.foldl_cons, member_setMember, ↓reduceIte, if_neg h.symm]

end Json

/-- `Json::FastWriter`, which ends the document with a line feed. -/
structure FastWriter where
  write : Json → Bytes
  ends_newline : ∀ j, (write j).getLast? = some nl

/-! ### Printers -/

/-- `diffTypeAvailable`. -/
inductive DiffTypeAvailable where
  | json
  | utf8json
  | multiline
  deriving DecidableEq, Repr

/-- `diffPrinter::diffTypeStr`. -/
def DiffTypeAvailable.diffTypeStr : DiffTypeAvailable → Bytes
  | .multiline => str "MULTILINE"
  | .json => str "SIMPLEJSON"
  | .utf8json => str "UTF8JSON"

/-- `diffPartitionning`, the parts of a record of the multiline printer. -/
inductive DiffPartitionning where
  | begin
  | info
  | runtime
  | status
  | uri
  | header
  | body
  | cassDiff
  | headerDiff
  | bodyDiff
  deriving DecidableEq, Repr

namespace DiffPartitionning

/-- The parts in the order of the enumeration, which is the order of the streams. -/
def order : List DiffPartitionning :=
  [.begin, .info, .runtime, .status, .uri, .header, .body, .cassDiff, .headerDiff, .bodyDiff]

/-- `partitionSeparator`. -/
def partitionSeparator : DiffPartitionning → Bytes
  | .header => str "---REQ_HEADER---\n"
  | .body => str "---REQ_BODY---\n"
  | .cassDiff => str "---CASS_DIFF---\n"
  | .headerDiff => str "---HDR_DIFF---\n"
  | .bodyDiff => str "---BODY_DIFF---\n"
  | _ => []

/-- `prettyfyStartLine`. -/
def prettyfyStartLine : DiffPartitionning → Bytes
  | .runtime => str "Elapsed time for requests (ms):"
  | .uri => str "URI : "
  | .status => str "Http Status Codes:"
  | _ => []

/-- `prettyfyEndLine`. -/
def prettyfyEndLine : DiffPartitionning → Bytes
  | .runtime => [nl]
  | .status => [nl]
  | _ => []

end DiffPartitionning

/-- A printer.  The JSON printers use `mJsonRes`, the multiline printer the streams; a stream
that was never asked for is empty, which is not printed either. -/
structure DiffPrinter where
  kind : DiffTypeAvailable
  id : Bytes
  isADiff : Bool := false
  mJsonRes : Json := .null
  streams : DiffPartitionning → Bytes := fun _ => []
  hadPreviousCassDiff : Bool := false

namespace DiffPrinter

/-- `getStream(part)->append(text)`. -/
def append (p : DiffPrinter) (part : DiffPartitionning) (text : Bytes) : DiffPrinter :=
  { p with streams := Function.update p.streams part (p.streams part ++ text) }

/-- `mJsonRes[k₁][k₂]... = v`. -/
def assign (p : DiffPrinter) (path : List Bytes) (v : Json) : DiffPrinter :=
  { p with mJsonRes := Json.assign v path p.mJsonRes }

/-- `createDiffPrinter`. -/
def createDiffPrinter (id : Bytes) (type : DiffTypeAvailable) : DiffPrinter :=
  let p : DiffPrinter := { kind := type, id := id }
  match type with
  | .multiline => p.append .begin (str "BEGIN NEW REQUEST DIFFERENCE n: " ++ id ++ [nl])
  | _ => p.assign [str "id"] (.string id)

/-- `addInfo` with a text. -/
def addInfo (p : DiffPrinter) (key value : Bytes) : DiffPrinter :=
  match p.kind with
  | .multiline => p.append .info (key ++ str " : " ++ value ++ [nl])
  | _ => p.assign [key] (.string value)

/-- `addInfo` with a number of milliseconds. -/
def addInfoNum (p : DiffPrinter) (key : Bytes) (value : ℤ) : DiffPrinter :=
  match p.kind with
  | .multiline => p.append .info (key ++ str " : " ++ decimalInt value ++ [nl])
  | _ => p.assign [key] (.int value)

/-- One argument of the JSON record, from a token of the query string or of the body: without
`=` the token is both name and value. -/
def requestArg (token : Bytes) : Bytes × Bytes :=
  match find [61] token with
  | none => (toUpper token, token)
  | some pos => (toUpper (token.take pos), token.drop (pos + 1))

/-- Add the arguments of a text to the JSON record. -/
def addArgs (p : DiffPrinter) (params : Bytes) : DiffPrinter :=
  (params.splitOn 38).foldl (fun p token =>
    p.assign [str "request", str "args", (requestArg token).1] (.string (requestArg token).2)) p

/-- `addRequestUri`.  In JSON, a URI without `?` is taken whole for its parameters. -/
def addRequestUri (p : DiffPrinter) (uri paramsBody : Bytes) : DiffPrinter :=
  match p.kind with
  | .multiline => p.append .uri (uri ++ paramsBody ++ [nl])
  | _ =>
    let p := p.assign [str "request", str "uri"] (.string uri)
    let p := match find [63] uri with
      | none => (p.assign [str "request", str "url"] (.string uri)).addArgs uri
      | some pivot =>
        (p.assign [str "request", str "url"] (.string (uri.take pivot))).addArgs
          (uri.drop (pivot + 1))
    if paramsBody ≠ [] then p.addArgs paramsBody else p

/-- `addRequestBody`. -/
def addRequestBody (p : DiffPrinter) (body : Bytes) : DiffPrinter :=
  match p.kind with
  | .multiline => if body ≠ [] then p.append .body (body ++ [nl]) else p
  | _ => p.addInfo (str "ReqBody") body

/-- `addRequestHeader`. -/
def addRequestHeader (p : DiffPrinter) (key value : Bytes) : DiffPrinter :=
  match p.kind with
  | .multiline => p.append .header (key ++ str " : " ++ value ++ [nl])
  | _ => p.assign [str "request", str "header", toUpper key] (.string value)

/-- `addStatus`. -/
def addStatus (p : DiffPrinter) (service : Bytes) (statusCode : ℤ) : DiffPrinter :=
  match p.kind with
  | .multiline => p.append .status (str " " ++ service ++ str " " ++ decimalInt statusCode)
  | _ => p.assign [str "status", service] (.int statusCode)

/-- `addRuntime`. -/
def addRuntime (p : DiffPrinter) (service : Bytes) (milli : ℤ) : DiffPrinter :=
  match p.kind with
  | .multiline => p.append .runtime (str " " ++ service ++ str " " ++ decimalInt milli)
  | _ => p.assign [str "runtime", service] (.int milli)

/-- The name under which `addCassandraDiff` records a field: the first of the field name and
its numbered variants that is free. -/
def cassandraField (cassandra : Json) (fieldName : Bytes) : Bytes :=
  let candidates := fieldName ::
    (List.range cassandra.members.length).map fun i => fieldName ++ decimal (i + 1)
  (candidates.find? fun f => !cassandra.isMember f).getD fieldName

/-- `addCassandraDiff`. -/
def addCassandraDiff (p : DiffPrinter) (fieldName multiValue dbValue reqValue : Bytes) :
    DiffPrinter :=
  let p := { p with isADiff := true }
  match p.kind with
  | .multiline =>
    let text := (if p.hadPreviousCassDiff then str "-------------------\n" else []) ++
      str "Field name in the db : '" ++ fieldName ++ str "'\n" ++
      str "Multivalue/Collection index/key : '" ++ multiValue ++ str "'\n" ++
      str "Value retrieved in Database : '" ++ dbValue ++ str "'\n" ++
      str "Value about to be set from Request : '" ++ reqValue ++ str "'\n"
    { p.append .cassDiff text with hadPreviousCassDiff := true }
  | _ =>
    let lField := cassandraField (p.mJsonRes.atPath [str "diff", str "cassandra"]) fieldName
    let path := [str "diff", str "cassandra", lField]
    ((p.assign (path ++ [str "mulVal"]) (.string multiValue)).assign
      (path ++ [str "dbVal"]) (.string dbValue)).assign (path ++ [str "reqVal"]) (.string reqValue)

/-- `addHeaderDiff`. -/
def addHeaderDiff (p : DiffPrinter) (key : Bytes) (srcValue dstValue : Option Bytes) :
    DiffPrinter :=
  let p := { p with isADiff := true }
  match p.kind with
  | .multiline => p.append .headerDiff
      (key ++ str " ==> " ++ srcValue.getD [] ++ str "/" ++ dstValue.getD [] ++ [nl])
  | _ =>
    let set (p : DiffPrinter) (side : Bytes) (v : Option Bytes) : DiffPrinter := match v with
      | some v => p.assign [str "diff", str "header", key, side] (.string v)
      | none => p
    set (set p (str "src") srcValue) (str "dst") dstValue

/-- `JSONMAXSIZE`. -/
def jsonMaxSize : ℕ := 14000

/-- The first match of `<.*?>` or of `".*?"`: from the first opening character to the next
closing one. -/
def tagToIdentify (opening closing : UInt8) (line : Bytes) : Option Bytes :=
  (find [opening] line).bind fun first =>
    (find [closing] (line.drop (first + 1))).map fun n => (line.drop first).take (n + 2)

/-- `find(a) < find(b)`, where a character that is not there counts as infinitely far. -/
def findLt (a b : UInt8) (line : Bytes) : Bool :=
  match find [a] line, find [b] line with
  | some i, some j => i < j
  | some _, none => true
  | none, _ => false

/-- The tags of the added and of the deleted lines of a difference, line by line. -/
def diffTags (opening closing : UInt8) (diffLines : List Bytes) : List Bytes × List Bytes :=
  let tagged := diffLines.filterMap fun line =>
    (tagToIdentify opening closing line).map fun tag => (line, tag)
  let pos := tagged.filter fun e => findLt 43 opening e.1
  let neg := tagged.filter fun e => !findLt 43 opening e.1 && findLt 45 opening e.1
  (pos.map Prod.snd, neg.map Prod.snd)

/-- The counter and the set of tags of one sign. -/
def addTags (p : DiffPrinter) (counter list : Bytes) (tags : List Bytes) : DiffPrinter :=
  if tags ≠ [] then
    let sorted := ((OrdMap.empty : OrdMap Bytes Unit).setAll (tags.map fun t => (t, ()))).keys
    (p.assign [str "diff", str "body", counter] (.int tags.length)).assign
      [str "diff", str "body", list] (.array (sorted.map .string))
  else p

/-- `addFullDiff` with lines. -/
def addFullDiff (p : DiffPrinter) (diffLines : List Bytes) (truncSize : ℕ) (type : Bytes) :
    DiffPrinter :=
  match p.kind with
  | .multiline =>
    { p with isADiff := true }.append .bodyDiff (diffLines.flatMap fun l => l ++ [nl])
  | _ =>
    let (opening, closing) : UInt8 × UInt8 := if type = str "XML" then (60, 62) else (34, 34)
    let (posTags, negTags) := diffTags opening closing diffLines
    let p := p.addTags (str "posDiff") (str "posList") posTags
    let p := p.addTags (str "negDiff") (str "negList") negTags
    let fullDiff := [nl].intercalate diffLines
    -- too long for one field: shortened lines, or nothing but the tags
    if fullDiff.length ≥ jsonMaxSize then
      let p := { p with isADiff := true }
      let truncatedDiff := diffLines.flatMap fun l => l.take truncSize ++ [nl]
      if truncatedDiff.length < jsonMaxSize then
        p.assign [str "diff", str "body", str "full"] (.string truncatedDiff)
      else p
    else if fullDiff ≠ [] then
      { p with isADiff := true }.assign [str "diff", str "body", str "full"] (.string fullDiff)
    else p

/-- `addFullDiff` with a text, and the defaults of its other parameters. -/
def addFullDiffText (p : DiffPrinter) (diffLines : Bytes) : DiffPrinter :=
  match p.kind with
  | .multiline => { p with isADiff := true }.append .bodyDiff (diffLines ++ [nl])
  | _ => p.addFullDiff (splitCompress nl diffLines) 100 (str "XML")

/-- The text of a record of the multiline printer. -/
def multilineText (p : DiffPrinter) : Bytes :=
  (DiffPartitionning.order.flatMap fun part =>
    if p.streams part ≠ [] then
      part.partitionSeparator ++ part.prettyfyStartLine ++ p.streams part ++ part.prettyfyEndLine
    else []) ++ str "END DIFFERENCE : " ++ p.id ++ [nl]

/-- `retrieveDiff`: the flag, and the record appended to `res`. -/
def retrieveDiff (w : FastWriter) (p : DiffPrinter) (res : Bytes) : Bool × Bytes :=
  match p.kind with
  | .multiline => (p.isADiff, if p.isADiff then res ++ p.multilineText else res)
  | .json => (p.isADiff, res ++ w.write p.mJsonRes)
  | .utf8json =>
    match Utf8.replaceInvalid (res ++ w.write p.mJsonRes) with
    | none => (false, res ++ w.write p.mJsonRes)
    | some temp => (p.isADiff, temp)

theorem foldl_keeps {α β : Type} (g : DiffPrinter → β) {f : DiffPrinter → α → DiffPrinter}
    (l : List α) (hf : ∀ p a, g (f p a) = g p) (p : DiffPrinter) : g (l.foldl f p) = g p := by
  induction l generalizing p with
  | nil => rfl
  | cons a l ih => rw [List.foldl_cons, ih, hf]

/-! ### The flag -/

@[simp] theorem isADiff_append (p : DiffPrinter) (part : DiffPartitionning) (t : Bytes) :
    (p.append part t).isADiff = p.isADiff := rfl

@[simp] theorem isADiff_assign (p : DiffPrinter) (path : List Bytes) (v : Json) :
    (p.assign path v).isADiff = p.isADiff := rfl

@[simp] theorem isADiff_createDiffPrinter (id : Bytes) (type : DiffTypeAvailable) :
    (createDiffPrinter id type).isADiff = false := by
  cases type <;> rfl

@[simp] theorem isADiff_addInfo (p : DiffPrinter) (key value : Bytes) :
    (p.addInfo key value).isADiff = p.isADiff := by
  unfold addInfo
  split <;> rfl

@[simp] theorem isADiff_addInfoNum (p : DiffPrinter) (key : Bytes) (value : ℤ) :
    (p.addInfoNum key value).isADiff = p.isADiff := by
  unfold addInfoNum
  split <;> rfl

@[simp] theorem isADiff_addArgs (p : DiffPrinter) (params : Bytes) :
    (p.addArgs params).isADiff = p.isADiff :=
  foldl_keeps isADiff _ (fun p _ => isADiff_assign p _ _) p

@[simp] theorem isADiff_addRequestUri (p : DiffPrinter) (uri paramsBody : Bytes) :
    (p.addRequestUri uri paramsBody).isADiff = p.isADiff := by
  unfold addRequestUri
  split
  · rfl
  · cases find [63] uri <;> dsimp only <;> split_ifs <;> simp

@[simp] theorem isADiff_addRequestBody (p : DiffPrinter) (body : Bytes) :
    (p.addRequestBody body).isADiff = p.isADiff := by
  unfold addRequestBody
  split
  · split_ifs <;> rfl
  · exact isADiff_addInfo _ _ _

@[simp] theorem isADiff_addRequestHeader (p : DiffPrinter) (key value : Bytes) :
    (p.addRequestHeader key value).isADiff = p.isADiff := by
  unfold addRequestHeader
  split <;> rfl

@[simp] theorem isADiff_addStatus (p : DiffPrinter) (service : Bytes) (statusCode : ℤ) :
    (p.addStatus service statusCode).isADiff = p.isADiff := by
  unfold addStatus
  split <;> rfl

@[simp] theorem isADiff_addRuntime (p : DiffPrinter) (service : Bytes) (milli : ℤ) :
    (p.addRuntime service milli).isADiff = p.isADiff := by
  unfold addRuntime
  split <;> rfl

@[simp] theorem isADiff_addCassandraDiff (p : DiffPrinter) (f m d r : Bytes) :
    (p.addCassandraDiff f m d r).isADiff = true := by
  unfold addCassandraDiff
  dsimp only
  split <;> rfl

@[simp] theorem isADiff_addHeaderDiff (p : DiffPrinter) (key : Bytes) (s d : Option Bytes) :
    (p.addHeaderDiff key s d).isADiff = true := by
  unfold addHeaderDiff
  dsimp only
  split
  · rfl
  · cases s <;> cases d <;> rfl

theorem intercalate_splitCompress_ne_nil {t : Bytes} (h : t ≠ []) :
    [nl].intercalate (splitCompress nl t) ≠ [] := by
  have ht : [nl].intercalate (t.splitOn nl) = t := List.intercalate_splitOn nl
  unfold splitCompress
  match hs : t.splitOn nl with
  | [] => exact absurd hs (List.splitOn_ne_nil nl t)
  | [p] =>
    rw [hs] at ht
    simpa [← ht] using h
  | p :: q :: ps =>
    obtain ⟨a, l, hal⟩ := List.exists_cons_of_ne_nil
      (List.append_ne_nil_of_right_ne_nil ((q :: ps).dropLast.filter (· ≠ []))
        (List.cons_ne_nil ((q :: ps).getLastD []) []))
    simp only [hal, List.intercalate_cons_cons]
    simp

/-- A body difference that is not empty is a difference, for the three printers. -/
theorem isADiff_addFullDiffText (p : DiffPrinter) {t : Bytes} (h : t ≠ []) :
    (p.addFullDiffText t).isADiff = true := by
  have hne := intercalate_splitCompress_ne_nil h
  unfold addFullDiffText addFullDiff
  cases hk : p.kind with
  | multiline => rfl
  | json => simp only; split_ifs <;> rfl
  | utf8json => simp only; split_ifs <;> rfl

/-- The replacement of invalid UTF-8 cannot fail on a document that ends with a line feed. -/
theorem replaceInvalid_record_isSome (w : FastWriter) (p : DiffPrinter) (res : Bytes) :
    (Utf8.replaceInvalid (res ++ w.write p.mJsonRes)).isSome := by
  refine Utf8.replaceInvalid_isSome_of_getLast fun c hc => ?_
  rw [List.getLast?_append, w.ends_newline] at hc
  obtain rfl : nl = c := by simpa using hc
  decide

/-- **The flag of a printer is the flag it returns**, for the three printers. -/
theorem retrieveDiff_fst (w : FastWriter) (p : DiffPrinter) (res : Bytes) :
    (p.retrieveDiff w res).1 = p.isADiff := by
  unfold retrieveDiff
  cases p.kind with
  | multiline => rfl
  | json => rfl
  | utf8json =>
    obtain ⟨temp, htemp⟩ := Option.isSome_iff_exists.1 (replaceInvalid_record_isSome w p res)
    simp [htemp]

/-! ### The kind -/

@[simp] theorem kind_append (p : DiffPrinter) (part : DiffPartitionning) (t : Bytes) :
    (p.append part t).kind = p.kind := rfl

@[simp] theorem kind_assign (p : DiffPrinter) (path : List Bytes) (v : Json) :
    (p.assign path v).kind = p.kind := rfl

@[simp] theorem kind_createDiffPrinter (id : Bytes) (type : DiffTypeAvailable) :
    (createDiffPrinter id type).kind = type := by
  cases type <;> rfl

@[simp] theorem kind_addInfo (p : DiffPrinter) (key value : Bytes) :
    (p.addInfo key value).kind = p.kind := by
  unfold addInfo
  split <;> rfl

@[simp] theorem kind_addInfoNum (p : DiffPrinter) (key : Bytes) (value : ℤ) :
    (p.addInfoNum key value).kind = p.kind := by
  unfold addInfoNum
  split <;> rfl

@[simp] theorem kind_addArgs (p : DiffPrinter) (params : Bytes) :
    (p.addArgs params).kind = p.kind :=
  foldl_keeps kind _ (fun p _ => kind_assign p _ _) p

@[simp] theorem kind_addRequestUri (p : DiffPrinter) (uri paramsBody : Bytes) :
    (p.addRequestUri uri paramsBody).kind = p.kind := by
  unfold addRequestUri
  split
  · rfl
  · cases find [63] uri <;> dsimp only <;> split_ifs <;> simp

@[simp] theorem kind_addRequestBody (p : DiffPrinter) (body : Bytes) :
    (p.addRequestBody body).kind = p.kind := by
  unfold addRequestBody
  split
  · split_ifs <;> rfl
  · exact kind_addInfo _ _ _

@[simp] theorem kind_addRequestHeader (p : DiffPrinter) (key value : Bytes) :
    (p.addRequestHeader key value).kind = p.kind := by
  unfold addRequestHeader
  split <;> rfl

@[simp] theorem kind_addStatus (p : DiffPrinter) (service : Bytes) (statusCode : ℤ) :
    (p.addStatus service statusCode).kind = p.kind := by
  unfold addStatus
  split <;> rfl

@[simp] theorem kind_addRuntime (p : DiffPrinter) (service : Bytes) (milli : ℤ) :
    (p.addRuntime service milli).kind = p.kind := by
  unfold addRuntime
  split <;> rfl

@[simp] theorem kind_addCassandraDiff (p : DiffPrinter) (f m d r : Bytes) :
    (p.addCassandraDiff f m d r).kind = p.kind := by
  unfold addCassandraDiff
  dsimp only
  split <;> rfl

@[simp] theorem kind_addHeaderDiff (p : DiffPrinter) (key : Bytes) (s d : Option Bytes) :
    (p.addHeaderDiff key s d).kind = p.kind := by
  unfold addHeaderDiff
  dsimp only
  split
  · rfl
  · cases s <;> cases d <;> rfl

theorem kind_addTags (p : DiffPrinter) (counter list : Bytes) (tags : List Bytes) :
    (p.addTags counter list tags).kind = p.kind := by
  unfold addTags
  split_ifs <;> rfl

theorem kind_addFullDiff (p : DiffPrinter) (diffLines : List Bytes) (truncSize : ℕ)
    (type : Bytes) : (p.addFullDiff diffLines truncSize type).kind = p.kind := by
  unfold addFullDiff
  cases hk : p.kind with
  | multiline => simp
  | json => simp only; split_ifs <;> simp [kind_addTags, hk]
  | utf8json => simp only; split_ifs <;> simp [kind_addTags, hk]

@[simp] theorem kind_addFullDiffText (p : DiffPrinter) (t : Bytes) :
    (p.addFullDiffText t).kind = p.kind := by
  unfold addFullDiffText
  split
  · rfl
  · exact kind_addFullDiff p _ _ _

/-- The record of the multiline printer is not made of line feeds only. -/
theorem exists_mem_retrieveDiff_multiline (w : FastWriter) {p : DiffPrinter}
    (hk : p.kind = .multiline) (hdiff : p.isADiff = true) (res : Bytes) :
    ∃ c ∈ (p.retrieveDiff w res).2, c ≠ nl := by
  refine ⟨69, ?_, by decide⟩
  simp only [retrieveDiff, hk, hdiff, ↓reduceIte, multilineText, List.mem_append]
  exact .inr (.inl (.inl (.inr (by decide))))

end DiffPrinter

end ModDup
