import ModDup.Compare.Printer

/-!
# The UTF8JSON record

`utf8JsonDiffPrinter` is the JSON printer with another `retrieveDiff`: the text is passed through
`utf8::replace_invalid`, and an exception there turns the flag to false
(`src/libws_diff/DiffPrinter/utf8JsonDiffPrinter.cc`).  Here both printers take the same calls, in
any order and with any bytes.

## Main definitions

* `AddCall` : a call of one of the `add` methods.
* `DiffPrinter.asJson` : the plain JSON printer with the same content.

## Main results

* `DiffPrinter.asJson_run` : the two printers hold the same content after the same calls.
* `utf8_record_valid` : the UTF8JSON record is never dropped, always valid, and the JSON record
  itself where that is valid.
-/

namespace ModDup

open Bytes

/-- A call of one of the `add` methods. -/
inductive AddCall where
  | info (key value : Bytes)
  | infoNum (key : Bytes) (value : ℤ)
  | requestUri (uri paramsBody : Bytes)
  | requestBody (body : Bytes)
  | requestHeader (key value : Bytes)
  | status (service : Bytes) (statusCode : ℤ)
  | runtime (service : Bytes) (milli : ℤ)
  | cassandraDiff (fieldName multiValue dbValue reqValue : Bytes)
  | headerDiff (key : Bytes) (srcValue dstValue : Option Bytes)
  | fullDiff (diffLines : List Bytes) (truncSize : ℕ) (type : Bytes)
  | fullDiffText (diffLines : Bytes)

namespace DiffPrinter

/-- The printer after a call. -/
def call (p : DiffPrinter) : AddCall → DiffPrinter
  | .info key value => p.addInfo key value
  | .infoNum key value => p.addInfoNum key value
  | .requestUri uri paramsBody => p.addRequestUri uri paramsBody
  | .requestBody body => p.addRequestBody body
  | .requestHeader key value => p.addRequestHeader key value
  | .status service statusCode => p.addStatus service statusCode
  | .runtime service milli => p.addRuntime service milli
  | .cassandraDiff fieldName multiValue dbValue reqValue =>
    p.addCassandraDiff fieldName multiValue dbValue reqValue
  | .headerDiff key srcValue dstValue => p.addHeaderDiff key srcValue dstValue
  | .fullDiff diffLines truncSize type => p.addFullDiff diffLines truncSize type
  | .fullDiffText diffLines => p.addFullDiffText diffLines

/-- The printer after a sequence of calls. -/
def run (p : DiffPrinter) (calls : List AddCall) : DiffPrinter := calls.foldl call p

/-! ### Two printers, one content -/

/-- The plain JSON printer with the same content. -/
def asJson (p : DiffPrinter) : DiffPrinter := { p with kind := .json }

@[simp] theorem asJson_kind (p : DiffPrinter) : p.asJson.kind = .json := rfl

@[simp] theorem asJson_assign (p : DiffPrinter) (path : List Bytes) (v : Json) :
    (p.assign path v).asJson = p.asJson.assign path v := by
  cases p
  rfl

@[simp] theorem asJson_addArgs (p : DiffPrinter) (params : Bytes) :
    (p.addArgs params).asJson = p.asJson.addArgs params := by
  unfold addArgs
  induction params.splitOn 38 generalizing p with
  | nil => rfl
  | cons token tokens ih => exact ih _

theorem asJson_addRequestUri {p : DiffPrinter} (hk : p.kind = .utf8json) (uri paramsBody : Bytes) :
    (p.addRequestUri uri paramsBody).asJson = p.asJson.addRequestUri uri paramsBody := by
  unfold addRequestUri
  rw [hk, asJson_kind]
  cases find [63] uri <;> dsimp only <;> split_ifs <;> simp only [asJson_addArgs, asJson_assign]

theorem asJson_addTags (p : DiffPrinter) (counter list : Bytes) (tags : List Bytes) :
    (p.addTags counter list tags).asJson = p.asJson.addTags counter list tags := by
  unfold addTags
  split_ifs <;> rfl

theorem asJson_addHeaderDiff {p : DiffPrinter} (hk : p.kind = .utf8json) (key : Bytes)
    (srcValue dstValue : Option Bytes) :
    (p.addHeaderDiff key srcValue dstValue).asJson =
      p.asJson.addHeaderDiff key srcValue dstValue := by
  unfold addHeaderDiff
  cases srcValue <;> cases dstValue <;> simp only [hk] <;> rfl

theorem asJson_addFullDiff {p : DiffPrinter} (hk : p.kind = .utf8json) (diffLines : List Bytes)
    (truncSize : ℕ) (type : Bytes) :
    (p.addFullDiff diffLines truncSize type).asJson =
      p.asJson.addFullDiff diffLines truncSize type := by
  unfold addFullDiff
  simp only [hk, asJson_kind, ← asJson_addTags]
  split_ifs <;> rfl

/-- A call does the same to both printers. -/
theorem asJson_call {p : DiffPrinter} (hk : p.kind = .utf8json) (c : AddCall) :
    (p.call c).asJson = p.asJson.call c := by
  cases c with
  | requestUri uri paramsBody => exact asJson_addRequestUri hk uri paramsBody
  | headerDiff key srcValue dstValue => exact asJson_addHeaderDiff hk key srcValue dstValue
  | fullDiff diffLines truncSize type => exact asJson_addFullDiff hk diffLines truncSize type
  | fullDiffText diffLines =>
    simp only [call, addFullDiffText, hk, asJson_kind]
    exact asJson_addFullDiff hk _ _ _
  | info key value => simp only [call, addInfo, hk]; rfl
  | infoNum key value => simp only [call, addInfoNum, hk]; rfl
  | requestBody body => simp only [call, addRequestBody, addInfo, hk]; rfl
  | requestHeader key value => simp only [call, addRequestHeader, hk]; rfl
  | status service statusCode => simp only [call, addStatus, hk]; rfl
  | runtime service milli => simp only [call, addRuntime, hk]; rfl
  | cassandraDiff fieldName multiValue dbValue reqValue =>
    simp only [call, addCassandraDiff, hk]
    rfl

theorem kind_call (p : DiffPrinter) (c : AddCall) : (p.call c).kind = p.kind := by
  cases c with
  | fullDiff diffLines truncSize type => exact kind_addFullDiff p diffLines truncSize type
  | _ => simp [call]

/-- **The same calls leave the same content** in the two printers. -/
theorem asJson_run {p : DiffPrinter} (hk : p.kind = .utf8json) (calls : List AddCall) :
    (p.run calls).asJson = p.asJson.run calls := by
  induction calls generalizing p with
  | nil => rfl
  | cons c calls ih =>
    have hstep := asJson_call hk c
    rw [run, run, List.foldl_cons, List.foldl_cons, ← hstep]
    exact ih ((kind_call p c).trans hk)

theorem kind_run (p : DiffPrinter) (calls : List AddCall) : (p.run calls).kind = p.kind :=
  foldl_keeps kind calls kind_call p

end DiffPrinter

open DiffPrinter

/-- **A UTF8JSON record is valid and is not dropped.**  Whatever the printer was given, no
exception is thrown, the flag is that of the JSON printer, the text is valid UTF-8, and it is the
JSON text if that is valid already. -/
theorem utf8_record_valid (w : FastWriter) (id : Bytes) (calls : List AddCall) :
    let p := (createDiffPrinter id .utf8json).run calls
    let q := (createDiffPrinter id .json).run calls
    (Utf8.replaceInvalid ([] ++ w.write p.mJsonRes)).isSome ∧
      (p.retrieveDiff w []).1 = (q.retrieveDiff w []).1 ∧
      Utf8.isValid (p.retrieveDiff w []).2 = true ∧
      (Utf8.isValid (q.retrieveDiff w []).2 = true →
        (p.retrieveDiff w []).2 = (q.retrieveDiff w []).2) := by
  intro p q
  have hp : p.kind = .utf8json := kind_run _ _
  have hq : q.kind = .json := kind_run _ _
  have hpq : p.asJson = q := asJson_run rfl calls
  have hjson : p.asJson.mJsonRes = q.mJsonRes := congrArg mJsonRes hpq
  have hflag : p.asJson.isADiff = q.isADiff := congrArg isADiff hpq
  have hsome := replaceInvalid_record_isSome w p []
  obtain ⟨temp, htemp⟩ := Option.isSome_iff_exists.1 hsome
  have hrec : p.retrieveDiff w [] = (p.isADiff, temp) := by
    simp only [retrieveDiff, hp, htemp]
  have hrec' : q.retrieveDiff w [] = (q.isADiff, [] ++ w.write q.mJsonRes) := by
    simp only [retrieveDiff, hq]
  refine ⟨hsome, ?_, ?_, fun hvalid => ?_⟩
  · rw [hrec, hrec']
    exact hflag
  · rw [hrec]
    exact Utf8.isValid_of_replaceInvalid htemp
  · rw [hrec', ← hjson] at hvalid
    have hsame := Utf8.replaceInvalid_of_isValid hvalid
    rw [hrec, hrec', ← hjson]
    exact Option.some.inj (htemp.symm.trans hsame)

end ModDup
