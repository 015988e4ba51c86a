import ModDup.Compare.Filters
import ModDup.Lib.Scan

/-!
# The analysis tool and the difference records

`tools/cmpdiffx` goes through a log of multiline difference records and looks for the line with the
times of the two requests, by a regular expression of its own.  The line itself is written by
`writeDifferences` (`src/response_diff.cc`) and the multiline printer, which put the difference
first; the expression has it last.

## Main definitions

* `respTime`, `respTimeDiff` : the two rules of the tool.
* `runtimeLine`, `recordHead` : the times in a record, and what comes before them.

## Main results

* `search_runtimeLine` : the tool does not find the times in their line.
* `record_shape` : where the line is in a record.
* `cmpdiffx_reads_iff` : when the tool answers as if it had.
-/

namespace ModDup

open Bytes Scan

/-! ### The tool -/

/-- A number, `[0-9]+`. -/
def digitsRegex : Scan UInt8 ℤ := do
  let ds ← many1 fun c => 48 ≤ c && c ≤ 57
  return (ofDecimal 0 ds).getD 0

/-- A number with a sign, `-?[0-9]+`. -/
def signedRegex : Scan UInt8 ℤ :=
  (do char 45; let n ← digitsRegex; return -n) <|> digitsRegex

/-- What `m` matches, or `N/A`; the alternatives start with different characters. -/
def orNA (m : Scan UInt8 ℤ) : Scan UInt8 (Option ℤ) :=
  (do let n ← m; return some n) <|> (do lit (str "N/A"); return none)

/-- The expression of `respTime`, with its two groups.  After the digits comes a character that is
no digit, so there is one way to match. -/
def respTimeRegex : Scan UInt8 (Option ℤ × ℤ) := do
  lit (str "Elapsed time for requests (ms): DUP ")
  let valueDUP ← orNA digitsRegex
  lit (str " COMP ")
  let valueCOMP ← digitsRegex
  lit (str " DIFF")
  return (valueDUP, valueCOMP)

/-- The expression of `respTimeDiff`: the same, and the difference after it. -/
def respTimeDiffRegex : Scan UInt8 (Option ℤ) := do
  let _ ← respTimeRegex
  lit (str " ")
  orNA signedRegex

/-- `respTime`. -/
def respTime (block : Bytes) (value : ℤ) (infOrSup : Bool) : Bool :=
  match search respTimeRegex block with
  | none => false
  | some (none, _) => false
  | some (some valueDUP, valueCOMP) =>
    if infOrSup then valueDUP > value || valueCOMP > value
    else valueDUP < value && valueCOMP < value

/-- `respTimeDiff`. -/
def respTimeDiff (block : Bytes) (value : ℤ) (infOrSup : Bool) : Bool :=
  match search respTimeDiffRegex block with
  | none => false
  | some none => false
  | some (some valueDIFF) => if infOrSup then |valueDIFF| > value else |valueDIFF| < value

/-- The two rules answer for the times `d` and `c`. -/
def ReadsTimes (block : Bytes) (d c v : ℤ) (sup : Bool) : Prop :=
  respTime block v sup = (if sup then decide (d > v ∨ c > v) else decide (d < v ∧ c < v)) ∧
    respTimeDiff block v sup = (if sup then decide (|d - c| > v) else decide (|d - c| < v))

instance (block : Bytes) (d c v : ℤ) (sup : Bool) : Decidable (ReadsTimes block d c v sup) :=
  inferInstanceAs (Decidable (_ ∧ _))

/-! ### The expressions and the lines -/

theorem local_digitsRegex : Local nl digitsRegex :=
  (Local.many1 (by decide)).bind fun _ => Local.pure nl _

theorem local_orNA {m : Scan UInt8 ℤ} (h : Local nl m) : Local nl (orNA m) :=
  Local.orElse (h.bind fun _ => Local.pure nl _)
    ((Local.lit (by decide)).bind fun _ => Local.pure nl _)

/-- Neither expression matches over a line feed. -/
theorem local_respTimeRegex : Local nl respTimeRegex := by
  refine (Local.lit (by decide)).bind fun _ => (local_orNA local_digitsRegex).bind fun _ => ?_
  refine (Local.lit (by decide)).bind fun _ => local_digitsRegex.bind fun _ => ?_
  exact (Local.lit (by decide)).bind fun _ => Local.pure nl _

theorem local_respTimeDiffRegex : Local nl respTimeDiffRegex := by
  have hsigned : Local nl signedRegex :=
    Local.orElse ((Local.char (by decide)).bind fun _ =>
      local_digitsRegex.bind fun _ => Local.pure nl _) local_digitsRegex
  exact local_respTimeRegex.bind fun _ => (Local.lit (by decide)).bind fun _ => local_orNA hsigned

/-- The line with the times, as it is written. -/
def runtimeLine (d c : ℤ) : Bytes :=
  str "Elapsed time for requests (ms):" ++ str " DIFF " ++ decimalInt (d - c) ++ str " DUP " ++
    decimalInt d ++ str " COMP " ++ decimalInt c

theorem not_mem_decimalInt {c : UInt8} (hc : c ≠ 45) (hdigit : ¬ (48 ≤ c ∧ c ≤ 57)) (i : ℤ) :
    c ∉ decimalInt i := by
  unfold decimalInt
  split_ifs
  · rw [List.mem_cons, not_or]
    exact ⟨hc, fun h => hdigit (digit_of_mem_decimal h)⟩
  · exact fun h => hdigit (digit_of_mem_decimal h)

/-- **The tool does not find the times in their line**: it looks for `DUP` where `DIFF` is, and the
text it looks for starts nowhere else. -/
theorem search_runtimeLine (d c : ℤ) : search respTimeRegex (runtimeLine d c) = none := by
  set label := str "lapsed time for requests (ms):" with hlabel
  set times := str " DIFF " ++ decimalInt (d - c) ++ str " DUP " ++ decimalInt d ++
    str " COMP " ++ decimalInt c with htimes
  have hneedle : str "Elapsed time for requests (ms): DUP " = 69 :: (label ++ str " DUP ") := by
    decide
  have hline : runtimeLine d c = 69 :: (label ++ times) := by
    have hstart : str "Elapsed time for requests (ms):" = 69 :: label := by decide
    simp only [runtimeLine, hstart, htimes, List.append_assoc, List.cons_append]
  have hprefix : ¬ 69 :: (label ++ str " DUP ") <+: 69 :: (label ++ times) := by
    have hdup : str " DUP " = [32, 68, 85, 80, 32] := by decide
    have hdiff : str " DIFF " = [32, 68, 73, 70, 70, 32] := by decide
    rw [List.cons_prefix_cons, List.prefix_append_right_inj, htimes, hdup, hdiff]
    simp
  have hnumber : ∀ i, 69 ∉ decimalInt i := not_mem_decimalInt (by decide) (by decide)
  have hno : 69 ∉ label ++ times := by
    simp only [htimes, List.mem_append, not_or]
    exact ⟨by decide, ⟨⟨⟨⟨by decide, hnumber _⟩, by decide⟩, hnumber _⟩, by decide⟩, hnumber _⟩
  unfold respTimeRegex
  rw [hneedle, hline]
  refine search_bind_eq_none ?_ _
  rw [search, lit_eq_none hprefix, search_lit_eq_none hno]
  rfl

/-- The line with the times could be taken out, and nothing would be found elsewhere. -/
theorem search_record {β : Type} {m : Scan UInt8 β} (hm : Local nl m) (hnil : m [] = none)
    {line : Bytes} (hline : search m line = none) (head rest : Bytes) :
    search m (head ++ nl :: (line ++ nl :: rest)) = search m (head ++ nl :: rest) := by
  rw [search_append_cons hm hnil, search_append_cons hm hnil, search_append_cons hm hnil, hline]
  rfl

/-! ### What the printer holds -/

namespace DiffPrinter

/-- The parts with which a record starts. -/
def head (p : DiffPrinter) : DiffTypeAvailable × Bytes × Bytes × Bytes × Bytes :=
  (p.kind, p.id, p.streams .begin, p.streams .info, p.streams .runtime)

@[simp] theorem head_assign (p : DiffPrinter) (path : List Bytes) (v : Json) :
    (p.assign path v).head = p.head := rfl

@[simp] theorem head_addArgs (p : DiffPrinter) (params : Bytes) :
    (p.addArgs params).head = p.head :=
  foldl_keeps head _ (fun p _ => head_assign p _ _) p

@[simp] theorem head_addRequestUri (p : DiffPrinter) (uri paramsBody : Bytes) :
    (p.addRequestUri uri paramsBody).head = p.head := by
  unfold addRequestUri
  split
  · rfl
  · cases find [63] uri <;> dsimp only <;> split_ifs <;> simp

@[simp] theorem head_addRequestBody {p : DiffPrinter} (hp : p.kind = .multiline) (body : Bytes) :
    (p.addRequestBody body).head = p.head := by
  unfold addRequestBody
  rw [hp]
  dsimp only
  split_ifs <;> rfl

@[simp] theorem head_addRequestHeader (p : DiffPrinter) (key value : Bytes) :
    (p.addRequestHeader key value).head = p.head := by
  unfold addRequestHeader
  split <;> rfl

@[simp] theorem head_addStatus (p : DiffPrinter) (service : Bytes) (statusCode : ℤ) :
    (p.addStatus service statusCode).head = p.head := by
  unfold addStatus
  split <;> rfl

@[simp] theorem head_addCassandraDiff (p : DiffPrinter) (f m d r : Bytes) :
    (p.addCassandraDiff f m d r).head = p.head := by
  unfold addCassandraDiff
  dsimp only
  split <;> rfl

@[simp] theorem head_addHeaderDiff (p : DiffPrinter) (key : Bytes) (s d : Option Bytes) :
    (p.addHeaderDiff key s d).head = p.head := by
  unfold addHeaderDiff
  dsimp only
  split
  · rfl
  · cases s <;> cases d <;> rfl

@[simp] theorem head_addFullDiffText {p : DiffPrinter} (hp : p.kind = .multiline) (t : Bytes) :
    (p.addFullDiffText t).head = p.head := by
  unfold addFullDiffText
  split
  · rfl
  · contradiction

section Multiline

variable {p : DiffPrinter} {id begin info runtime : Bytes}

theorem head_addRuntime (h : p.head = (.multiline, id, begin, info, runtime)) (service : Bytes)
    (milli : ℤ) : (p.addRuntime service milli).head = (.multiline, id, begin, info,
      runtime ++ (str " " ++ service ++ str " " ++ decimalInt milli)) := by
  simp only [head, Prod.mk.injEq] at h
  obtain ⟨hkind, rfl, rfl, rfl, rfl⟩ := h
  unfold addRuntime
  rw [hkind]
  simp [head, append, hkind]

theorem head_addInfo (h : p.head = (.multiline, id, begin, info, runtime)) (key value : Bytes) :
    (p.addInfo key value).head = (.multiline, id, begin,
      info ++ (key ++ str " : " ++ value ++ [nl]), runtime) := by
  simp only [head, Prod.mk.injEq] at h
  obtain ⟨hkind, rfl, rfl, rfl, rfl⟩ := h
  unfold addInfo
  rw [hkind]
  simp [head, append, hkind]

theorem addInfoNum_multiline (hp : p.kind = .multiline) (key : Bytes) (value : ℤ) :
    p.addInfoNum key value = p.addInfo key (decimalInt value) := by
  unfold addInfoNum addInfo
  rw [hp]

end Multiline

/-- What comes after the line with the times. -/
def tailText (p : DiffPrinter) : Bytes :=
  ((DiffPartitionning.order.drop 3).flatMap fun part =>
    if p.streams part ≠ [] then
      part.partitionSeparator ++ part.prettyfyStartLine ++ p.streams part ++ part.prettyfyEndLine
    else []) ++ str "END DIFFERENCE : " ++ p.id ++ [nl]

theorem multilineText_eq {p : DiffPrinter} (hruntime : p.streams .runtime ≠ []) :
    p.multilineText = p.streams .begin ++ p.streams .info ++
      (str "Elapsed time for requests (ms):" ++ p.streams .runtime ++ [nl]) ++ p.tailText := by
  have hpart : ∀ part : DiffPartitionning, part.partitionSeparator = [] →
      part.prettyfyStartLine = [] → part.prettyfyEndLine = [] →
      (if p.streams part ≠ [] then part.partitionSeparator ++ part.prettyfyStartLine ++
        p.streams part ++ part.prettyfyEndLine else []) = p.streams part := by
    intro part h₁ h₂ h₃
    rw [h₁, h₂, h₃]
    split_ifs with h
    · simp
    · exact (not_not.1 h).symm
  have horder : DiffPartitionning.order =
      .begin :: .info :: .runtime :: DiffPartitionning.order.drop 3 := rfl
  unfold multilineText
  rw [horder, List.flatMap_cons, List.flatMap_cons, List.flatMap_cons, hpart .begin rfl rfl rfl,
    hpart .info rfl rfl rfl, if_pos hruntime]
  simp only [tailText, DiffPartitionning.partitionSeparator, DiffPartitionning.prettyfyStartLine,
    DiffPartitionning.prettyfyEndLine, List.append_assoc, List.nil_append]

end DiffPrinter

/-! ### The record -/

section Record

variable {env : CompareEnv} {conf : CompareConf} {w : World} {r : RequestInfo} {p : DiffPrinter}

/-- The printer when `writeDifferences` asks it for the record, with what the table had. -/
def completePrinter (env : CompareEnv) (w : World) (r : RequestInfo) (printer : DiffPrinter) :
    Option (Bool × DiffPrinter × World) :=
  let printer := if env.comparisonTime > 0 then
    printer.addInfoNum (str "ElapsedTime") env.comparisonTime else printer
  (addRuntimes r env.today printer).map fun printer =>
    writeCassandraDiff w r.mId (addRequest r printer)

/-- The record `writeDifferences` writes, to the file or to the syslog. -/
def writtenRecord (env : CompareEnv) (w : World) (r : RequestInfo) (printer : DiffPrinter) :
    Option Bytes :=
  (completePrinter env w r printer).bind fun (cassDiff, printer, _) =>
    let (diff, res) := printer.retrieveDiff env.writer []
    if !cassDiff && !diff then none else some res

theorem writeDifferences_eq_record (env : CompareEnv) (w : World) (r : RequestInfo)
    (p : DiffPrinter) :
    (writeDifferences env w r p).2 =
      match completePrinter env w r p with
      | none => w
      | some (_, p', w') =>
        match writtenRecord env w r p with
        | none => w'
        | some res => writeRecord w' p'.kind res := by
  unfold writeDifferences writtenRecord completePrinter
  dsimp only
  cases addRuntimes r env.today (if env.comparisonTime > 0 then
    p.addInfoNum (str "ElapsedTime") env.comparisonTime else p) with
  | none => rfl
  | some p₁ =>
    simp only [Option.map_some, Option.bind_some]
    split_ifs <;> rfl

/-- A multiline printer as the filter hands it over: it was created, and differences were added. -/
structure HandedOver (p : DiffPrinter) : Prop where
  kind : p.kind = .multiline
  begin : p.streams .begin = str "BEGIN NEW REQUEST DIFFERENCE n: " ++ p.id ++ [nl]
  info : p.streams .info = []
  runtime : p.streams .runtime = []

theorem handedOver_of_head {p p' : DiffPrinter} (h : p'.head = p.head) (hp : HandedOver p) :
    HandedOver p' := by
  simp only [DiffPrinter.head, Prod.mk.injEq] at h
  obtain ⟨hkind, hid, hbegin, hinfo, hruntime⟩ := h
  refine ⟨hkind.trans hp.kind, ?_, hinfo.trans hp.info, hruntime.trans hp.runtime⟩
  rw [hbegin, hid]
  exact hp.begin

theorem handedOver_createDiffPrinter (id : Bytes) :
    HandedOver (.createDiffPrinter id .multiline) := by
  refine ⟨rfl, ?_, rfl, rfl⟩
  simp only [DiffPrinter.createDiffPrinter, DiffPrinter.append, Function.update_self,
    List.nil_append]

theorem head_mapCompare (c : MapCompare) (src dst : MapStr) (p : DiffPrinter) :
    (c.retrieveDiff src dst p).2.head = p.head := by
  unfold MapCompare.retrieveDiff
  cases c.diffs? src dst with
  | none => rfl
  | some ds =>
    exact DiffPrinter.foldl_keeps DiffPrinter.head ds
      (fun p d => p.head_addHeaderDiff d.1 d.2.1 d.2.2) p

theorem head_stringCompareBody (dtl : Dtl) (c : StringCompareBody) (src dst : Bytes)
    (hp : p.kind = .multiline) : (c.retrieveDiff dtl src dst p).2.head = p.head := by
  simp only [StringCompareBody.retrieveDiff]
  split_ifs
  · exact DiffPrinter.head_addFullDiffText hp _
  · rfl

theorem handedOver_compareResponses (env : CompareEnv) (r : RequestInfo)
    (hconf : conf.mLogType = .multiline) : HandedOver (compareResponses env conf r).2.2 := by
  have hcreated := handedOver_createDiffPrinter r.mId
  rw [← hconf] at hcreated
  have hheaders := handedOver_of_head
    (head_mapCompare conf.mCompHeader r.mResponseHeader r.mDupResponseHeader _) hcreated
  exact handedOver_of_head (head_stringCompareBody env.dtl conf.mCompBody r.mResponseBody
    r.mDupResponseBody hheaders.kind) hheaders

/-- What comes before the times in a record. -/
def recordHead (env : CompareEnv) (p : DiffPrinter) : Bytes :=
  str "BEGIN NEW REQUEST DIFFERENCE n: " ++ p.id ++ [nl] ++
    (if env.comparisonTime > 0 then
      str "ElapsedTime : " ++ decimalInt env.comparisonTime ++ [nl] else []) ++
    str "Date : " ++ env.today ++ [nl]

theorem head_addRequest (r : RequestInfo) (hp : p.kind = .multiline) :
    (addRequest r p).head = p.head := by
  have hheaders : ∀ (l : KeyValList) (p : DiffPrinter),
      (l.foldl (fun p e => p.addRequestHeader e.1 e.2) p).head = p.head :=
    fun l => DiffPrinter.foldl_keeps DiffPrinter.head l fun p e =>
      DiffPrinter.head_addRequestHeader p e.1 e.2
  unfold addRequest
  simp only [DiffPrinter.head_addStatus, hheaders]
  split_ifs
  · simp
  · rw [DiffPrinter.head_addRequestBody (by simpa using hp)]
    simp
  · simp

theorem head_writeCassandraDiff (w : World) (id : Bytes) (p : DiffPrinter) :
    (writeCassandraDiff w id p).2.1.head = p.head := by
  unfold writeCassandraDiff
  dsimp only
  split_ifs
  · rfl
  · exact DiffPrinter.foldl_keeps DiffPrinter.head _
      (fun p e => DiffPrinter.head_addCassandraDiff p _ _ _ _) p

theorem completePrinter_head (hp : HandedOver p) {t : Bytes}
    (ht : r.mReqHeader.get? elapsedTimeByDup = some t) {d : ℤ} (hd : lexicalCastInt 32 t = some d)
    {cassDiff : Bool} {p' : DiffPrinter} {w' : World}
    (h : completePrinter env w r p = some (cassDiff, p', w')) :
    p'.kind = .multiline ∧ p'.streams .begin ++ p'.streams .info = recordHead env p ∧
      p'.streams .runtime = str " DIFF " ++ decimalInt (d - r.mElapsedTime) ++ str " DUP " ++
        decimalInt d ++ str " COMP " ++ decimalInt r.mElapsedTime := by
  set p₁ := if env.comparisonTime > 0 then
    p.addInfoNum (str "ElapsedTime") env.comparisonTime else p with hp₁
  have hhead : p.head = (.multiline, p.id,
      str "BEGIN NEW REQUEST DIFFERENCE n: " ++ p.id ++ [nl], [], []) := by
    rw [DiffPrinter.head, hp.kind, hp.begin, hp.info, hp.runtime]
  have hhead₁ : p₁.head = (.multiline, p.id,
      str "BEGIN NEW REQUEST DIFFERENCE n: " ++ p.id ++ [nl],
      if env.comparisonTime > 0 then
        str "ElapsedTime" ++ str " : " ++ decimalInt env.comparisonTime ++ [nl] else [], []) := by
    rw [hp₁]
    split_ifs
    · rw [DiffPrinter.addInfoNum_multiline hp.kind]
      exact DiffPrinter.head_addInfo hhead _ _
    · exact hhead
  have hhead₂ := DiffPrinter.head_addRuntime (DiffPrinter.head_addRuntime
    (DiffPrinter.head_addInfo (DiffPrinter.head_addRuntime hhead₁ (str "DIFF")
      (d - r.mElapsedTime)) (str "Date") env.today) (str "DUP") d) (str "COMP") r.mElapsedTime
  simp only [completePrinter, addRuntimes, ht, hd, ← hp₁, Option.map_some, Option.some.injEq] at h
  set p₂ := (((p₁.addRuntime (str "DIFF") (d - r.mElapsedTime)).addInfo (str "Date")
    env.today).addRuntime (str "DUP") d).addRuntime (str "COMP") r.mElapsedTime
  have hkind₂ : p₂.kind = .multiline := congrArg Prod.fst hhead₂
  have hend : p'.head = p₂.head := by
    have hp' : p' = (writeCassandraDiff w r.mId (addRequest r p₂)).2.1 := by rw [h]
    rw [hp', head_writeCassandraDiff, head_addRequest r hkind₂]
  rw [hhead₂] at hend
  simp only [DiffPrinter.head, Prod.mk.injEq] at hend
  obtain ⟨hkind, -, hbegin, hinfo, hruntime⟩ := hend
  refine ⟨hkind, ?_, ?_⟩
  · have helapsed : str "ElapsedTime : " = str "ElapsedTime" ++ str " : " := by decide
    have hdate : str "Date : " = str "Date" ++ str " : " := by decide
    rw [hbegin, hinfo, recordHead, helapsed, hdate]
    simp only [List.append_assoc]
  · have hdiff : str " DIFF " = str " " ++ str "DIFF" ++ str " " := by decide
    have hdup : str " DUP " = str " " ++ str "DUP" ++ str " " := by decide
    have hcomp : str " COMP " = str " " ++ str "COMP" ++ str " " := by decide
    rw [hruntime, hdiff, hdup, hcomp]
    simp only [List.append_assoc, List.nil_append]

/-- Entries of the table have set the flag, so the flag alone decides. -/
theorem completePrinter_isADiff {p' : DiffPrinter} {w' : World}
    (h : completePrinter env w r p = some (true, p', w')) : p'.isADiff = true := by
  obtain ⟨p₂, -, hcass⟩ := Option.map_eq_some_iff.1 h
  have hflag := (writeCassandraDiff_printer w r.mId (addRequest r p₂)).1
  have hfirst := writeCassandraDiff_fst w r.mId (addRequest r p₂)
  rw [hcass] at hflag hfirst
  rw [hflag, ← hfirst, Bool.or_true]

/-- **Where the times are in a record.** -/
theorem record_shape (hp : HandedOver p) {t : Bytes}
    (ht : r.mReqHeader.get? elapsedTimeByDup = some t) {d : ℤ} (hd : lexicalCastInt 32 t = some d)
    {record : Bytes} (h : writtenRecord env w r p = some record) :
    ∃ rest, record = recordHead env p ++ (runtimeLine d r.mElapsedTime ++ nl :: rest) := by
  obtain ⟨⟨cassDiff, p', w'⟩, hcomplete, hwritten⟩ := Option.bind_eq_some_iff.1 h
  obtain ⟨hkind, hhead, hruntime⟩ := completePrinter_head hp ht hd hcomplete
  have hdiff : p'.isADiff = true := by
    by_contra hdiff
    rw [Bool.not_eq_true] at hdiff
    cases cassDiff with
    | true => exact absurd (completePrinter_isADiff hcomplete) (by rw [hdiff]; decide)
    | false => simp [DiffPrinter.retrieveDiff, hkind, hdiff] at hwritten
  have hrecord : record = p'.multilineText := by
    simpa [DiffPrinter.retrieveDiff, hkind, hdiff] using hwritten.symm
  have hsome : p'.streams .runtime ≠ [] := by
    have hne : str " DIFF " ≠ [] := by decide
    rw [hruntime]
    simp [hne]
  refine ⟨p'.tailText, ?_⟩
  rw [hrecord, DiffPrinter.multilineText_eq hsome, hhead, hruntime, runtimeLine]
  simp only [List.append_assoc, List.singleton_append]

end Record

/-! ### The tool on a record -/

/-- Nothing in a text has the form the tool looks for. -/
def Untimed (text : Bytes) : Prop := search respTimeRegex text = none

instance (text : Bytes) : Decidable (Untimed text) := inferInstanceAs (Decidable (_ = _))

/-- A text without times has no difference of times. -/
theorem Untimed.search_respTimeDiffRegex {text : Bytes} (h : Untimed text) :
    search respTimeDiffRegex text = none := search_bind_eq_none h _

theorem readsTimes_congr {text text' : Bytes} {d c v : ℤ} {sup : Bool}
    (htime : search respTimeRegex text = search respTimeRegex text')
    (hdiff : search respTimeDiffRegex text = search respTimeDiffRegex text') :
    ReadsTimes text d c v sup ↔ ReadsTimes text' d c v sup := by
  simp only [ReadsTimes, respTime, respTimeDiff, htime, hdiff]

theorem Untimed.readsTimes_iff {text : Bytes} (h : Untimed text) {d c : ℤ} (hd : 0 ≤ d)
    (hc : 0 ≤ c) (v : ℤ) (sup : Bool) :
    ReadsTimes text d c v sup ↔ if sup then d ≤ v ∧ c ≤ v else v ≤ |d - c| := by
  have htime : search respTimeRegex text = none := h
  simp only [ReadsTimes, respTime, respTimeDiff, htime, h.search_respTimeDiffRegex]
  cases sup with
  | true =>
    simp only [↓reduceIte, @eq_comm Bool false, decide_eq_false_iff_not, not_or, not_lt, gt_iff_lt]
    constructor
    · exact fun h => h.1
    · intro h
      exact ⟨h, abs_le.2 ⟨by omega, by omega⟩⟩
  | false =>
    simp only [Bool.false_eq_true, ↓reduceIte]
    simp only [@eq_comm Bool false, decide_eq_false_iff_not, not_and, not_lt]
    constructor
    · exact fun h => h.2
    · intro h
      refine ⟨fun hlt => ?_, h⟩
      rcases le_abs.1 h with h | h
      · omega
      · omega

/-- **When the tool answers for the times of a record.**  The expressions do not match the line
with the times, whatever they are, so the answers are those for the rest of the record.  If
nothing there looks like times, both rules say no, and that is the answer only for times within
the threshold, or as far apart as it. -/
theorem cmpdiffx_reads_iff (env : CompareEnv) (w : World) (r : RequestInfo) (p : DiffPrinter)
    (hp : HandedOver p) {t : Bytes} (ht : r.mReqHeader.get? elapsedTimeByDup = some t) {d : ℤ}
    (hd : lexicalCastInt 32 t = some d) (hdup : 0 ≤ d) (hcomp : 0 ≤ r.mElapsedTime)
    {record : Bytes} (hrecord : writtenRecord env w r p = some record) (v : ℤ) (sup : Bool) :
    ∃ rest, record = recordHead env p ++ (runtimeLine d r.mElapsedTime ++ nl :: rest) ∧
      (ReadsTimes record d r.mElapsedTime v sup ↔
        (Untimed (recordHead env p ++ rest) ∧
            if sup then d ≤ v ∧ r.mElapsedTime ≤ v else v ≤ |d - r.mElapsedTime|) ∨
          (¬ Untimed (recordHead env p ++ rest) ∧
            ReadsTimes (recordHead env p ++ rest) d r.mElapsedTime v sup)) := by
  obtain ⟨rest, hshape⟩ := record_shape hp ht hd hrecord
  refine ⟨rest, hshape, ?_⟩
  obtain ⟨before, hbefore⟩ : ∃ before, recordHead env p = before ++ [nl] := ⟨_, rfl⟩
  have hline := search_runtimeLine d r.mElapsedTime
  have hrest : ReadsTimes record d r.mElapsedTime v sup ↔
      ReadsTimes (recordHead env p ++ rest) d r.mElapsedTime v sup := by
    rw [hshape, hbefore, List.append_assoc, List.append_assoc, List.singleton_append,
      List.singleton_append]
    exact readsTimes_congr (search_record local_respTimeRegex rfl hline before rest)
      (search_record local_respTimeDiffRegex rfl (search_bind_eq_none hline _) before rest)
  rw [hrest]
  by_cases huntimed : Untimed (recordHead env p ++ rest)
  · rw [huntimed.readsTimes_iff hdup hcomp]
    simp only [huntimed, true_and, not_true_eq_false, false_and, or_false]
  · simp only [huntimed, false_and, not_false_eq_true, true_and, false_or]

/-- A request of 432 ms, which took no time here. -/
def timedRequest : RequestInfo :=
  { RequestInfo.make (str "123") 0 with
    mRequest := str "/spp/main.php"
    mReqHeader := OrdMap.empty.set elapsedTimeByDup (str "432") }

/-- The bodies of its responses differ. -/
def timedPrinter : DiffPrinter :=
  (DiffPrinter.createDiffPrinter (str "123") .multiline).addFullDiffText (str "myBodyDiff")

theorem handedOver_timedPrinter : HandedOver timedPrinter :=
  handedOver_of_head (DiffPrinter.head_addFullDiffText rfl _) (handedOver_createDiffPrinter _)

/-- With a threshold above both times the tool is right. -/
theorem cmpdiffx_reads_iff_within :
    ∃ record, writtenRecord plainEnv {} timedRequest timedPrinter = some record ∧
      ReadsTimes record 432 0 500 true := by
  obtain ⟨record, hrecord⟩ := Option.isSome_iff_exists.1
    (by decide +kernel : (writtenRecord plainEnv {} timedRequest timedPrinter).isSome)
  refine ⟨record, hrecord, ?_⟩
  obtain ⟨rest, hshape, h⟩ := cmpdiffx_reads_iff plainEnv {} timedRequest timedPrinter
    handedOver_timedPrinter (t := str "432") (by decide) (d := 432) (by decide) (by decide)
    (by decide) hrecord 500 true
  set before := recordHead plainEnv timedPrinter with hbefore
  set line := runtimeLine 432 timedRequest.mElapsedTime with hline
  have hrest : rest = record.drop (before ++ line ++ [nl]).length := by
    rw [hshape]
    simp
  have huntimed : (writtenRecord plainEnv {} timedRequest timedPrinter).all fun record =>
      Untimed (before ++ record.drop (before ++ line ++ [nl]).length) := by decide +kernel
  rw [hrecord, Option.all_some, ← hrest, decide_eq_true_iff] at huntimed
  exact h.2 (.inl ⟨huntimed, by decide⟩)

/-- A slow request: 432 ms are more than 100, and neither rule says so. -/
theorem cmpdiffx_misses_slow_request :
    ∃ record, writtenRecord plainEnv {} timedRequest timedPrinter = some record ∧
      HandedOver timedPrinter ∧
      (timedRequest.mReqHeader.get? elapsedTimeByDup).bind (lexicalCastInt 32) = some 432 ∧
      timedRequest.mElapsedTime = 0 ∧ ¬ ReadsTimes record 432 0 100 true := by
  obtain ⟨record, hrecord⟩ := Option.isSome_iff_exists.1
    (by decide +kernel : (writtenRecord plainEnv {} timedRequest timedPrinter).isSome)
  refine ⟨record, hrecord, handedOver_timedPrinter, by decide, rfl, ?_⟩
  have hrules : (writtenRecord plainEnv {} timedRequest timedPrinter).all fun record =>
      ¬ ReadsTimes record 432 0 100 true := by decide +kernel
  rw [hrecord] at hrules
  simpa using hrules

end ModDup
