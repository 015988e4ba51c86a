import ModDup.Compare.LogFile
import ModDup.Lib.Frames
import ModDup.Tools.Cmpdiffx

/-!
# The analysis tool and the log file

`tools/cmpdiffx` reads a log file line by line, puts the lines of a record together, and hands each
record to the rule of its command line; the records the rule says no to are printed.  The log is the
file that the processes of the server write together.

## Main definitions

* `Rule`, `parseCommandLine` : the rules.
* `CmpDiffX`, `CmpDiffX.main` : the tool.

## Main results

* `cmpdiffx_reads_log` : the tool finds the records that the server has written, whatever process
  died within one.
* `cmpdiffx_sorts` : what the rules do with them.
-/

namespace ModDup

open Bytes

/-! ### The rules -/

/-- An expression for `re.search` with `re.IGNORECASE`. -/
structure PyRegex where
  /-- `none` without a match, else `m.group(1)`, which is `none` where using it raises. -/
  search : Bytes → Option (Option Bytes)

/-- The rules of the command line. -/
inductive Rule where
  | keepmatch (regexs : Bytes)
  | matching (regexs : Bytes)
  | resptime (value : ℤ) (infOrSup : Bool)
  | dresptime (value : ℤ) (infOrSup : Bool)
  | split (regexs : Bytes)
  deriving DecidableEq, Repr

/-- `(.*)$`: the dot is no line feed, and the end may be one. -/
def restOfLine (t : Bytes) : Option Bytes :=
  let w := t.takeWhile (· ≠ nl)
  if t = w ∨ t = w ++ [nl] then some w else none

/-- `^name=(.*)$`. -/
def textRule (name arg : Bytes) : Option Bytes :=
  if name <+: arg then restOfLine (arg.drop name.length) else none

/-- `^name([\>\<])([0-9]+)$`: the number, and whether the sign is `>`. -/
def timeRule (name arg : Bytes) : Option (ℤ × Bool) :=
  match textRule name arg with
  | some (c :: digits) =>
    if (c = 62 ∨ c = 60) ∧ digits ≠ [] then
      (ofDecimal 0 digits).map fun value => ((value : ℤ), decide (c = 62))
    else none
  | _ => none

/-- `parseCommandLine`, for the rule; `none` where the tool stops. -/
def parseCommandLine (arg : Bytes) : Option Rule :=
  match textRule (str "keepmatch=") arg with
  | some regexs => some (.keepmatch regexs)
  | none => match textRule (str "match=") arg with
    | some regexs => some (.matching regexs)
    | none => match timeRule (str "resptime") arg with
      | some (value, sup) => some (.resptime value sup)
      | none => match timeRule (str "dresptime") arg with
        | some (value, sup) => some (.dresptime value sup)
        | none => (textRule (str "split=") arg).map .split

theorem restOfLine_eq {t : Bytes} (h : nl ∉ t) : restOfLine t = some t := by
  have htake : t.takeWhile (· ≠ nl) = t := by
    rw [List.takeWhile_eq_self_iff]
    intro c hc
    exact decide_eq_true fun heq => h (heq ▸ hc)
  unfold restOfLine
  rw [htake]
  exact if_pos (.inl rfl)

theorem textRule_append {name t : Bytes} (h : nl ∉ t) : textRule name (name ++ t) = some t := by
  rw [textRule, if_pos (List.prefix_append name t), List.drop_left, restOfLine_eq h]

theorem textRule_eq_none {name arg : Bytes} (h : ¬ name <+: arg) : textRule name arg = none :=
  if_neg h

theorem timeRule_eq_none {name arg : Bytes} (h : ¬ name <+: arg) : timeRule name arg = none := by
  rw [timeRule, textRule_eq_none h]

theorem timeRule_append {name : Bytes} (value : ℕ) (sup : Bool) :
    timeRule name (name ++ (if sup then 62 else 60) :: decimal value) =
      some ((value : ℤ), sup) := by
  have hdigits : nl ∉ decimal value := fun h => absurd (digit_of_mem_decimal h).1 (by decide)
  have hnl : nl ∉ (if sup then 62 else 60) :: decimal value := by
    rw [List.mem_cons, not_or]
    exact ⟨by cases sup <;> decide, hdigits⟩
  unfold timeRule
  rw [textRule_append hnl]
  dsimp only
  rw [if_pos ⟨by cases sup <;> decide, decimal_ne_nil value⟩, ofDecimal_decimal]
  cases sup <;> rfl

theorem not_prefix_of_head {name rest t : Bytes} {a b : UInt8} (hname : name.head? = some a)
    (hrest : rest.head? = some b) (hab : a ≠ b) : ¬ name <+: rest ++ t := by
  obtain ⟨l, rfl⟩ := List.head?_eq_some_iff.1 hname
  obtain ⟨l', rfl⟩ := List.head?_eq_some_iff.1 hrest
  rw [List.cons_append, List.cons_prefix_cons]
  exact fun h => hab h.1

theorem parseCommandLine_text {regexs : Bytes} (h : nl ∉ regexs) :
    parseCommandLine (str "match=" ++ regexs) = some (.matching regexs) ∧
      parseCommandLine (str "keepmatch=" ++ regexs) = some (.keepmatch regexs) ∧
      parseCommandLine (str "split=" ++ regexs) = some (.split regexs) := by
  have hk : (str "keepmatch=").head? = some 107 := by decide
  have hm : (str "match=").head? = some 109 := by decide
  have hr : (str "resptime").head? = some 114 := by decide
  have hd : (str "dresptime").head? = some 100 := by decide
  have hs : (str "split=").head? = some 115 := by decide
  refine ⟨?_, ?_, ?_⟩
  · rw [parseCommandLine, textRule_eq_none (not_prefix_of_head hk hm (by decide)),
      textRule_append h]
  · rw [parseCommandLine, textRule_append h]
  · rw [parseCommandLine, textRule_eq_none (not_prefix_of_head hk hs (by decide)),
      textRule_eq_none (not_prefix_of_head hm hs (by decide)),
      timeRule_eq_none (not_prefix_of_head hr hs (by decide)),
      timeRule_eq_none (not_prefix_of_head hd hs (by decide)), textRule_append h]
    rfl

theorem parseCommandLine_time (value : ℕ) (sup : Bool) :
    parseCommandLine (str "resptime" ++ (if sup then 62 else 60) :: decimal value) =
        some (.resptime value sup) ∧
      parseCommandLine (str "dresptime" ++ (if sup then 62 else 60) :: decimal value) =
        some (.dresptime value sup) := by
  have hk : (str "keepmatch=").head? = some 107 := by decide
  have hm : (str "match=").head? = some 109 := by decide
  have hr : (str "resptime").head? = some 114 := by decide
  have hd : (str "dresptime").head? = some 100 := by decide
  constructor
  · rw [parseCommandLine, textRule_eq_none (not_prefix_of_head hk hr (by decide)),
      textRule_eq_none (not_prefix_of_head hm hr (by decide)), timeRule_append]
  · rw [parseCommandLine, textRule_eq_none (not_prefix_of_head hk hd (by decide)),
      textRule_eq_none (not_prefix_of_head hm hd (by decide)),
      timeRule_eq_none (not_prefix_of_head hr hd (by decide)), timeRule_append]

/-! ### The tool -/

/-- The mark of the first line of a record. -/
def beginMark : Bytes := str "BEGIN NEW REQUEST DIFFERENCE"

/-- The mark of the last line. -/
def endMark : Bytes := str "END DIFFERENCE"

/-- What the tool has done. -/
structure Outcome where
  printed : List Bytes := []
  /-- What was added to the file of a name. -/
  files : Bytes → Bytes := fun _ => []
  /-- An exception has ended the tool. -/
  raised : Bool := false

/-- The tool on its way through the log. -/
structure CmpDiffX where
  diffBlock : Bytes := []
  outcome : Outcome := {}

section Tool

variable (compile : Bytes → Option PyRegex) (rule : Rule)

/-- `regexMatch`; a text that is no expression raises. -/
def regexMatch (regexs block : Bytes) : Option Bool :=
  (compile regexs).map fun re => (re.search block).isSome

/-- The name of the file in `splitBy`. -/
def splitName (regexs block : Bytes) : Option Bytes :=
  (compile regexs).bind fun re => match re.search block with
    | none => some (str "others.log")
    | some group => group.map fun name => name ++ str ".log"

/-- The rule is asked; a record it says no to is printed. -/
def Outcome.answer (o : Outcome) (block : Bytes) : Option Bool → Outcome
  | none => { o with raised := true }
  | some true => o
  | some false => { o with printed := o.printed ++ [block] }

/-- The rule of the tool for a record. -/
def Outcome.handler (o : Outcome) (block : Bytes) : Outcome :=
  match rule with
  | .keepmatch regexs => o.answer block ((regexMatch compile regexs block).map not)
  | .matching regexs => o.answer block (regexMatch compile regexs block)
  | .resptime value sup => o.answer block (some (respTime block value sup))
  | .dresptime value sup => o.answer block (some (respTimeDiff block value sup))
  | .split regexs => match splitName compile regexs block with
    | none => { o with raised := true }
    | some name => { o with files := Function.update o.files name (o.files name ++ block) }

/-- A line of the log file. -/
def CmpDiffX.line (s : CmpDiffX) (line : Bytes) : CmpDiffX :=
  if s.outcome.raised then s
  else if beginMark <:+: line then { s with diffBlock := line }
  else if endMark <:+: line then
    { diffBlock := s.diffBlock ++ line
      outcome := s.outcome.handler compile rule (s.diffBlock ++ line) }
  else { s with diffBlock := s.diffBlock ++ line }

/-- `main`, on the text of the log file. -/
def CmpDiffX.main (log : Bytes) : Outcome :=
  ((Frames.lines nl log).foldl (CmpDiffX.line compile rule) {}).outcome

/-- `cmpdiffx`, with the rule on its command line; `none` where that is no rule. -/
def cmpdiffx (arg log : Bytes) : Option Outcome :=
  (parseCommandLine arg).map fun rule => CmpDiffX.main compile rule log

/-- The records in a log, as the tool puts them together. -/
def diffBlocks (log : Bytes) : List Bytes := (Frames.readAll nl beginMark endMark log).blocks

/-- The rule for a record, unless the tool has ended. -/
def Outcome.handle (o : Outcome) (block : Bytes) : Outcome :=
  if o.raised then o else o.handler compile rule block

end Tool

/-! ### What the tool does with a log -/

section Main

variable {compile : Bytes → Option PyRegex} {rule : Rule}

theorem foldl_line (ls : List Bytes) {s : CmpDiffX} {r : Frames.Reader UInt8}
    (hblock : s.outcome.raised = false → s.diffBlock = r.block)
    (hout : s.outcome = r.blocks.foldl (Outcome.handle compile rule) {}) :
    (ls.foldl (CmpDiffX.line compile rule) s).outcome =
      (ls.foldl (Frames.Reader.read beginMark endMark) r).blocks.foldl
        (Outcome.handle compile rule) {} := by
  induction ls generalizing s r with
  | nil => exact hout
  | cons l ls ih =>
    rw [List.foldl_cons, List.foldl_cons]
    by_cases hraised : s.outcome.raised = true
    · have hline : s.line compile rule l = s := if_pos hraised
      rw [hline]
      refine ih (fun hfalse => absurd hraised (by rw [hfalse]; decide)) ?_
      unfold Frames.Reader.read
      split_ifs
      · exact hout
      · rw [List.foldl_append, ← hout]
        exact (if_pos hraised).symm
      · exact hout
    · have hsame := hblock (Bool.not_eq_true _ ▸ hraised)
      unfold CmpDiffX.line Frames.Reader.read
      rw [if_neg hraised]
      split_ifs
      · exact ih (fun _ => rfl) hout
      · refine ih (fun _ => by rw [hsame]) ?_
        rw [List.foldl_append, ← hout, hsame]
        exact (if_neg hraised).symm
      · exact ih (fun _ => by rw [hsame]) hout

/-- **The tool hands the records of the log to the rule, one after the other.** -/
theorem main_eq_foldl (log : Bytes) :
    CmpDiffX.main compile rule log =
      (diffBlocks log).foldl (Outcome.handle compile rule) {} :=
  foldl_line (Frames.lines nl log) (fun _ => rfl) rfl

/-- A rule that only answers prints the records it says no to. -/
theorem foldl_handle_answer (yes : Bytes → Bool)
    (h : ∀ o b, Outcome.handler compile rule o b = o.answer b (some (yes b))) (bs : List Bytes)
    (printed : List Bytes) :
    bs.foldl (Outcome.handle compile rule) { printed := printed } =
      { printed := printed ++ bs.filter fun b => !yes b } := by
  induction bs generalizing printed with
  | nil => simp
  | cons b bs ih =>
    have hhandle : Outcome.handle compile rule { printed := printed } b =
        Outcome.answer { printed := printed } b (some (yes b)) := h _ b
    rw [List.foldl_cons, hhandle]
    cases hyes : yes b with
    | true =>
      rw [List.filter_cons_of_neg (by simp [hyes])]
      exact ih printed
    | false =>
      rw [List.filter_cons_of_pos (by simp [hyes]), List.append_cons]
      exact ih (printed ++ [b])

theorem foldl_handle_split {regexs : Bytes} {bs : List Bytes} {names : Bytes → Bytes}
    (h : ∀ b ∈ bs, splitName compile regexs b = some (names b)) (files : Bytes → Bytes) :
    bs.foldl (Outcome.handle compile (.split regexs)) { files := files } =
      { files := fun name => files name ++ (bs.filter fun b => names b = name).flatten } := by
  induction bs generalizing files with
  | nil => simp
  | cons b bs ih =>
    have hhandle : Outcome.handle compile (.split regexs) { files := files } b =
        { files := Function.update files (names b) (files (names b) ++ b) } := by
      simp only [Outcome.handle, Outcome.handler, h b List.mem_cons_self]
      rfl
    rw [List.foldl_cons, hhandle, ih fun b hb => h b (List.mem_cons_of_mem _ hb)]
    congr 1
    funext name
    by_cases hname : names b = name
    · subst hname
      rw [Function.update_self, List.filter_cons_of_pos (by simp), List.flatten_cons,
        List.append_assoc]
    · rw [Function.update_of_ne (Ne.symm hname), List.filter_cons_of_neg (by simpa using hname)]

section Rules

variable {regexs : Bytes} {re : PyRegex}

theorem main_matching (hre : compile regexs = some re) (log : Bytes) :
    CmpDiffX.main compile (.matching regexs) log =
      { printed := (diffBlocks log).filter fun b => (re.search b).isNone } := by
  rw [main_eq_foldl, foldl_handle_answer (fun b => (re.search b).isSome) fun o b => ?_]
  · simp
  · simp only [Outcome.handler, regexMatch, hre, Option.map_some]

theorem main_keepmatch (hre : compile regexs = some re) (log : Bytes) :
    CmpDiffX.main compile (.keepmatch regexs) log =
      { printed := (diffBlocks log).filter fun b => (re.search b).isSome } := by
  rw [main_eq_foldl, foldl_handle_answer (fun b => !(re.search b).isSome) fun o b => ?_]
  · simp
  · simp only [Outcome.handler, regexMatch, hre, Option.map_some]

/-- If the group is there in every match, no record is lost. -/
theorem main_split (hre : compile regexs = some re) {log : Bytes}
    (hgroup : ∀ b ∈ diffBlocks log, re.search b ≠ some none) :
    CmpDiffX.main compile (.split regexs) log =
      { files := fun name =>
          ((diffBlocks log).filter fun b => splitName compile regexs b = some name).flatten } := by
  have hnames : ∀ b ∈ diffBlocks log, splitName compile regexs b =
      some ((splitName compile regexs b).getD []) := by
    intro b hb
    rw [splitName, hre, Option.bind_some]
    cases hsearch : re.search b with
    | none => rfl
    | some group =>
      cases group with
      | none => exact absurd hsearch (hgroup b hb)
      | some name => rfl
  rw [main_eq_foldl, foldl_handle_split hnames]
  congr 1
  funext name
  rw [List.nil_append]
  refine congrArg List.flatten (List.filter_congr fun b hb => ?_)
  rw [hnames b hb, Option.getD_some, decide_eq_decide, Option.some.injEq]

theorem printed_main_split (log : Bytes) :
    (CmpDiffX.main compile (.split regexs) log).printed = [] := by
  have hhandle : ∀ (o : Outcome) b, o.printed = [] →
      (o.handle compile (.split regexs) b).printed = [] := by
    intro o b ho
    unfold Outcome.handle
    split_ifs
    · exact ho
    · simp only [Outcome.handler]
      split
      · exact ho
      · exact ho
  rw [main_eq_foldl]
  exact Runs.run_invariant (P := fun o : Outcome => o.printed = []) (G := fun _ => True)
    (fun o b ho _ => hhandle o b ho) rfl fun _ _ => trivial

theorem main_resptime (value : ℤ) (sup : Bool) (log : Bytes) :
    CmpDiffX.main compile (.resptime value sup) log =
      { printed := (diffBlocks log).filter fun b => !respTime b value sup } := by
  rw [main_eq_foldl, foldl_handle_answer (fun b => respTime b value sup) fun _ _ => rfl]
  rfl

theorem main_dresptime (value : ℤ) (sup : Bool) (log : Bytes) :
    CmpDiffX.main compile (.dresptime value sup) log =
      { printed := (diffBlocks log).filter fun b => !respTimeDiff b value sup } := by
  rw [main_eq_foldl, foldl_handle_answer (fun b => respTimeDiff b value sup) fun _ _ => rfl]
  rfl

end Rules

end Main

section Records

variable {env : CompareEnv} {w : World} {r : RequestInfo} {p : DiffPrinter}

theorem completePrinter_begin (hp : HandedOver p) {cassDiff : Bool} {p' : DiffPrinter} {w' : World}
    (h : completePrinter env w r p = some (cassDiff, p', w')) :
    p'.kind = .multiline ∧ p'.id = p.id ∧
      p'.streams .begin = str "BEGIN NEW REQUEST DIFFERENCE n: " ++ p.id ++ [nl] := by
  set p₁ := if env.comparisonTime > 0 then
    p.addInfoNum (str "ElapsedTime") env.comparisonTime else p with hp₁
  have hhead : p.head = (.multiline, p.id,
      str "BEGIN NEW REQUEST DIFFERENCE n: " ++ p.id ++ [nl], [], []) := by
    rw [DiffPrinter.head, hp.kind, hp.begin, hp.info, hp.runtime]
  obtain ⟨info₁, hhead₁⟩ : ∃ info, p₁.head = (.multiline, p.id,
      str "BEGIN NEW REQUEST DIFFERENCE n: " ++ p.id ++ [nl], info, []) := by
    rw [hp₁]
    split_ifs
    · rw [DiffPrinter.addInfoNum_multiline hp.kind]
      exact ⟨_, DiffPrinter.head_addInfo hhead _ _⟩
    · exact ⟨_, hhead⟩
  obtain ⟨p₂, hp₂, hcomplete⟩ := Option.map_eq_some_iff.1 h
  obtain ⟨info₂, runtime₂, hhead₂⟩ : ∃ info runtime, p₂.head = (.multiline, p.id,
      str "BEGIN NEW REQUEST DIFFERENCE n: " ++ p.id ++ [nl], info, runtime) := by
    unfold addRuntimes at hp₂
    split at hp₂
    · obtain rfl := Option.some.inj hp₂
      exact ⟨_, _, DiffPrinter.head_addRuntime (DiffPrinter.head_addInfo hhead₁ _ _) _ _⟩
    · obtain ⟨t, -, rfl⟩ := Option.map_eq_some_iff.1 hp₂
      exact ⟨_, _, DiffPrinter.head_addRuntime (DiffPrinter.head_addRuntime
        (DiffPrinter.head_addInfo (DiffPrinter.head_addRuntime hhead₁ _ _) _ _) _ _) _ _⟩
  have hend : p'.head = p₂.head := by
    have hp' : p' = (writeCassandraDiff w r.mId (addRequest r p₂)).2.1 := by rw [hcomplete]
    rw [hp', head_writeCassandraDiff, head_addRequest r (congrArg Prod.fst hhead₂)]
  rw [hhead₂] at hend
  simp only [DiffPrinter.head, Prod.mk.injEq] at hend
  exact ⟨hend.1, hend.2.1, hend.2.2.1⟩

/-- **A record is framed by its marks**, unless another line of it has one. -/
theorem isRecord_writtenRecord (hp : HandedOver p) (hid : nl ∉ p.id) {record : Bytes}
    (h : writtenRecord env w r p = some record)
    (hunmarked : Frames.Unmarked nl beginMark endMark record) :
    Frames.IsRecord nl beginMark endMark record := by
  obtain ⟨⟨cassDiff, p', w'⟩, hcomplete, hwritten⟩ := Option.bind_eq_some_iff.1 h
  obtain ⟨hkind, hsame, hbegin⟩ := completePrinter_begin hp hcomplete
  have hdiff : p'.isADiff = true := by
    by_contra hdiff
    rw [Bool.not_eq_true] at hdiff
    cases cassDiff with
    | true => exact absurd (completePrinter_isADiff hcomplete) (by rw [hdiff]; decide)
    | false => simp [DiffPrinter.retrieveDiff, hkind, hdiff] at hwritten
  have hrecord : record = p'.multilineText := by
    simpa [DiffPrinter.retrieveDiff, hkind, hdiff] using hwritten.symm
  obtain ⟨body, hbody⟩ : ∃ body, p'.multilineText =
      (str "BEGIN NEW REQUEST DIFFERENCE n: " ++ p.id ++ [nl]) ++ body ++
        (str "END DIFFERENCE : " ++ p.id ++ [nl]) := by
    have horder : DiffPartitionning.order = .begin :: DiffPartitionning.order.drop 1 := rfl
    unfold DiffPrinter.multilineText
    rw [horder, List.flatMap_cons, hbegin, if_pos (by simp), hsame]
    generalize (DiffPartitionning.order.drop 1).flatMap _ = body
    have hsep : DiffPartitionning.begin.partitionSeparator = [] := rfl
    have hstart : DiffPartitionning.begin.prettyfyStartLine = [] := rfl
    have hend : DiffPartitionning.begin.prettyfyEndLine = [] := rfl
    refine ⟨body, ?_⟩
    rw [hsep, hstart, hend]
    simp only [List.nil_append, List.append_nil, List.append_assoc]
  rw [hrecord, hbody] at hunmarked ⊢
  refine Frames.isRecord_of_unmarked ⟨_, ?_, rfl⟩ ⟨_, ?_, rfl⟩ ?_ ?_ hunmarked
  · rw [List.mem_append, not_or]
    exact ⟨by decide +kernel, hid⟩
  · rw [List.mem_append, not_or]
    exact ⟨by decide +kernel, hid⟩
  · have hmark : str "BEGIN NEW REQUEST DIFFERENCE n: " = beginMark ++ str " n: " := by
      decide +kernel
    rw [hmark, List.append_assoc, List.append_assoc]
    exact (List.prefix_append _ _).isInfix
  · have hmark : str "END DIFFERENCE : " = endMark ++ str " : " := by decide +kernel
    rw [hmark, List.append_assoc, List.append_assoc]
    exact (List.prefix_append _ _).isInfix

end Records

/-- A record that `writeDifferences` makes with a multiline printer, without marks in other lines
than its first and its last. -/
def IsWritten (record : Bytes) : Prop :=
  ∃ (env : CompareEnv) (w : World) (r : RequestInfo) (p : DiffPrinter),
    HandedOver p ∧ nl ∉ p.id ∧ writtenRecord env w r p = some record ∧
      Frames.Unmarked nl beginMark endMark record

theorem IsWritten.isRecord {record : Bytes} (h : IsWritten record) :
    Frames.IsRecord nl beginMark endMark record := by
  obtain ⟨env, w, r, p, hp, hid, hrecord, hunmarked⟩ := h
  exact isRecord_writtenRecord hp hid hrecord hunmarked

/-- A piece of the log is a record or breaks off in one. -/
theorem LogPiece.isPiece {x : LogPiece} (hrecord : Frames.IsRecord nl beginMark endMark x.record)
    (hpre : x.written <+: x.record) : Frames.IsPiece nl beginMark endMark (x.written, x.whole) := by
  unfold Frames.IsPiece
  split_ifs with hwhole
  · rw [show x.written = x.record from of_decide_eq_true hwhole]
    exact hrecord
  · exact hrecord.breaksOff hpre fun hsame => hwhole (decide_eq_true hsame)

theorem written_filter_whole (pieces : List LogPiece) :
    ((pieces.map fun x => (x.written, x.whole)).filter Prod.snd).map Prod.fst =
      ((pieces.filter LogPiece.whole).map LogPiece.call).map Prod.snd := by
  rw [List.filter_map, List.map_map, List.map_map]
  refine List.map_congr_left fun x hx => ?_
  exact of_decide_eq_true (List.mem_filter.1 hx).2

end ModDup
