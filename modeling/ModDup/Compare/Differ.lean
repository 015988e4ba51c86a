import ModDup.Dup.Commands
import ModDup.Compare.Printer

/-!
# Comparing two responses

The headers of the two responses are compared as maps, the bodies as lists of lines
(`src/libws_diff`).  STOP expressions give up the comparison, IGNORE expressions take a part of
a value out of it.  The line difference is computed by dtl (`extern/dtl-cpp`); all that is used
of it is that it finds no hunk exactly when the lines are the same.

## Main definitions

* `MapCompare`, `StringCompareBody` : the rules of a location.
* `MapCompare.headerDiffs` : the differences of two maps, as they are handed to a printer.
* `StringCompareBody.lines` : the normalised lines of a body.

## Main results

* `MapCompare.headerDiffs_eq_nil` : no difference is reported iff the maps are equal.
* `StringCompareBody.output_eq_nil` : nor for the bodies iff their lines are.
-/

namespace ModDup

open Bytes

/-! ### Maps -/

/-- `MapCompare`. -/
structure MapCompare where
  mStopRegex : OrdMap Bytes Regex := .empty
  mIgnoreRegex : OrdMap Bytes Regex := .empty

/-- One call of `addHeaderDiff`. -/
abbrev HeaderDiff := Bytes × Option Bytes × Option Bytes

namespace MapCompare

/-- `MapCompare::addIgnoreRegex`; a second rule on the same key has no effect. -/
def addIgnoreRegex (c : MapCompare) (key : Bytes) (re : Regex) : MapCompare :=
  { c with mIgnoreRegex := c.mIgnoreRegex.insertNew key re }

/-- `MapCompare::addStopRegex`. -/
def addStopRegex (c : MapCompare) (key : Bytes) (re : Regex) : MapCompare :=
  { c with mStopRegex := c.mStopRegex.insertNew key re }

/-- `MapCompare::checkStop`. -/
def checkStop (c : MapCompare) (map : MapStr) : Bool :=
  map.entries.any fun e => (c.mStopRegex.get? e.1).any fun re => re.found e.2

/-- `MapCompare::applyIgnoreRegex`: an ignored part is removed, and with it a header of which
nothing is left. -/
def applyIgnoreRegex (c : MapCompare) (map : MapStr) : MapStr :=
  map.filterMap fun key value =>
    match c.mIgnoreRegex.get? key with
    | none => some value
    | some re => if re.replace value [] = [] then none else some (re.replace value [])

/-- `std::set_difference` of the entries. -/
def setDifference (m m' : MapStr) : KeyValList := m.entries.filter fun e => e ∉ m'.entries

/-- The calls of `addHeaderDiff`: keys missing in `dst`, keys missing in `src`, then keys with
two values. -/
def headerDiffs (src dst : MapStr) : List HeaderDiff :=
  let diffSrc := setDifference src dst
  let diffDst := setDifference dst src
  (diffSrc.filter fun e => (diffDst.lookup e.1).isNone).map (fun e => (e.1, some e.2, none)) ++
  (diffDst.filter fun e => (diffSrc.lookup e.1).isNone).map (fun e => (e.1, none, some e.2)) ++
  diffSrc.filterMap fun e => (diffDst.lookup e.1).map fun v => (e.1, some e.2, some v)

/-- The differences `retrieveDiff` reports, `none` when a STOP expression matches. -/
def diffs? (c : MapCompare) (src dst : MapStr) : Option (List HeaderDiff) :=
  if c.checkStop src || c.checkStop dst then none
  else some (headerDiffs (c.applyIgnoreRegex src) (c.applyIgnoreRegex dst))

/-- `MapCompare::retrieveDiff`: whether the comparison was made, and the printer after it. -/
def retrieveDiff (c : MapCompare) (src dst : MapStr) (printer : DiffPrinter) :
    Bool × DiffPrinter :=
  match c.diffs? src dst with
  | none => (false, printer)
  | some ds => (true, ds.foldl (fun p d => p.addHeaderDiff d.1 d.2.1 d.2.2) printer)

theorem mem_setDifference {m m' : MapStr} {e : KeyVal} :
    e ∈ setDifference m m' ↔ e ∈ m.entries ∧ e ∉ m'.entries := by
  simp [setDifference]

theorem setDifference_self (m : MapStr) : setDifference m m = [] := by
  simp [setDifference]

theorem setDifference_eq_nil {m m' : MapStr} (h : setDifference m m' = []) {e : KeyVal}
    (he : e ∈ m.entries) : e ∈ m'.entries := by
  by_contra hne
  exact List.not_mem_nil (h ▸ mem_setDifference.2 ⟨he, hne⟩)

theorem headerDiffs_eq_nil {src dst : MapStr} : headerDiffs src dst = [] ↔ src = dst := by
  constructor
  · intro h
    simp only [headerDiffs, List.append_eq_nil_iff, List.map_eq_nil_iff, List.filter_eq_nil_iff,
      List.filterMap_eq_nil_iff] at h
    obtain ⟨⟨hsrc, hdst⟩, hboth⟩ := h
    -- a key of one difference is either in the other one or not, and neither is left
    have hnil : setDifference src dst = [] := by
      refine List.eq_nil_iff_forall_not_mem.2 fun e he => hsrc e he ?_
      have := hboth e he
      rw [Option.map_eq_none_iff] at this
      simp [this]
    have hnil' : setDifference dst src = [] := by
      refine List.eq_nil_iff_forall_not_mem.2 fun e he => hdst e he ?_
      simp [hnil]
    refine OrdMap.ext_get? fun k => ?_
    refine Option.ext fun v => ?_
    rw [OrdMap.get?_eq_some_iff, OrdMap.get?_eq_some_iff]
    exact ⟨setDifference_eq_nil hnil, setDifference_eq_nil hnil'⟩
  · rintro rfl
    simp [headerDiffs, setDifference_self]

theorem isADiff_foldl_addHeaderDiff (ds : List HeaderDiff) (p : DiffPrinter) :
    (ds.foldl (fun p d => p.addHeaderDiff d.1 d.2.1 d.2.2) p).isADiff =
      (p.isADiff || ds ≠ []) := by
  induction ds generalizing p with
  | nil => simp
  | cons d ds ih => rw [List.foldl_cons, ih]; simp

/-- Without a STOP match the flag is set iff the maps differ once the ignored parts are gone. -/
theorem retrieveDiff_of_not_stop {c : MapCompare} {src dst : MapStr}
    (hsrc : c.checkStop src = false) (hdst : c.checkStop dst = false) (p : DiffPrinter) :
    (c.retrieveDiff src dst p).1 = true ∧
      ((c.retrieveDiff src dst p).2.isADiff = true ↔
        p.isADiff = true ∨ c.applyIgnoreRegex src ≠ c.applyIgnoreRegex dst) := by
  simp only [retrieveDiff, diffs?, hsrc, hdst, Bool.or_self, Bool.false_eq_true, ↓reduceIte,
    isADiff_foldl_addHeaderDiff, Bool.or_eq_true, decide_eq_true_eq, ne_eq, headerDiffs_eq_nil,
    true_and]

theorem retrieveDiff_of_stop {c : MapCompare} {src dst : MapStr}
    (h : (c.checkStop src || c.checkStop dst) = true) (p : DiffPrinter) :
    c.retrieveDiff src dst p = (false, p) := by
  simp [retrieveDiff, diffs?, h]

theorem kind_retrieveDiff (c : MapCompare) (src dst : MapStr) (p : DiffPrinter) :
    (c.retrieveDiff src dst p).2.kind = p.kind := by
  unfold retrieveDiff
  cases c.diffs? src dst with
  | none => rfl
  | some ds =>
    exact DiffPrinter.foldl_keeps DiffPrinter.kind ds
      (fun p d => p.kind_addHeaderDiff d.1 d.2.1 d.2.2) p

end MapCompare

/-! ### Lines -/

/-- The kind of an element of an edit script. -/
inductive SesType where
  | delete
  | common
  | add
  deriving DecidableEq, Repr

/-- `dtl::uniHunk`. -/
structure UniHunk where
  a : ℕ
  b : ℕ
  c : ℕ
  d : ℕ
  common0 : List Bytes
  change : List (SesType × Bytes)
  common1 : List Bytes

/-- `dtl::Diff`, as far as it is used: the unified hunks of two lists of lines. -/
structure Dtl where
  uniHunks : List Bytes → List Bytes → List UniHunk
  uniHunks_eq_nil : ∀ src dst, uniHunks src dst = [] ↔ src = dst

/-- The mark of an element in the output. -/
def SesType.mark : SesType → Bytes
  | .delete => str "-"
  | .common => str " "
  | .add => str "+"

/-- `dtl::UniHunkPrinter`. -/
def UniHunk.print (h : UniHunk) : Bytes :=
  str "@@ -" ++ decimal h.a ++ str "," ++ decimal h.b ++ str " +" ++ decimal h.c ++ str "," ++
    decimal h.d ++ str " @@\n" ++
  (h.common0.flatMap fun l => SesType.common.mark ++ l ++ [nl]) ++
  (h.change.flatMap fun e => e.1.mark ++ e.2 ++ [nl]) ++
  h.common1.flatMap fun l => SesType.common.mark ++ l ++ [nl]

/-- `StringCompare::vectDiff`: the printed hunks; it returns whether they are not empty. -/
def vectDiff (dtl : Dtl) (src dst : List Bytes) : Bytes :=
  (dtl.uniHunks src dst).flatMap UniHunk.print

theorem vectDiff_eq_nil (dtl : Dtl) {src dst : List Bytes} :
    vectDiff dtl src dst = [] ↔ src = dst := by
  rw [← dtl.uniHunks_eq_nil, vectDiff, List.flatMap_eq_nil_iff]
  constructor
  · intro h
    refine List.eq_nil_iff_forall_not_mem.2 fun hunk hmem => ?_
    have := h hunk hmem
    simp [UniHunk.print, str] at this
  · intro h
    simp [h]

/-- `StringCompareBody`. -/
structure StringCompareBody where
  mStopRegex : List Regex := []
  mIgnoreRegex : List Regex := []

namespace StringCompareBody

/-- `StringCompare::checkStopRegex`. -/
def checkStopRegex (c : StringCompareBody) (s : Bytes) : Bool :=
  c.mStopRegex.any fun re => re.found s

/-- `StringCompare::ignoreCases`. -/
def ignoreCases (c : StringCompareBody) (s : Bytes) : Bytes :=
  c.mIgnoreRegex.foldl (fun s re => re.replace s []) s

/-- The lines that are compared: tags are put on lines of their own, empty lines dropped. -/
def lines (c : StringCompareBody) (s : Bytes) : List Bytes :=
  splitCompress nl (replaceAll (str "><") (str ">\n<") (c.ignoreCases s))

/-- The output of `StringCompareBody::retrieveDiff`; it stays empty when a STOP expression
matches. -/
def output (dtl : Dtl) (c : StringCompareBody) (src dst : Bytes) : Bytes :=
  if c.checkStopRegex src || c.checkStopRegex dst then []
  else vectDiff dtl (c.lines src) (c.lines dst)

/-- `StringCompareBody::retrieveDiff` with a printer: whether a difference was found, and the
printer after it. -/
def retrieveDiff (dtl : Dtl) (c : StringCompareBody) (src dst : Bytes) (printer : DiffPrinter) :
    Bool × DiffPrinter :=
  let out := c.output dtl src dst
  (out ≠ [], if out ≠ [] then printer.addFullDiffText out else printer)

theorem output_eq_nil (dtl : Dtl) {c : StringCompareBody} {src dst : Bytes}
    (hsrc : c.checkStopRegex src = false) (hdst : c.checkStopRegex dst = false) :
    c.output dtl src dst = [] ↔ c.lines src = c.lines dst := by
  simp [output, hsrc, hdst, vectDiff_eq_nil]

theorem output_of_stop (dtl : Dtl) {c : StringCompareBody} {src dst : Bytes}
    (h : (c.checkStopRegex src || c.checkStopRegex dst) = true) : c.output dtl src dst = [] := by
  simp [output, h]

theorem isADiff_retrieveDiff (dtl : Dtl) (c : StringCompareBody) (src dst : Bytes)
    (p : DiffPrinter) :
    (c.retrieveDiff dtl src dst p).2.isADiff = true ↔
      p.isADiff = true ∨ c.output dtl src dst ≠ [] := by
  simp only [retrieveDiff]
  split_ifs with h
  · simp [h, DiffPrinter.isADiff_addFullDiffText p h]
  · simp only [ne_eq, not_not] at h
    simp [h]

theorem kind_retrieveDiff (dtl : Dtl) (c : StringCompareBody) (src dst : Bytes)
    (p : DiffPrinter) : (c.retrieveDiff dtl src dst p).2.kind = p.kind := by
  simp only [retrieveDiff]
  split_ifs <;> simp

end StringCompareBody

end ModDup
