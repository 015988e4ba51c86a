import ModDup.Dtl.Hunks
import ModDup.Compare.BodyTags
import ModDup.Lib.Scan

/-!
# The printed difference of two texts

`StringCompare::vectDiff` takes the lines of two texts through `compose` and
`composeUnifiedHunks` and prints the hunks.  What is printed is a patch: read back, it turns the
lines of the one text into those of the other, and its inverse turns them back.

## Main definitions

* `Diff.unifiedHunks` : the hunks of two sequences.
* `Diff.dtl` : the same as the difference the comparison of bodies is made with.
* `UnifiedText.read` : the patch a printed difference stands for.

## Main results

* `Diff.between_unifiedHunks`, `Diff.unifiedHunks_eq_nil` : the hunks are a patch between the two
  sequences, and there are none iff they are the same.
* `UnifiedText.read_print` : printed hunks are read back.
* `Diff.vectDiff_read` : the printed difference is a patch of the lines.
-/

namespace ModDup

open Bytes EditScript

namespace Diff

variable {α : Type} [DecidableEq α]

/-- The hunks of two sequences, as `vectDiff` has them made. -/
def unifiedHunks (a b : List α) : Option (List (Hunk α)) := do
  let c ← (Seqs.init a b).compose maxCordinatesSize
  return composeUnifiedHunks (Seqs.init a b).swapped c.ses

/-- **The hunks of two sequences are a patch between them.** -/
theorem between_unifiedHunks (a b : List α) :
    ∃ hunks, unifiedHunks a b = some hunks ∧
      Patch.Between 1 1 (hunks.map Hunk.toPatch) a b ∧ ∀ h ∈ hunks, h.Shaped := by
  obtain ⟨c, hc, hsrc, hdst, -, hnum⟩ := compose_leads maxCordinatesSize a b
  obtain ⟨hbetween, hshaped⟩ := between_composeUnifiedHunks hnum (Seqs.init a b).swapped
  rw [hsrc, hdst] at hbetween
  exact ⟨_, by simp [unifiedHunks, hc], hbetween, hshaped⟩

/-- There are no hunks iff the sequences are the same. -/
theorem unifiedHunks_eq_nil {a b : List α} : unifiedHunks a b = some [] ↔ a = b := by
  constructor
  · intro h
    obtain ⟨hunks, hhunks, hbetween, -⟩ := between_unifiedHunks a b
    obtain rfl : hunks = [] := Option.some.inj (hhunks.symm.trans h)
    exact hbetween.eq_of_nil
  · rintro rfl
    obtain ⟨c, hc, -, hfewest⟩ := compose_fewest maxCordinatesSize (a := a) (b := a)
      (t := a.map fun x => (.common, x)) (by simp) (by simp)
      (by rw [dels_map_common, Nat.zero_mul]; decide)
    have hfew := hfewest (a.map fun x => (.common, x)) (by simp) (by simp)
    rw [dels_map_common, adds_map_common] at hfew
    have hcommon : ∀ e ∈ c.ses, e.type = .common := fun e he =>
      kind_eq_common_of_no_edit (s := script c.ses) (by omega) (by omega) _
        (List.mem_map_of_mem (f := fun e : SesElem α => (e.type, e.elem)) he)
    simp [unifiedHunks, hc, composeUnifiedHunks_of_common hcommon]

/-- **Hunks and script turn the first sequence into the second one**, as dtl applies them and as
a patch, and the inverse patch turns it back; there is no hunk iff nothing differs. -/
theorem unifiedHunks_patch (a b : List α) :
    ∃ c hunks, (Seqs.init a b).compose maxCordinatesSize = some c ∧
      unifiedHunks a b = some hunks ∧ patch c.ses a = some b ∧ uniPatch hunks a = some b ∧
      Patch.apply 1 (hunks.map Hunk.toPatch) a = some b ∧
      Patch.apply 1 (Patch.inverse (hunks.map Hunk.toPatch)) b = some a ∧
      (hunks = [] ↔ a = b) ∧ ∀ h ∈ hunks, h.Shaped := by
  obtain ⟨c, hc, hsrc, hdst, -⟩ := compose_leads maxCordinatesSize a b
  obtain ⟨hunks, hhunks, hbetween, hshaped⟩ := between_unifiedHunks a b
  have hpatch := patch_eq_some c.ses
  have hnil := unifiedHunks_eq_nil (a := a) (b := b)
  rw [hsrc, hdst] at hpatch
  rw [hhunks, Option.some.injEq] at hnil
  exact ⟨c, hunks, hc, hhunks, hpatch, uniPatch_of_between hbetween hshaped, hbetween.apply,
    hbetween.inverse.apply, hnil, hshaped⟩

end Diff

/-! ### Reading a printed difference -/

namespace UnifiedText

/-- What a mark says about its line. -/
def kindOf : SesType → EditKind
  | .delete => .delete
  | .common => .common
  | .add => .add

/-- A hunk of lines as one of a patch. -/
def toPatch (h : UniHunk) : Patch.Hunk Bytes :=
  ⟨h.a, h.b, h.c, h.d, h.elements.map fun e => (kindOf e.1, e.2)⟩

/-- A number. -/
def number : Scan UInt8 ℕ := fun s => do
  let (ds, s) ← Scan.many1 (fun c => (digit? c).isSome) s
  let n ← ofDecimal 0 ds
  return (n, s)

/-- The numbers of a line that starts a hunk. -/
def header : Scan UInt8 (ℕ × ℕ × ℕ × ℕ) := do
  Scan.lit (str "@@ -")
  let a ← number
  Scan.lit (str ",")
  let b ← number
  Scan.lit (str " +")
  let c ← number
  Scan.lit (str ",")
  let d ← number
  Scan.lit (str " @@")
  return (a, b, c, d)

/-- A line of a hunk. -/
def line : Bytes → Option (EditKind × Bytes)
  | 45 :: l => some (.delete, l)
  | 32 :: l => some (.common, l)
  | 43 :: l => some (.add, l)
  | _ => none

/-- The hunks of some lines, and the lines before the first one. -/
def readLines : List Bytes → Option (List (EditKind × Bytes) × List (Patch.Hunk Bytes))
  | [] => some ([], [])
  | l :: ls => do
    let (body, hunks) ← readLines ls
    match header l with
    | some ((a, b, c, d), []) => some ([], ⟨a, b, c, d, body⟩ :: hunks)
    | _ => do
      let e ← line l
      some (e :: body, hunks)

/-- The patch a printed difference stands for. -/
def read (text : Bytes) : Option (List (Patch.Hunk Bytes)) := do
  let (body, hunks) ← readLines (getlines text)
  if body.isEmpty then some hunks else none

theorem number_decimal (n : ℕ) {s : Bytes} (hs : s.takeWhile (fun c => (digit? c).isSome) = []) :
    number (decimal n ++ s) = some (n, s) := by
  have hdigits : ∀ c ∈ decimal n, (digit? c).isSome = true := by
    intro c hc
    rw [digit?, if_pos (digit_of_mem_decimal hc)]
    rfl
  simp [number, Scan.many1_append hdigits (decimal_ne_nil n) hs, ofDecimal_decimal]

theorem header_header (h : UniHunk) :
    header h.header = some ((h.a, h.b, h.c, h.d), []) := by
  have hcomma : ∀ s : Bytes,
      (str "," ++ s).takeWhile (fun c => (digit? c).isSome) = [] := fun s => by
    simp [str, digit?]
  have hplus : ∀ s : Bytes,
      (str " +" ++ s).takeWhile (fun c => (digit? c).isSome) = [] := fun s => by
    simp [str, digit?]
  have hend : (str " @@").takeWhile (fun c => (digit? c).isSome) = [] := by
    simp [str, digit?]
  have hlit := Scan.lit_append (str " @@") []
  rw [List.append_nil] at hlit
  simp only [UniHunk.header, List.append_assoc]
  rw [header, Scan.bind_eq_of_some (Scan.lit_append _ _),
    Scan.bind_eq_of_some (number_decimal _ (hcomma _)),
    Scan.bind_eq_of_some (Scan.lit_append _ _),
    Scan.bind_eq_of_some (number_decimal _ (hplus _)),
    Scan.bind_eq_of_some (Scan.lit_append _ _),
    Scan.bind_eq_of_some (number_decimal _ (hcomma _)),
    Scan.bind_eq_of_some (Scan.lit_append _ _),
    Scan.bind_eq_of_some (number_decimal _ hend),
    Scan.bind_eq_of_some hlit]
  rfl

/-- A line of a hunk does not start one, and is read back. -/
theorem header_printedLine (e : SesType × Bytes) : header (printedLine e) = none := by
  refine Scan.bind_eq_none (Scan.lit_eq_none ?_) _
  obtain ⟨kind, l⟩ := e
  cases kind <;> simp [printedLine, SesType.mark, str, List.cons_prefix_cons]

theorem line_printedLine (e : SesType × Bytes) :
    line (printedLine e) = some (kindOf e.1, e.2) := by
  obtain ⟨kind, l⟩ := e
  cases kind <;> rfl

theorem readLines_elements (es : List (SesType × Bytes)) {ls : List Bytes}
    {hunks : List (Patch.Hunk Bytes)} (h : readLines ls = some ([], hunks)) :
    readLines (es.map printedLine ++ ls) =
      some (es.map fun e => (kindOf e.1, e.2), hunks) := by
  induction es with
  | nil => exact h
  | cons e es ih =>
    rw [List.map_cons, List.cons_append, readLines, ih]
    simp [header_printedLine, line_printedLine]

theorem readLines_printedLines (hunks : List UniHunk) :
    readLines (printedLines hunks) = some ([], hunks.map toPatch) := by
  induction hunks with
  | nil => rfl
  | cons h hunks ih =>
    have hlines : printedLines (h :: hunks) =
        h.header :: (h.elements.map printedLine ++ printedLines hunks) := by
      simp [printedLines]
    rw [hlines, readLines, readLines_elements _ ih]
    simp [header_header, toPatch]

/-- **Printed hunks are read back.** -/
theorem read_print {hunks : List UniHunk} (h : ∀ x ∈ hunks, ∀ e ∈ x.elements, nl ∉ e.2) :
    read (hunks.flatMap UniHunk.print) = some (hunks.map toPatch) := by
  have hprint : hunks.flatMap UniHunk.print = (printedLines hunks).flatMap fun l => l ++ [nl] := by
    rw [printedLines, List.flatMap_assoc]
    exact List.flatMap_congr fun h _ => UniHunk.print_eq h
  have hlines : ∀ l ∈ printedLines hunks, nl ∉ l := by
    intro l hl
    obtain ⟨x, hx, hl⟩ := List.mem_flatMap.1 hl
    rcases List.mem_cons.1 hl with rfl | hl
    · intro hnl
      rcases mem_header hnl with ⟨hle, -⟩ | hmem
      · exact absurd hle (by decide)
      · exact absurd hmem (by decide)
    · obtain ⟨e, he, rfl⟩ := List.mem_map.1 hl
      have hline := h x hx e he
      obtain ⟨kind, line⟩ := e
      cases kind <;> simpa [printedLine, SesType.mark, str, nl] using hline
  have hget : getlines (hunks.flatMap UniHunk.print) = printedLines hunks := by
    rw [hprint, getlines, splitOn_flatMap_lines hlines]
    simp
  rw [read, hget, readLines_printedLines]
  rfl

end UnifiedText

namespace Diff

/-! ### The difference of two bodies -/

/-- The mark a kind of entry is printed with. -/
def sesType : EditKind → SesType
  | .delete => .delete
  | .common => .common
  | .add => .add

theorem kindOf_sesType (k : EditKind) : UnifiedText.kindOf (sesType k) = k := by
  cases k <;> rfl

theorem kindOf_common : UnifiedText.kindOf .common = .common := rfl

/-- A hunk as it is printed. -/
def Hunk.toUniHunk (h : Hunk Bytes) : UniHunk where
  a := h.a.toNat
  b := h.b.toNat
  c := h.c.toNat
  d := h.d.toNat
  common0 := h.common0.map SesElem.elem
  change := h.change.map fun e => (sesType e.type, e.elem)
  common1 := h.common1.map SesElem.elem

theorem Hunk.Shaped.toPatch_toUniHunk {h : Hunk Bytes} (hs : h.Shaped) :
    UnifiedText.toPatch h.toUniHunk = h.toPatch := by
  have hcommon : h.common0.map (fun e => (EditKind.common, e.elem)) =
      h.common0.map fun e => (e.type, e.elem) :=
    List.map_congr_left fun e he => by rw [hs.common0 e he]
  simp only [UnifiedText.toPatch, Hunk.toUniHunk, Hunk.toPatch, UniHunk.elements, Hunk.elements,
    hs.common1, script, List.map_nil, List.append_nil, List.map_append, List.map_map,
    Function.comp_def, kindOf_sesType, kindOf_common, hcommon]

/-- The difference `vectDiff` is made with. -/
def dtl : Dtl where
  uniHunks src dst := ((unifiedHunks src dst).getD []).map Hunk.toUniHunk
  uniHunks_eq_nil src dst := by
    obtain ⟨hunks, hhunks, -⟩ := between_unifiedHunks src dst
    have hnil := unifiedHunks_eq_nil (a := src) (b := dst)
    rw [hhunks, Option.some.injEq] at hnil
    rw [hhunks, Option.getD_some, List.map_eq_nil_iff, hnil]

theorem toPatch_uniHunks_dtl (src dst : List Bytes) :
    Patch.Between 1 1 ((dtl.uniHunks src dst).map UnifiedText.toPatch) src dst := by
  obtain ⟨hunks, hhunks, hbetween, hshaped⟩ := between_unifiedHunks src dst
  have hmap : (dtl.uniHunks src dst).map UnifiedText.toPatch = hunks.map Hunk.toPatch := by
    simp only [dtl, hhunks, Option.getD_some, List.map_map]
    exact List.map_congr_left fun h hh => (hshaped h hh).toPatch_toUniHunk
  rwa [hmap]

theorem dtl_ofLines : dtl.OfLines := by
  intro src dst h hh e he
  exact (toPatch_uniHunks_dtl src dst).mem _ (List.mem_map_of_mem hh) (_, e.2)
    (List.mem_map_of_mem (f := fun e : SesType × Bytes => (UnifiedText.kindOf e.1, e.2)) he)

/-- **What `vectDiff` prints is a patch of the lines**: read back, it turns the lines of the one
text into those of the other, and its inverse turns them back. -/
theorem vectDiff_read {src dst : List Bytes} (hsrc : ∀ l ∈ src, nl ∉ l)
    (hdst : ∀ l ∈ dst, nl ∉ l) :
    ∃ p, UnifiedText.read (vectDiff dtl src dst) = some p ∧ Patch.apply 1 p src = some dst ∧
      Patch.apply 1 (Patch.inverse p) dst = some src := by
  have hbetween := toPatch_uniHunks_dtl src dst
  refine ⟨_, UnifiedText.read_print fun h hh e he => ?_, hbetween.apply, hbetween.inverse.apply⟩
  exact (dtl_ofLines src dst h hh e he).elim (hsrc e.2) (hdst e.2)

/-- **The difference of two bodies is a patch of their lines**, unless a STOP expression matches
one of them. -/
theorem output_read (c : StringCompareBody) {src dst : Bytes}
    (hsrc : c.checkStopRegex src = false) (hdst : c.checkStopRegex dst = false) :
    ∃ p, UnifiedText.read (c.output dtl src dst) = some p ∧
      Patch.apply 1 p (c.lines src) = some (c.lines dst) ∧
      Patch.apply 1 (Patch.inverse p) (c.lines dst) = some (c.lines src) := by
  rw [StringCompareBody.output, hsrc, hdst]
  exact vectDiff_read (fun l hl => not_mem_of_mem_splitCompress hl)
    fun l hl => not_mem_of_mem_splitCompress hl

theorem output_read_tags :
    ∃ p, UnifiedText.read (StringCompareBody.output dtl {} (str "<a><b>") (str "<a><c>")) =
        some p ∧
      Patch.apply 1 p (StringCompareBody.lines {} (str "<a><b>")) =
        some (StringCompareBody.lines {} (str "<a><c>")) ∧
      Patch.apply 1 (Patch.inverse p) (StringCompareBody.lines {} (str "<a><c>")) =
        some (StringCompareBody.lines {} (str "<a><b>")) :=
  output_read {} rfl rfl

end Diff

end ModDup
