import ModDup.Lib.MapDiff
import ModDup.Compare.Differ

/-!
# The two header comparisons

`MapCompare::retrieveDiff` exists twice (`src/libws_diff/mapCompare.cc`): one calls a printer, the
other writes a text.  Both compute the differences as two `std::set_difference`s of the entries
and join them again by key in a loop that takes the keys of both sides out of one of them.
Here the loops are followed as they run, and compared with the closed form
`MapCompare.headerDiffs` the rest of the development uses.

## Main definitions

* `MapCompare.Rejoin`, `MapCompare.rejoin` : the loop over `diffSrc` and what it works on.
* `MapCompare.retrieveDiffWith` : the overload with a printer, for any `addHeaderDiff`.
* `MapCompare.retrieveDiffText` : the overload with a string.
* `sections` : the text of a list of differences.

## Main results

* `MapCompare.isDiff_headerDiffs` : the closed form is an exact list of the differences.
* `MapCompare.retrieveDiffWith_eq`, `MapCompare.retrieveDiffText_eq` : the loops compute it.
* `MapCompare.retrieveDiff_exact` : one call for each key that differs, one line for each call.
-/

namespace ModDup

open Bytes

/-- `'key' ==> 'value'`. -/
def keyLine (key value : Bytes) : Bytes :=
  str "'" ++ key ++ str "' ==> " ++ str "'" ++ value ++ str "'" ++ [nl]

/-- `'key' ==> 'src'/'dst'`. -/
def valueLine (key src dst : Bytes) : Bytes :=
  str "'" ++ key ++ str "' ==> " ++ str "'" ++ src ++ str "'/'" ++ dst ++ str "'" ++ [nl]

namespace MapCompare

/-! ### The loops -/

/-- What the loop over `diffSrc` works on: what has been reported, the entries of `dst` that are
left, and the keys seen on both sides. -/
structure Rejoin (σ : Type*) where
  out : σ
  diffDst : MapStr
  valueDiff : OrdMap Bytes (Bytes × Bytes)

section Rejoin

variable {σ : Type*} (missing : σ → KeyVal → σ)

/-- One turn of the loop over `diffSrc`; `missing` reports a key that `dst` has not. -/
def Rejoin.step (s : Rejoin σ) (e : KeyVal) : Rejoin σ :=
  match s.diffDst.get? e.1 with
  | none => { s with out := missing s.out e }
  | some v =>
    { s with
      valueDiff := s.valueDiff.insertNew e.1 (e.2, v)
      diffDst := s.diffDst.erase e.1 }

/-- The loop over `diffSrc`. -/
def rejoin (out : σ) (diffSrc diffDst : MapStr) : Rejoin σ :=
  diffSrc.entries.foldl (Rejoin.step missing) ⟨out, diffDst, .empty⟩

end Rejoin

/-- `MapCompare::retrieveDiff` with a printer, whose `addHeaderDiff` is `add`. -/
def retrieveDiffWith {σ : Type*} (add : σ → HeaderDiff → σ) (c : MapCompare) (src dst : MapStr)
    (printer : σ) : Bool × σ :=
  if c.checkStop src || c.checkStop dst then (false, printer)
  else
    let dupSrc := c.applyIgnoreRegex src
    let dupDst := c.applyIgnoreRegex dst
    let diffSrc := dupSrc.difference dupDst
    let diffDst := dupDst.difference dupSrc
    let r := rejoin (fun p e => add p (e.1, some e.2, none)) printer diffSrc diffDst
    let printer := r.diffDst.entries.foldl (fun p e => add p (e.1, none, some e.2)) r.out
    let printer :=
      r.valueDiff.entries.foldl (fun p e => add p (e.1, some e.2.1, some e.2.2)) printer
    (true, printer)

/-- `MapCompare::retrieveDiff` with a string. -/
def retrieveDiffText (c : MapCompare) (src dst : MapStr) (output : Bytes) : Bool × Bytes :=
  if c.checkStop src || c.checkStop dst then (false, output)
  else
    let dupSrc := c.applyIgnoreRegex src
    let dupDst := c.applyIgnoreRegex dst
    let diffSrc := dupSrc.difference dupDst
    let diffDst := dupDst.difference dupSrc
    let stream : Bytes :=
      if 0 < diffSrc.entries.length then str "Key missing in the destination map :" ++ [nl] else []
    let r := rejoin (fun out e => out ++ keyLine e.1 e.2) stream diffSrc diffDst
    let stream := r.out ++
      if 0 < r.diffDst.entries.length then
        str "Key missing in src map :" ++ [nl] ++
          r.diffDst.entries.flatMap fun e => keyLine e.1 e.2
      else []
    let stream := stream ++
      if 0 < r.valueDiff.entries.length then
        str "Key with value differences :" ++ [nl] ++
          r.valueDiff.entries.flatMap fun e => valueLine e.1 e.2.1 e.2.2
      else []
    (true, stream)

/-! ### What the loop leaves -/

section Rejoin

variable {σ : Type*} {missing : σ → KeyVal → σ}

theorem Rejoin.step_of_none {s : Rejoin σ} {e : KeyVal} (h : s.diffDst.get? e.1 = none) :
    Rejoin.step missing s e = { s with out := missing s.out e } := by
  rw [Rejoin.step, h]

theorem Rejoin.step_of_some {s : Rejoin σ} {e : KeyVal} {v : Bytes}
    (h : s.diffDst.get? e.1 = some v) :
    Rejoin.step missing s e =
      { s with
        valueDiff := s.valueDiff.insertNew e.1 (e.2, v)
        diffDst := s.diffDst.erase e.1 } := by
  rw [Rejoin.step, h]

/-- The loop from any state whose `valueDiff` holds smaller keys: a key is reported if `dst` has
not got it, and otherwise moved from `diffDst` to `valueDiff`. -/
theorem foldl_step {l : List KeyVal} (hl : l.Pairwise fun a b => a.1 < b.1) (s : Rejoin σ)
    (hlt : ∀ e ∈ s.valueDiff.entries, ∀ e' ∈ l, e.1 < e'.1) :
    let r := l.foldl (Rejoin.step missing) s
    r.out = (l.filter fun e => (s.diffDst.get? e.1).isNone).foldl missing s.out ∧
      r.diffDst.entries = s.diffDst.entries.filter (fun e => e.1 ∉ l.map Prod.fst) ∧
      r.valueDiff.entries = s.valueDiff.entries ++
        l.filterMap fun e => (s.diffDst.get? e.1).map fun v => (e.1, e.2, v) := by
  induction l generalizing s with
  | nil => simp
  | cons e l ih =>
    obtain ⟨he, hl⟩ := List.pairwise_cons.1 hl
    have hout : ∀ e' ∈ s.valueDiff.entries, e'.1 < e.1 :=
      fun e' he' => hlt e' he' e List.mem_cons_self
    -- what stands behind `e` has other keys, so erasing `e` does not change its lookups
    have herase : ∀ e' ∈ l, (s.diffDst.erase e.1).get? e'.1 = s.diffDst.get? e'.1 :=
      fun e' he' => by rw [OrdMap.get?_erase, if_neg (he e' he').ne']
    cases hget : s.diffDst.get? e.1 with
    | none =>
      obtain ⟨h1, h2, h3⟩ := ih hl { s with out := missing s.out e }
        fun a ha b hb => (hout a ha).trans (he b hb)
      have hkey : ∀ a ∈ s.diffDst.entries, a.1 ≠ e.1 := by
        intro a ha hk
        have hnot := (OrdMap.isNone_get?_iff s.diffDst e.1).1 (by rw [hget]; rfl)
        exact hnot (hk ▸ List.mem_map_of_mem ha)
      refine ⟨?_, ?_, ?_⟩
      · rw [List.foldl_cons, Rejoin.step_of_none hget, h1, List.filter_cons_of_pos (by simp [hget]),
          List.foldl_cons]
      · rw [List.foldl_cons, Rejoin.step_of_none hget, h2]
        refine List.filter_congr fun a ha => ?_
        simp only [List.map_cons, List.mem_cons, hkey a ha, false_or]
      · rw [List.foldl_cons, Rejoin.step_of_none hget, h3,
          List.filterMap_cons_none (by simp [hget])]
    | some v =>
      have hnew := OrdMap.entries_insertNew_of_lt (v := (e.2, v)) hout
      obtain ⟨h1, h2, h3⟩ := ih hl
        { s with
          valueDiff := s.valueDiff.insertNew e.1 (e.2, v)
          diffDst := s.diffDst.erase e.1 } fun a ha b hb => by
          rw [hnew, List.mem_append, List.mem_singleton] at ha
          rcases ha with ha | rfl
          · exact (hout a ha).trans (he b hb)
          · exact he b hb
      refine ⟨?_, ?_, ?_⟩
      · rw [List.foldl_cons, Rejoin.step_of_some hget, h1, List.filter_cons_of_neg (by simp [hget])]
        congr 1
        exact List.filter_congr fun a ha => by rw [herase a ha]
      · rw [List.foldl_cons, Rejoin.step_of_some hget, h2]
        simp only [OrdMap.erase, List.filter_filter]
        refine List.filter_congr fun a _ => ?_
        by_cases hk : a.1 = e.1 <;> simp [hk]
      · have hcongr : (l.filterMap fun a => ((s.diffDst.erase e.1).get? a.1).map fun w =>
            (a.1, a.2, w)) = l.filterMap fun a => (s.diffDst.get? a.1).map fun w => (a.1, a.2, w) :=
          List.filterMap_congr fun a ha => by rw [herase a ha]
        rw [List.foldl_cons, Rejoin.step_of_some hget, h3, hnew, List.append_assoc, hcongr,
          List.filterMap_cons_some (b := (e.1, e.2, v)) (by simp [hget])]
        rfl

theorem out_rejoin (out : σ) (diffSrc diffDst : MapStr) :
    (rejoin missing out diffSrc diffDst).out =
      (diffSrc.entries.filter fun e => (diffDst.get? e.1).isNone).foldl missing out :=
  (foldl_step diffSrc.sorted _ (by simp [OrdMap.empty])).1

theorem diffDst_rejoin (out : σ) (diffSrc diffDst : MapStr) :
    (rejoin missing out diffSrc diffDst).diffDst.entries =
      diffDst.entries.filter fun e => (diffSrc.get? e.1).isNone := by
  refine (foldl_step diffSrc.sorted _ (by simp [OrdMap.empty])).2.1.trans
    (List.filter_congr fun e _ => ?_)
  rw [Bool.eq_iff_iff, decide_eq_true_iff, OrdMap.isNone_get?_iff]

theorem valueDiff_rejoin (out : σ) (diffSrc diffDst : MapStr) :
    (rejoin missing out diffSrc diffDst).valueDiff.entries =
      diffSrc.entries.filterMap fun e => (diffDst.get? e.1).map fun v => (e.1, e.2, v) :=
  (foldl_step diffSrc.sorted _ (by simp [OrdMap.empty])).2.2

end Rejoin

/-! ### The closed form -/

theorem setDifference_eq (m m' : MapStr) : setDifference m m' = (m.difference m').entries :=
  List.filter_congr fun _ _ => decide_eq_decide.2 Iff.rfl

theorem headerDiffs_eq (src dst : MapStr) :
    headerDiffs src dst =
      (((src.difference dst).entries.filter fun e =>
        ((dst.difference src).get? e.1).isNone).map fun e => (e.1, some e.2, none)) ++
      (((dst.difference src).entries.filter fun e =>
        ((src.difference dst).get? e.1).isNone).map fun e => (e.1, none, some e.2)) ++
      (((src.difference dst).entries.filterMap fun e =>
        ((dst.difference src).get? e.1).map fun v => (e.1, e.2, v)).map fun e =>
          (e.1, some e.2.1, some e.2.2)) := by
  simp only [headerDiffs, setDifference_eq, OrdMap.lookup_entries, List.map_filterMap,
    Option.map_map, Function.comp_def]

/-- The closed form is exact: of each key, at most one of the three parts has an entry. -/
theorem isDiff_headerDiffs (src dst : MapStr) :
    IsDiff src.get? dst.get? (headerDiffs src dst) := by
  intro k
  have hsrc := OrdMap.get?_difference src dst k
  have hdst := OrdMap.get?_difference dst src k
  rw [headerDiffs_eq, List.filter_append, List.filter_append, OrdMap.filter_key_map_filter,
    OrdMap.filter_key_map_filter, List.map_filterMap, OrdMap.filter_key_filterMap]
  · cases hs : src.get? k with
    | none =>
      cases ht : dst.get? k with
      | none => simp [hsrc, hdst, hs, ht]
      | some w => simp [hsrc, hdst, hs, ht]
    | some v =>
      cases ht : dst.get? k with
      | none => simp [hsrc, hdst, hs, ht]
      | some w =>
        by_cases h : v = w
        · simp [hsrc, hdst, hs, ht, h]
        · simp [hsrc, hdst, hs, ht, h, Ne.symm h]
  · rintro e d h
    rw [Option.map_map] at h
    obtain ⟨v, -, rfl⟩ := Option.map_eq_some_iff.1 h
    rfl
  · exact fun _ => rfl
  · exact fun _ => rfl

/-- The overload with a printer reports the closed form, whatever the printer does with it. -/
theorem retrieveDiffWith_eq {σ : Type*} (add : σ → HeaderDiff → σ) (c : MapCompare)
    (src dst : MapStr) (printer : σ) :
    c.retrieveDiffWith add src dst printer =
      match c.diffs? src dst with
      | none => (false, printer)
      | some ds => (true, ds.foldl add printer) := by
  unfold retrieveDiffWith diffs?
  by_cases h : (c.checkStop src || c.checkStop dst) = true
  · rw [if_pos h, if_pos h]
  · rw [if_neg h, if_neg h]
    simp only [out_rejoin, diffDst_rejoin, valueDiff_rejoin, headerDiffs_eq, List.foldl_append,
      List.foldl_map]

/-- It is the comparison of the filter when the printer is one of `src/libws_diff`. -/
theorem retrieveDiffWith_addHeaderDiff (c : MapCompare) (src dst : MapStr) (p : DiffPrinter) :
    c.retrieveDiffWith (fun p d => p.addHeaderDiff d.1 d.2.1 d.2.2) src dst p =
      c.retrieveDiff src dst p :=
  retrieveDiffWith_eq _ c src dst p

/-! ### The text -/

/-- The text of one difference: a line with the value of the side that has the key, or with both
values. -/
def diffLine (d : HeaderDiff) : Bytes :=
  match d.2.1, d.2.2 with
  | some v, some w => valueLine d.1 v w
  | some v, none => keyLine d.1 v
  | none, some w => keyLine d.1 w
  | none, none => []

/-- The lines of the differences with the given sides. -/
def sectionLines (ds : List HeaderDiff) (inSrc inDst : Bool) : Bytes :=
  (ds.filter fun d => d.2.1.isSome = inSrc ∧ d.2.2.isSome = inDst).flatMap diffLine

/-- The text of the differences: the keys of the source only, those of the destination only,
those of both.  The first title is also there when all keys of the source differ in value. -/
def sections (ds : List HeaderDiff) : Bytes :=
  ((if ds.any fun d => d.2.1.isSome then
      str "Key missing in the destination map :" ++ [nl] else []) ++
    sectionLines ds true false) ++
  ((if ds.any fun d => !d.2.1.isSome then str "Key missing in src map :" ++ [nl] else []) ++
    sectionLines ds false true) ++
  ((if ds.any fun d => d.2.1.isSome && d.2.2.isSome then
      str "Key with value differences :" ++ [nl] else []) ++
    sectionLines ds true true)

theorem sectionLines_append (ds ds' : List HeaderDiff) (inSrc inDst : Bool) :
    sectionLines (ds ++ ds') inSrc inDst =
      sectionLines ds inSrc inDst ++ sectionLines ds' inSrc inDst := by
  rw [sectionLines, List.filter_append, List.flatMap_append]
  rfl

theorem sectionLines_map {α : Type*} (l : List α) {f : α → HeaderDiff} {s d : Bool}
    (hs : ∀ e, (f e).2.1.isSome = s) (hd : ∀ e, (f e).2.2.isSome = d) (inSrc inDst : Bool) :
    sectionLines (l.map f) inSrc inDst =
      if s = inSrc ∧ d = inDst then l.flatMap fun e => diffLine (f e) else [] := by
  rw [sectionLines, List.filter_map]
  have hp : ((fun d : HeaderDiff => decide (d.2.1.isSome = inSrc ∧ d.2.2.isSome = inDst)) ∘ f) =
      fun _ => decide (s = inSrc ∧ d = inDst) := by
    funext e
    simp [hs, hd]
  rw [hp]
  split_ifs with h <;> simp [h, List.flatMap_map]

theorem sections_append (l l' : List KeyVal) (l'' : List (Bytes × Bytes × Bytes)) :
    sections (l.map (fun e => (e.1, some e.2, none)) ++ l'.map (fun e => (e.1, none, some e.2)) ++
        l''.map fun e => (e.1, some e.2.1, some e.2.2)) =
      ((if l ≠ [] ∨ l'' ≠ [] then str "Key missing in the destination map :" ++ [nl] else []) ++
        l.flatMap fun e => keyLine e.1 e.2) ++
      ((if l' ≠ [] then str "Key missing in src map :" ++ [nl] else []) ++
        l'.flatMap fun e => keyLine e.1 e.2) ++
      ((if l'' ≠ [] then str "Key with value differences :" ++ [nl] else []) ++
        l''.flatMap fun e => valueLine e.1 e.2.1 e.2.2) := by
  have hany : ∀ {α : Type} (l : List α), (l.any fun _ => true) = decide (l ≠ []) := by
    intro α l
    cases l <;> simp
  have hsrc : ∀ a b, sectionLines (l.map fun e => (e.1, some e.2, none)) a b =
      if true = a ∧ false = b then l.flatMap fun e => keyLine e.1 e.2 else [] :=
    sectionLines_map l (fun _ => rfl) fun _ => rfl
  have hdst : ∀ a b, sectionLines (l'.map fun e => (e.1, none, some e.2)) a b =
      if false = a ∧ true = b then l'.flatMap fun e => keyLine e.1 e.2 else [] :=
    sectionLines_map l' (fun _ => rfl) fun _ => rfl
  have hboth : ∀ a b, sectionLines (l''.map fun e => (e.1, some e.2.1, some e.2.2)) a b =
      if true = a ∧ true = b then l''.flatMap fun e => valueLine e.1 e.2.1 e.2.2 else [] :=
    sectionLines_map l'' (fun _ => rfl) fun _ => rfl
  simp [sections, sectionLines_append, hsrc, hdst, hboth, Function.comp_def, hany]

theorem length_pos_iff_parts (diffSrc diffDst : MapStr) :
    0 < diffSrc.entries.length ↔
      (diffSrc.entries.filter fun e => (diffDst.get? e.1).isNone) ≠ [] ∨
        (diffSrc.entries.filterMap fun e =>
          (diffDst.get? e.1).map fun v => (e.1, e.2, v)) ≠ [] := by
  rw [List.length_pos_iff, ← not_iff_not, not_or, not_not, not_not, not_not,
    List.filter_eq_nil_iff, List.filterMap_eq_nil_iff]
  constructor
  · intro h
    simp [h]
  · rintro ⟨hnone, hsome⟩
    refine List.eq_nil_iff_forall_not_mem.2 fun e he => hnone e he ?_
    rw [Option.isNone_iff_eq_none]
    exact Option.map_eq_none_iff.1 (hsome e he)

theorem ite_title {α : Type*} (l : List α) (title : Bytes) (f : α → Bytes) :
    (if 0 < l.length then title ++ l.flatMap f else []) =
      (if l ≠ [] then title else []) ++ l.flatMap f := by
  cases l <;> simp

theorem retrieveDiffText_eq (c : MapCompare) (src dst : MapStr) (output : Bytes) :
    c.retrieveDiffText src dst output =
      match c.diffs? src dst with
      | none => (false, output)
      | some ds => (true, sections ds) := by
  unfold retrieveDiffText diffs?
  by_cases h : (c.checkStop src || c.checkStop dst) = true
  · rw [if_pos h, if_pos h]
  · rw [if_neg h, if_neg h]
    simp only [headerDiffs_eq, sections_append, out_rejoin, diffDst_rejoin, valueDiff_rejoin,
      List.foldl_append_eq_append, ← List.flatMap_def, ite_title, ← length_pos_iff_parts]

/-! ### Exactness -/

/-- The calls `retrieveDiff` makes, in their order, with what it returns. -/
def calls (c : MapCompare) (src dst : MapStr) : Bool × List HeaderDiff :=
  c.retrieveDiffWith (fun ds d => ds ++ [d]) src dst []

theorem calls_eq (c : MapCompare) (src dst : MapStr) :
    c.calls src dst = match c.diffs? src dst with
      | none => (false, [])
      | some ds => (true, ds) := by
  rw [calls, retrieveDiffWith_eq]
  cases c.diffs? src dst with
  | none => rfl
  | some ds => simp [← List.flatMap_def]

/-- Nothing is reported and `false` returned iff a STOP expression matches on one of the sides;
otherwise each key that differs is reported once with its two values and no other key is.  With
the sides swapped the reports are swapped.  A printer gets just these calls, and the text has a
line for each of them in the section of its kind. -/
theorem retrieveDiff_exact (c : MapCompare) (src dst : MapStr) :
    let ds := (c.calls src dst).2
    let s := c.applyIgnoreRegex src
    let t := c.applyIgnoreRegex dst
    (c.calls src dst = (false, []) ↔ c.checkStop src = true ∨ c.checkStop dst = true) ∧
      ((c.calls src dst).1 = false ↔ c.checkStop src = true ∨ c.checkStop dst = true) ∧
      ((c.calls src dst).1 = true → ∀ k, (ds.filter fun d => d.1 = k) =
        if s.get? k = t.get? k then [] else [(k, s.get? k, t.get? k)]) ∧
      (c.calls dst src).1 = (c.calls src dst).1 ∧
      (c.calls dst src).2.Perm (ds.map fun d => (d.1, d.2.2, d.2.1)) ∧
      (∀ (σ : Type) (addHeaderDiff : σ → HeaderDiff → σ) (printer : σ),
        c.retrieveDiffWith addHeaderDiff src dst printer =
          ((c.calls src dst).1, ds.foldl addHeaderDiff printer)) ∧
      ∀ output, c.retrieveDiffText src dst output =
        ((c.calls src dst).1, if (c.calls src dst).1 then sections ds else output) := by
  have hstop : (c.checkStop src || c.checkStop dst) = true ↔
      c.checkStop src = true ∨ c.checkStop dst = true := Bool.or_eq_true_iff
  simp only [calls_eq, retrieveDiffWith_eq, retrieveDiffText_eq, diffs?, ← hstop,
    Bool.or_comm (c.checkStop dst)]
  by_cases h : (c.checkStop src || c.checkStop dst) = true
  · simp [h]
  · have hexact := isDiff_headerDiffs (c.applyIgnoreRegex src) (c.applyIgnoreRegex dst)
    have hswap := isDiff_headerDiffs (c.applyIgnoreRegex dst) (c.applyIgnoreRegex src)
    simp only [if_neg h]
    exact ⟨by simp [h], by simp [h], fun _ => hexact, trivial, hswap.perm hexact.swap,
      fun _ _ _ => trivial, fun _ => rfl⟩

end MapCompare

end ModDup
