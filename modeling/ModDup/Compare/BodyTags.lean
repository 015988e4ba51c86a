import ModDup.Compare.Filters

/-!
# The difference counters of a JSON record

For a body difference `jsonDiffPrinter::addFullDiff` counts the added and the deleted lines with a
tag and lists their first tags (`src/libws_diff/DiffPrinter/jsonDiffPrinter.cc`).  It has only the
printed difference to go by, and takes a line for an added one if there is a `+` in it before the
first `<`, else for a deleted one if there is a `-`.  The mark of the line is such a character; a
character of the line itself counts the same.

## Main definitions

* `UniHunk.elements`, `StringCompareBody.diffElements` : the lines of a difference, with their kind.
* `firstTags` : the first tags of the lines of one kind.
* `BodyCounters` : the record counts the added and the deleted lines.

## Main results

* `diffTags_printedLines` : the tags the printer finds, from the lines of the difference.
* `body_counters_iff` : when the record counts them.
-/

namespace ModDup

open Bytes

/-! ### The lines of a difference -/

/-- The lines of a hunk, with their kind. -/
def UniHunk.elements (h : UniHunk) : List (SesType × Bytes) :=
  h.common0.map (fun l => (.common, l)) ++ h.change ++ h.common1.map fun l => (.common, l)

/-- The line before a hunk. -/
def UniHunk.header (h : UniHunk) : Bytes :=
  str "@@ -" ++ decimal h.a ++ str "," ++ decimal h.b ++ str " +" ++ decimal h.c ++ str "," ++
    decimal h.d ++ str " @@"

/-- A line of a difference as it is printed. -/
def printedLine (e : SesType × Bytes) : Bytes := e.1.mark ++ e.2

/-- The lines of the hunks are lines of the texts. -/
def Dtl.OfLines (dtl : Dtl) : Prop :=
  ∀ src dst, ∀ h ∈ dtl.uniHunks src dst, ∀ e ∈ h.elements, e.2 ∈ src ∨ e.2 ∈ dst

/-- The difference of two bodies, line by line; none is made when a STOP expression matches. -/
def StringCompareBody.diffElements (dtl : Dtl) (c : StringCompareBody) (src dst : Bytes) :
    List (SesType × Bytes) :=
  if c.checkStopRegex src || c.checkStopRegex dst then []
  else (dtl.uniHunks (c.lines src) (c.lines dst)).flatMap UniHunk.elements

/-- The first tags of the lines of one kind that have one. -/
def firstTags (kind : SesType) (es : List (SesType × Bytes)) : List Bytes :=
  (es.filter fun e => e.1 = kind).filterMap fun e => DiffPrinter.tagToIdentify 60 62 e.2

/-- `mJsonRes["diff"]["body"]`. -/
def DiffPrinter.body (p : DiffPrinter) : Json := p.mJsonRes.atPath [str "diff", str "body"]

/-- The number a member holds, 0 when it is not there. -/
def Json.count : Json → ℤ
  | .int i => i
  | _ => 0

/-- The texts of an array, none when it is not there. -/
def Json.texts : Json → List Bytes
  | .array l => l.filterMap fun j => match j with
    | .string s => some s
    | _ => none
  | _ => []

/-- A member lists a set of texts, each of them once. -/
def Json.ListsSet (j : Json) (tags : List Bytes) : Prop :=
  j.texts.Nodup ∧ ∀ t, t ∈ j.texts ↔ t ∈ tags

/-- Two members of the body difference count some tags and list them. -/
def DiffPrinter.Counts (p : DiffPrinter) (counter list : Bytes) (tags : List Bytes) : Prop :=
  (p.body.member counter).count = tags.length ∧ (p.body.member list).ListsSet tags

/-- The record of `p` counts the added and the deleted lines with a tag, and lists their first
tags. -/
structure BodyCounters (p : DiffPrinter) (es : List (SesType × Bytes)) : Prop where
  added : p.Counts (str "posDiff") (str "posList") (firstTags .add es)
  deleted : p.Counts (str "negDiff") (str "negList") (firstTags .delete es)

theorem UniHunk.print_eq (h : UniHunk) :
    h.print = (h.header :: h.elements.map printedLine).flatMap fun l => l ++ [nl] := by
  have hnl : str " @@\n" = str " @@" ++ [nl] := by decide
  rw [UniHunk.print, hnl, UniHunk.elements, UniHunk.header]
  simp [printedLine, List.flatMap_map, List.map_append, List.flatMap_append]

theorem splitOn_flatMap_lines {ls : List Bytes} (h : ∀ l ∈ ls, nl ∉ l) :
    (ls.flatMap fun l => l ++ [nl]).splitOn nl = ls ++ [[]] := by
  induction ls with
  | nil => rfl
  | cons l ls ih =>
    obtain ⟨hl, hls⟩ := List.forall_mem_cons.1 h
    rw [List.flatMap_cons, List.append_assoc, List.singleton_append,
      List.splitOn_append_cons_self, ih hls, List.splitOn_eq_singleton hl]
    rfl

theorem splitCompress_flatMap_lines {ls : List Bytes} (h : ∀ l ∈ ls, l ≠ [] ∧ nl ∉ l) :
    splitCompress nl (ls.flatMap fun l => l ++ [nl]) = ls ++ [[]] := by
  rw [splitCompress, splitOn_flatMap_lines fun l hl => (h l hl).2]
  cases ls with
  | nil => rfl
  | cons l ls =>
    obtain ⟨q, ps, hq⟩ := List.exists_cons_of_ne_nil
      (List.append_ne_nil_of_right_ne_nil ls (List.cons_ne_nil ([] : Bytes) []))
    have hne : ∀ l ∈ ls, decide (l ≠ []) = true := fun l hl => by
      simpa using (h l (List.mem_cons_of_mem _ hl)).1
    rw [List.cons_append, hq]
    dsimp only
    rw [← hq, List.dropLast_concat, List.getLastD_concat, List.filter_eq_self.2 hne]

/-! ### The tag and the sign of a line -/

theorem find_cons_of_ne {x c : UInt8} (h : c ≠ x) (s : Bytes) :
    find [x] (c :: s) = (find [x] s).map (· + 1) := by
  rw [find, if_neg]
  simpa [List.isPrefixOf] using fun hx : x = c => h hx.symm

theorem find_cons_self (x : UInt8) (s : Bytes) : find [x] (x :: s) = some 0 := by
  rw [find, if_pos]
  simp [List.isPrefixOf]

namespace DiffPrinter

theorem tagToIdentify_eq_none {opening closing : UInt8} {line : Bytes} (h : opening ∉ line) :
    tagToIdentify opening closing line = none := by
  rw [tagToIdentify, find_singleton_eq_none h]
  rfl

theorem tagToIdentify_cons_of_ne {opening closing c : UInt8} (h : c ≠ opening) (line : Bytes) :
    tagToIdentify opening closing (c :: line) = tagToIdentify opening closing line := by
  rw [tagToIdentify, tagToIdentify, find_cons_of_ne h]
  cases find [opening] line <;> rfl

theorem findLt_cons_of_ne {a b c : UInt8} (ha : c ≠ a) (hb : c ≠ b) (line : Bytes) :
    findLt a b (c :: line) = findLt a b line := by
  rw [findLt, findLt, find_cons_of_ne ha, find_cons_of_ne hb]
  cases find [a] line <;> cases find [b] line <;> simp

theorem findLt_cons_self {a b : UInt8} (h : a ≠ b) (line : Bytes) :
    findLt a b (a :: line) = true := by
  rw [findLt, find_cons_self, find_cons_of_ne h]
  cases find [b] line <;> simp

theorem findLt_iff {a b : UInt8} (h : a ≠ b) (line : Bytes) :
    findLt a b line = true ↔ a ∈ line.takeWhile (· ≠ b) := by
  induction line with
  | nil => simp [findLt, find]
  | cons c line ih =>
    by_cases ha : c = a
    · subst ha
      simp [findLt_cons_self h, h]
    · by_cases hb : c = b
      · subst hb
        rw [findLt, find_cons_self, find_cons_of_ne ha]
        cases find [a] line <;> simp
      · rw [findLt_cons_of_ne ha hb, ih]
        simp [hb, Ne.symm ha]

end DiffPrinter

open DiffPrinter

/-- The line counts as an added one. -/
def posSign (e : SesType × Bytes) : Bool := e.1 = .add || findLt 43 60 e.2

/-- The line counts as a deleted one. -/
def negSign (e : SesType × Bytes) : Bool :=
  !posSign e && (e.1 = .delete || findLt 45 60 e.2)

/-- The lines with a tag, and the first tag of each. -/
def taggedLines (es : List (SesType × Bytes)) : List ((SesType × Bytes) × Bytes) :=
  es.filterMap fun e => (tagToIdentify 60 62 e.2).map fun tag => (e, tag)

theorem tagToIdentify_printedLine (e : SesType × Bytes) :
    tagToIdentify 60 62 (printedLine e) = tagToIdentify 60 62 e.2 := by
  obtain ⟨kind, line⟩ := e
  cases kind <;> exact tagToIdentify_cons_of_ne (by decide) line

theorem posSign_eq (e : SesType × Bytes) : findLt 43 60 (printedLine e) = posSign e := by
  obtain ⟨kind, line⟩ := e
  cases kind with
  | add => exact findLt_cons_self (by decide) line
  | delete => exact findLt_cons_of_ne (by decide) (by decide) line
  | common => exact findLt_cons_of_ne (by decide) (by decide) line

theorem negSign_eq (e : SesType × Bytes) :
    (!posSign e && findLt 45 60 (printedLine e)) = negSign e := by
  rw [negSign]
  congr 1
  obtain ⟨kind, line⟩ := e
  cases kind with
  | add => exact findLt_cons_of_ne (by decide) (by decide) line
  | delete => exact findLt_cons_self (by decide) line
  | common => exact findLt_cons_of_ne (by decide) (by decide) line

theorem mem_header {h : UniHunk} {c : UInt8} (hc : c ∈ h.header) :
    48 ≤ c ∧ c ≤ 57 ∨ c ∈ str "@ -,+" := by
  have hstart : ∀ c ∈ str "@@ -", c ∈ str "@ -,+" := by decide +kernel
  have hcomma : ∀ c ∈ str ",", c ∈ str "@ -,+" := by decide +kernel
  have hplus : ∀ c ∈ str " +", c ∈ str "@ -,+" := by decide +kernel
  have hend : ∀ c ∈ str " @@", c ∈ str "@ -,+" := by decide +kernel
  simp only [UniHunk.header, List.mem_append] at hc
  rcases hc with (((((((hc | hc) | hc) | hc) | hc) | hc) | hc) | hc) | hc
  · exact .inr (hstart c hc)
  · exact .inl (digit_of_mem_decimal hc)
  · exact .inr (hcomma c hc)
  · exact .inl (digit_of_mem_decimal hc)
  · exact .inr (hplus c hc)
  · exact .inl (digit_of_mem_decimal hc)
  · exact .inr (hcomma c hc)
  · exact .inl (digit_of_mem_decimal hc)
  · exact .inr (hend c hc)

/-- The lines of the printed hunks. -/
def printedLines (hunks : List UniHunk) : List Bytes :=
  hunks.flatMap fun h => h.header :: h.elements.map printedLine

/-- **The tags the printer finds**: a hunk header has none, a line counts by its sign. -/
theorem diffTags_printedLines (hunks : List UniHunk) :
    diffTags 60 62 (printedLines hunks ++ [[]]) =
      (((taggedLines (hunks.flatMap UniHunk.elements)).filter fun x => posSign x.1).map Prod.snd,
        ((taggedLines (hunks.flatMap UniHunk.elements)).filter fun x => negSign x.1).map
          Prod.snd) := by
  have hhunk (h : UniHunk) : (h.header :: h.elements.map printedLine).filterMap
      (fun line => (tagToIdentify 60 62 line).map fun tag => (line, tag)) =
      (taggedLines h.elements).map fun x => (printedLine x.1, x.2) := by
    have hheader : tagToIdentify 60 62 h.header = none := by
      refine tagToIdentify_eq_none fun h60 => ?_
      rcases mem_header h60 with ⟨-, hle⟩ | hmem
      · exact absurd hle (by decide)
      · exact absurd hmem (by decide)
    rw [List.filterMap_cons_none (by rw [hheader]; rfl), List.filterMap_map, taggedLines,
      List.map_filterMap]
    refine List.filterMap_congr fun e _ => ?_
    simp only [Function.comp_apply, tagToIdentify_printedLine]
    cases tagToIdentify 60 62 e.2 <;> rfl
  have htagged : (printedLines hunks ++ [[]]).filterMap
      (fun line => (tagToIdentify 60 62 line).map fun tag => (line, tag)) =
      (taggedLines (hunks.flatMap UniHunk.elements)).map fun x => (printedLine x.1, x.2) := by
    rw [List.filterMap_append, printedLines, List.filterMap_flatMap]
    simp only [hhunk]
    rw [taggedLines, List.filterMap_flatMap, List.map_flatMap]
    exact List.append_nil _
  simp only [diffTags, htagged, List.filter_map, List.map_map, Function.comp_def, posSign_eq,
    negSign_eq]

/-! ### The counters of a record -/

theorem not_mem_of_mem_splitCompress {sep : UInt8} {s w : Bytes} (h : w ∈ splitCompress sep s) :
    sep ∉ w := by
  have hsplit : w ∈ s.splitOn sep := by
    unfold splitCompress at h
    split at h
    · cases h
    · rename_i p hp
      rwa [hp]
    · rename_i p q ps hp
      rw [hp]
      rcases List.mem_cons.1 h with rfl | h
      · exact List.mem_cons_self
      · refine List.mem_cons_of_mem p ?_
        rcases List.mem_append.1 h with h | h
        · exact List.mem_of_mem_dropLast (List.mem_filter.1 h).1
        · rw [List.mem_singleton.1 h, List.getLastD_cons, ← List.getLast_eq_getLastD]
          exact List.getLast_mem (List.cons_ne_nil q ps)
  exact (of_mem_splitOn hsplit).1

theorem splitCompress_output {dtl : Dtl} (hdtl : dtl.OfLines) (c : StringCompareBody)
    (src dst : Bytes) :
    splitCompress nl (vectDiff dtl (c.lines src) (c.lines dst)) =
      printedLines (dtl.uniHunks (c.lines src) (c.lines dst)) ++ [[]] := by
  have hprint : vectDiff dtl (c.lines src) (c.lines dst) =
      (printedLines (dtl.uniHunks (c.lines src) (c.lines dst))).flatMap fun l => l ++ [nl] := by
    rw [vectDiff, printedLines, List.flatMap_assoc]
    exact List.flatMap_congr fun h _ => UniHunk.print_eq h
  rw [hprint]
  refine splitCompress_flatMap_lines fun l hl => ?_
  obtain ⟨h, hh, hl⟩ := List.mem_flatMap.1 hl
  rcases List.mem_cons.1 hl with rfl | hl
  · refine ⟨?_, fun hnl => ?_⟩
    · simp [UniHunk.header, str]
    · rcases mem_header hnl with ⟨hle, -⟩ | hmem
      · exact absurd hle (by decide)
      · exact absurd hmem (by decide)
  · obtain ⟨e, he, rfl⟩ := List.mem_map.1 hl
    have hline : nl ∉ e.2 := by
      rcases hdtl _ _ h hh e he with hmem | hmem <;> exact not_mem_of_mem_splitCompress hmem
    obtain ⟨kind, line⟩ := e
    cases kind <;> simpa [printedLine, SesType.mark, str, nl] using hline

namespace DiffPrinter

/-- A set of texts in order, as the record lists it. -/
def sortedTags (tags : List Bytes) : List Bytes :=
  ((OrdMap.empty : OrdMap Bytes Unit).setAll (tags.map fun t => (t, ()))).keys

theorem listsSet_sortedTags (tags : List Bytes) :
    (Json.array ((sortedTags tags).map .string)).ListsSet tags := by
  have htexts : (Json.array ((sortedTags tags).map .string)).texts = sortedTags tags := by
    rw [Json.texts, List.filterMap_map]
    exact List.filterMap_some
  rw [Json.ListsSet, htexts]
  refine ⟨OrdMap.nodup_keys _, fun t => ?_⟩
  rw [sortedTags, OrdMap.mem_keys_setAll, List.map_map]
  simp [OrdMap.keys, OrdMap.empty]

theorem body_assign (p : DiffPrinter) (key : Bytes) (v : Json) :
    (p.assign [str "diff", str "body", key] v).body = p.body.setMember key v :=
  Json.atPath_assign_append v [str "diff", str "body"] [key] p.mJsonRes

theorem body_addTags (p : DiffPrinter) (counter list : Bytes) (tags : List Bytes) :
    (p.addTags counter list tags).body =
      if tags ≠ [] then (p.body.setMember counter (.int tags.length)).setMember list
        (.array ((sortedTags tags).map .string))
      else p.body := by
  unfold addTags
  split_ifs with h
  · rw [body_assign, body_assign]
    rfl
  · rfl

theorem member_body_addTags_of_ne (p : DiffPrinter) {counter list key : Bytes} (tags : List Bytes)
    (hc : key ≠ counter) (hl : key ≠ list) :
    (p.addTags counter list tags).body.member key = p.body.member key := by
  rw [body_addTags]
  split_ifs
  · rw [Json.member_setMember, if_neg hl, Json.member_setMember, if_neg hc]
  · rfl

theorem counts_addTags (p : DiffPrinter) {counter list : Bytes} (tags : List Bytes)
    (hne : counter ≠ list) (hcounter : p.body.member counter = .null)
    (hlist : p.body.member list = .null) :
    (p.addTags counter list tags).Counts counter list tags := by
  rw [Counts, body_addTags]
  split_ifs with h
  · rw [Json.member_setMember, if_neg hne, Json.member_setMember, if_pos rfl,
      Json.member_setMember, if_pos rfl]
    exact ⟨rfl, listsSet_sortedTags tags⟩
  · obtain rfl := not_not.1 h
    rw [hcounter, hlist]
    exact ⟨rfl, List.nodup_nil, fun t => Iff.rfl⟩

theorem member_body_addFullDiff {p : DiffPrinter} (hk : p.kind ≠ .multiline)
    (diffLines : List Bytes) (truncSize : ℕ) {key : Bytes} (hkey : key ≠ str "full") :
    (p.addFullDiff diffLines truncSize (str "XML")).body.member key =
      ((p.addTags (str "posDiff") (str "posList") (diffTags 60 62 diffLines).1).addTags
        (str "negDiff") (str "negList") (diffTags 60 62 diffLines).2).body.member key := by
  have hassign (p : DiffPrinter) (v : Json) :
      (p.assign [str "diff", str "body", str "full"] v).body.member key = p.body.member key := by
    rw [body_assign, Json.member_setMember, if_neg hkey]
  unfold addFullDiff
  cases hkind : p.kind with
  | multiline => exact absurd hkind hk
  | json =>
    simp only [↓reduceIte]
    split_ifs
    · exact hassign _ _
    · rfl
    · exact hassign _ _
    · rfl
  | utf8json =>
    simp only [↓reduceIte]
    split_ifs
    · exact hassign _ _
    · rfl
    · exact hassign _ _
    · rfl

end DiffPrinter

/-- The first tags of the lines that count by a sign. -/
def signedTags (sign : SesType × Bytes → Bool) (es : List (SesType × Bytes)) : List Bytes :=
  ((taggedLines es).filter fun x => sign x.1).map Prod.snd

theorem firstTags_eq (kind : SesType) (es : List (SesType × Bytes)) :
    firstTags kind es = signedTags (fun e => e.1 = kind) es := by
  induction es with
  | nil => rfl
  | cons e es ih =>
    unfold firstTags signedTags taggedLines at ih ⊢
    by_cases hkind : e.1 = kind <;> cases htag : tagToIdentify 60 62 e.2 <;>
      simp [hkind, htag, ih]

theorem addFullDiffText_eq {p : DiffPrinter} (hk : p.kind ≠ .multiline) (t : Bytes) :
    p.addFullDiffText t = p.addFullDiff (splitCompress nl t) 100 (str "XML") := by
  unfold addFullDiffText
  cases hkind : p.kind with
  | multiline => exact absurd hkind hk
  | json => rfl
  | utf8json => rfl

theorem counts_addFullDiffText {p : DiffPrinter} (hk : p.kind ≠ .multiline)
    (hnew : p.body.members = []) {out : Bytes} {hunks : List UniHunk}
    (hout : splitCompress nl out = printedLines hunks ++ [[]]) :
    (p.addFullDiffText out).Counts (str "posDiff") (str "posList")
        (signedTags posSign (hunks.flatMap UniHunk.elements)) ∧
      (p.addFullDiffText out).Counts (str "negDiff") (str "negList")
        (signedTags negSign (hunks.flatMap UniHunk.elements)) := by
  set es := hunks.flatMap UniHunk.elements
  set q := p.addTags (str "posDiff") (str "posList") (signedTags posSign es)
  have hnull (key : Bytes) : p.body.member key = .null := by rw [Json.member, hnew]; rfl
  have hmember (key : Bytes) (hkey : key ≠ str "full") :
      (p.addFullDiffText out).body.member key =
        (q.addTags (str "negDiff") (str "negList") (signedTags negSign es)).body.member key := by
    rw [addFullDiffText_eq hk, member_body_addFullDiff hk _ _ hkey, hout, diffTags_printedLines]
    rfl
  constructor
  · rw [Counts, hmember _ (by decide), hmember _ (by decide),
      member_body_addTags_of_ne q _ (by decide) (by decide),
      member_body_addTags_of_ne q _ (by decide) (by decide)]
    exact counts_addTags p _ (by decide) (hnull _) (hnull _)
  · rw [Counts, hmember _ (by decide), hmember _ (by decide)]
    refine counts_addTags q _ (by decide) ?_ ?_
    · rw [member_body_addTags_of_ne p _ (by decide) (by decide), hnull]
    · rw [member_body_addTags_of_ne p _ (by decide) (by decide), hnull]

theorem counts_retrieveDiff {dtl : Dtl} (hdtl : dtl.OfLines) {p : DiffPrinter}
    (hk : p.kind ≠ .multiline) (hnew : p.body.members = []) (c : StringCompareBody)
    (src dst : Bytes) :
    (c.retrieveDiff dtl src dst p).2.Counts (str "posDiff") (str "posList")
        (signedTags posSign (c.diffElements dtl src dst)) ∧
      (c.retrieveDiff dtl src dst p).2.Counts (str "negDiff") (str "negList")
        (signedTags negSign (c.diffElements dtl src dst)) := by
  have hnone : p.Counts (str "posDiff") (str "posList") [] ∧
      p.Counts (str "negDiff") (str "negList") [] := by
    have hnull (key : Bytes) : p.body.member key = .null := by rw [Json.member, hnew]; rfl
    simp only [Counts, hnull]
    exact ⟨⟨rfl, List.nodup_nil, fun t => Iff.rfl⟩, rfl, List.nodup_nil, fun t => Iff.rfl⟩
  rw [StringCompareBody.retrieveDiff, StringCompareBody.diffElements, StringCompareBody.output]
  dsimp only
  split_ifs with hstop hout hout
  · exact absurd rfl hout
  · exact hnone
  · exact counts_addFullDiffText hk hnew (splitCompress_output hdtl c src dst)
  · rw [not_not, vectDiff_eq_nil, ← dtl.uniHunks_eq_nil] at hout
    rw [hout]
    exact hnone

/-! ### The counters and the difference -/

theorem eq_of_length_filter_eq {α : Type} {P Q : α → Bool} {l : List α}
    (himp : ∀ a ∈ l, P a = true → Q a = true)
    (hlen : (l.filter Q).length = (l.filter P).length) : ∀ a ∈ l, Q a = P a := by
  have hP : l.filter P = (l.filter Q).filter P := by
    rw [List.filter_filter]
    refine List.filter_congr fun a ha => ?_
    cases hPa : P a with
    | false => rfl
    | true => exact (himp a ha hPa).symm
  rw [hP] at hlen
  have hall := List.length_filter_eq_length_iff.1 hlen.symm
  intro a ha
  cases hQa : Q a with
  | true => exact (hall a (List.mem_filter.2 ⟨ha, hQa⟩)).symm
  | false =>
    cases hPa : P a with
    | false => rfl
    | true => exact absurd (himp a ha hPa) (by simp [hQa])

theorem signs_iff (e : SesType × Bytes) :
    (posSign e = decide (e.1 = .add) ∧ negSign e = decide (e.1 = .delete)) ↔
      (e.1 ≠ .add → 43 ∉ e.2.takeWhile (· ≠ 60) ∧
        (e.1 = .common → 45 ∉ e.2.takeWhile (· ≠ 60))) := by
  obtain ⟨kind, line⟩ := e
  simp only [← findLt_iff (show (43 : UInt8) ≠ 60 by decide),
    ← findLt_iff (show (45 : UInt8) ≠ 60 by decide), posSign, negSign]
  cases kind <;> cases findLt 43 60 line <;> simp

/-- The tags by sign are those by kind iff this holds of every line with a tag. -/
theorem bodyCounters_iff_signs {p : DiffPrinter} {es : List (SesType × Bytes)}
    (hpos : p.Counts (str "posDiff") (str "posList") (signedTags posSign es))
    (hneg : p.Counts (str "negDiff") (str "negList") (signedTags negSign es)) :
    BodyCounters p es ↔ ∀ x ∈ taggedLines es,
      posSign x.1 = decide (x.1.1 = .add) ∧ negSign x.1 = decide (x.1.1 = .delete) := by
  constructor
  · intro h
    have hposlen : (signedTags posSign es).length = (firstTags .add es).length := by
      exact_mod_cast hpos.1.symm.trans h.added.1
    have hneglen : (signedTags negSign es).length = (firstTags .delete es).length := by
      exact_mod_cast hneg.1.symm.trans h.deleted.1
    rw [firstTags_eq, signedTags, signedTags, List.length_map, List.length_map] at hposlen hneglen
    have hposSign := eq_of_length_filter_eq (fun x _ hadd => by simp [posSign, hadd]) hposlen
    have hnegSign := eq_of_length_filter_eq (fun x hx hdelete => by
      have := hposSign x hx
      simp_all [negSign]) hneglen
    exact fun x hx => ⟨hposSign x hx, hnegSign x hx⟩
  · intro h
    have hposTags : signedTags posSign es = firstTags .add es := by
      rw [firstTags_eq, signedTags, signedTags, List.filter_congr fun x hx => (h x hx).1]
    have hnegTags : signedTags negSign es = firstTags .delete es := by
      rw [firstTags_eq, signedTags, signedTags, List.filter_congr fun x hx => (h x hx).2]
    rw [hposTags] at hpos
    rw [hnegTags] at hneg
    exact ⟨hpos, hneg⟩

theorem forall_taggedLines {P : SesType × Bytes → Prop} {es : List (SesType × Bytes)} :
    (∀ x ∈ taggedLines es, P x.1) ↔ ∀ e ∈ es, (tagToIdentify 60 62 e.2).isSome → P e := by
  constructor
  · intro h e he htag
    obtain ⟨tag, htag⟩ := Option.isSome_iff_exists.1 htag
    exact h (e, tag) (List.mem_filterMap.2 ⟨e, he, by rw [htag]; rfl⟩)
  · intro h x hx
    obtain ⟨e, he, hmap⟩ := List.mem_filterMap.1 hx
    obtain ⟨tag, htag, rfl⟩ := Option.map_eq_some_iff.1 hmap
    exact h e he (by rw [htag]; rfl)

/-- **When the record counts the added and the deleted lines.**  A line with a tag that is not an
added one has no `+` before its first `<`, and a common one no `-` either. -/
theorem body_counters_iff {dtl : Dtl} (hdtl : dtl.OfLines) {p : DiffPrinter}
    (hk : p.kind ≠ .multiline) (hnew : p.body.members = []) (c : StringCompareBody)
    (src dst : Bytes) :
    BodyCounters (c.retrieveDiff dtl src dst p).2 (c.diffElements dtl src dst) ↔
      ∀ e ∈ c.diffElements dtl src dst, (tagToIdentify 60 62 e.2).isSome → e.1 ≠ .add →
        43 ∉ e.2.takeWhile (· ≠ 60) ∧ (e.1 = .common → 45 ∉ e.2.takeWhile (· ≠ 60)) := by
  obtain ⟨hpos, hneg⟩ := counts_retrieveDiff hdtl hk hnew c src dst
  rw [bodyCounters_iff_signs hpos hneg, ← forall_taggedLines]
  exact forall₂_congr fun x _ => signs_iff x.1

/-- Where the texts have no line in common, dtl replaces all lines too. -/
theorem plainEnv_dtl_ofLines : plainEnv.dtl.OfLines := by
  intro src dst h hh e he
  simp only [plainEnv] at hh
  split_ifs at hh
  · cases hh
  · rw [List.mem_singleton.1 hh] at he
    simp only [UniHunk.elements, List.map_nil, List.nil_append, List.append_nil, List.mem_append,
      List.mem_map] at he
    rcases he with ⟨l, hl, rfl⟩ | ⟨l, hl, rfl⟩
    · exact .inl hl
    · exact .inr hl

theorem body_counters_iff_tags :
    BodyCounters (StringCompareBody.retrieveDiff plainEnv.dtl {} (str "<a>1</a>") (str "<b>2+2</b>")
      (createDiffPrinter (str "7") .json)).2
      (StringCompareBody.diffElements plainEnv.dtl {} (str "<a>1</a>") (str "<b>2+2</b>")) :=
  (body_counters_iff plainEnv_dtl_ofLines (by decide) rfl {} _ _).2 (by decide)

/-- A deleted line with a `+` before its tag counts as an added one. -/
theorem deleted_line_counted_as_added :
    ¬ BodyCounters (StringCompareBody.retrieveDiff plainEnv.dtl {} (str "a+b<i>") (str "c<i>")
      (createDiffPrinter (str "7") .json)).2
      (StringCompareBody.diffElements plainEnv.dtl {} (str "a+b<i>") (str "c<i>")) := by
  intro h
  have hcount := h.added.1
  revert hcount
  decide

end ModDup
