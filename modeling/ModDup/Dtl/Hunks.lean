import ModDup.Dtl.Script
import ModDup.Lib.Patch

/-!
# Unified hunks

`composeUnifiedHunks` cuts a script into hunks: up to three entries before a change that are kept,
the changes, and what is kept between and after them, until three entries in a row are kept and
at least two more follow.  Within a hunk the deletions between two kept entries come before the
additions.

## Main definitions

* `Diff.Composing` : the variables of the loop; `Diff.composeUnifiedHunks`.
* `Diff.Hunk.toPatch` : a hunk as one of a patch.
* `Diff.patch`, `Diff.uniPatch` : dtl's own way to apply a script and hunks.

## Main results

* `Diff.between_composeUnifiedHunks` : the hunks of a script are a patch between its two lists.
* `Diff.patch_eq_some` : a script turns its first list into its second one.
* `Diff.uniPatch_of_between` : so do the hunks.
-/

namespace ModDup

namespace Diff

open EditScript

variable {α : Type}

/-- `dtl::uniHunk`. -/
structure Hunk (α : Type) where
  a : ℤ
  b : ℤ
  c : ℤ
  d : ℤ
  common0 : List (SesElem α)
  change : List (SesElem α)
  common1 : List (SesElem α)
  inc_dec_count : ℤ

/-- `DTL_SEPARATE_SIZE`. -/
def separateSize : ℕ := 3

/-- `DTL_CONTEXT_SIZE`. -/
def contextSize : ℕ := 3

/-- The variables of `composeUnifiedHunks`. -/
structure Composing (α : Type) where
  common0 : List (SesElem α) := []
  common1 : List (SesElem α) := []
  change : List (SesElem α) := []
  adds : List (SesElem α) := []
  deletes : List (SesElem α) := []
  middle : ℕ := 0
  isMiddle : Bool := false
  isAfter : Bool := false
  a : ℤ := 0
  b : ℤ := 0
  c : ℤ := 0
  d : ℤ := 0
  inc_dec_count : ℤ := 0
  uniHunks : List (Hunk α) := []

namespace Composing

/-- The case `SES_ADD`; `last` stands for `l_cnt >= length`. -/
def takeAdd (it : SesElem α) (last : Bool) (s : Composing α) : Composing α :=
  let s := { s with
    middle := 0
    inc_dec_count := s.inc_dec_count + 1
    adds := s.adds ++ [it]
    isMiddle := true
    d := s.d + 1 }
  if last then { s with change := s.change ++ s.deletes ++ s.adds, isAfter := true } else s

/-- The case `SES_DELETE`. -/
def takeDelete (it : SesElem α) (last : Bool) (s : Composing α) : Composing α :=
  let s := { s with
    middle := 0
    inc_dec_count := s.inc_dec_count - 1
    deletes := s.deletes ++ [it]
    isMiddle := true
    b := s.b + 1 }
  if last then { s with change := s.change ++ s.deletes ++ s.adds, isAfter := true } else s

/-- The case `SES_COMMON`. -/
def takeCommon (swapped : Bool) (it : SesElem α) (last : Bool) (s : Composing α) :
    Composing α :=
  let s := { s with b := s.b + 1, d := s.d + 1 }
  let s :=
    if s.common1.isEmpty && s.adds.isEmpty && s.deletes.isEmpty && s.change.isEmpty then
      if s.common0.length < contextSize then
        let s :=
          if s.a = 0 ∧ s.c = 0 then
            if !swapped then { s with a := it.beforeIdx, c := it.afterIdx }
            else { s with a := it.afterIdx, c := it.beforeIdx }
          else s
        { s with common0 := s.common0 ++ [it] }
      else
        { s with common0 := s.common0.tail ++ [it], a := s.a + 1, c := s.c + 1, b := s.b - 1
                 d := s.d - 1 }
    else s
  if s.isMiddle && !s.isAfter then
    { s with
      middle := s.middle + 1
      change := s.change ++ s.deletes ++ s.adds ++ [it]
      isAfter := separateSize ≤ s.middle + 1 || last
      adds := []
      deletes := [] }
  else s

/-- The end of the loop's body: the hunk is put together, unless another change is near. -/
def close (swapped : Bool) (it : SesElem α) (rest : List (SesElem α)) (last : Bool)
    (s : Composing α) : Composing α :=
  if s.isAfter && !s.change.isEmpty then
    let cnt := ((it :: rest).take separateSize).countP fun e => e.type = .common
    if cnt < separateSize && !last then { s with middle := 0, isAfter := false }
    else
      let s :=
        if separateSize ≤ s.common0.length then
          let n := s.common0.length - separateSize
          { s with common0 := s.common0.drop n, a := s.a + n, c := s.c + n }
        else s
      let a := if s.a = 0 then s.a + 1 else s.a
      let c := if s.c = 0 then s.c + 1 else s.c
      let hunk : Hunk α :=
        { a := if swapped then c else a
          b := s.b
          c := if swapped then a else c
          d := s.d
          common0 := s.common0
          change := s.change
          common1 := s.common1
          inc_dec_count := s.inc_dec_count }
      { uniHunks := s.uniHunks ++ [hunk] }
  else s

/-- One turn of the loop, at entry `it` with `rest` after it. -/
def turn (swapped : Bool) (it : SesElem α) (rest : List (SesElem α)) (last : Bool)
    (s : Composing α) : Composing α :=
  close swapped it rest last <|
    match it.type with
    | .add => s.takeAdd it last
    | .delete => s.takeDelete it last
    | .common => s.takeCommon swapped it last

/-- The loop. -/
def loop (swapped : Bool) (length : ℕ) : (l_cnt : ℕ) → List (SesElem α) → Composing α →
    Composing α
  | _, [], s => s
  | l_cnt, it :: rest, s =>
    loop swapped length (l_cnt + 1) rest (s.turn swapped it rest (length ≤ l_cnt))

end Composing

/-- `Diff::composeUnifiedHunks`. -/
def composeUnifiedHunks (swapped : Bool) (ses : List (SesElem α)) : List (Hunk α) :=
  (Composing.loop swapped ses.length 1 ses {}).uniHunks

/-- All entries of a hunk. -/
def Hunk.elements (h : Hunk α) : List (SesElem α) := h.common0 ++ h.change ++ h.common1

/-- A hunk as one of a patch. -/
def Hunk.toPatch (h : Hunk α) : Patch.Hunk α :=
  ⟨h.a.toNat, h.b.toNat, h.c.toNat, h.d.toNat, script h.elements⟩

/-- What every hunk is like: at most three kept entries and then some that are not all kept. -/
structure Hunk.Shaped (h : Hunk α) : Prop where
  common0 : ∀ e ∈ h.common0, e.type = .common
  length_common0 : h.common0.length ≤ contextSize
  change : ∃ e ∈ h.change, e.type ≠ .common
  common1 : h.common1 = []
  inc_dec_count : h.inc_dec_count = h.d - h.b
  nonneg : 0 < h.a ∧ 0 ≤ h.b ∧ 0 < h.c ∧ 0 ≤ h.d

/-! ### What the loop keeps -/

theorem src_script_of_add {es : List (SesElem α)} (h : ∀ e ∈ es, e.type = .add) :
    src (script es) = [] := by
  induction es with
  | nil => rfl
  | cons e es ih =>
    obtain ⟨he, hes⟩ := List.forall_mem_cons.1 h
    simp [he, EditKind.inSrc, ih hes]

theorem src_script_of_common {es : List (SesElem α)} (h : ∀ e ∈ es, e.type = .common) :
    src (script es) = dst (script es) := by
  induction es with
  | nil => rfl
  | cons e es ih =>
    obtain ⟨he, hes⟩ := List.forall_mem_cons.1 h
    simp [he, EditKind.inSrc, EditKind.inDst, ih hes]

namespace Composing

/-- What is not in a hunk yet, in the order a hunk has it. -/
def content (s : Composing α) : List (SesElem α) := s.common0 ++ s.change ++ s.deletes ++ s.adds

/-- Where the next hunk starts: the numbers are those of the first kept entry in `common0`, and
there is none only at the very beginning. `S` and `D` are what lies before. -/
structure Starts (swapped : Bool) (S D : List α) (s : Composing α) : Prop where
  between : Patch.Between 1 1 (s.uniHunks.map Hunk.toPatch) S D
  shaped : ∀ h ∈ s.uniHunks, h.Shaped
  common0 : ∀ e ∈ s.common0, e.type = .common
  length_common0 : s.common0.length ≤ contextSize
  common1 : s.common1 = []
  start : s.common0 ≠ [] → (if swapped then s.c else s.a) = S.length + 1 ∧
    (if swapped then s.a else s.c) = D.length + 1
  unset : s.common0 = [] → s.a = 0 ∧ s.c = 0

/-- The variables after some entries, whose two lists are `I` and `J`; `S` and `D` are the parts
of them before what `content` holds. -/
structure Inv (swapped : Bool) (rest : List (SesElem α)) (S D I J : List α) (s : Composing α) :
    Prop extends Starts swapped S D s where
  src : I = S ++ src (script s.content)
  dst : J = D ++ dst (script s.content)
  b : s.b = (EditScript.src (script s.content)).length
  d : s.d = (EditScript.dst (script s.content)).length
  inc : s.inc_dec_count = s.d - s.b
  isAfter : s.isAfter = false
  deletes : ∀ e ∈ s.deletes, e.type = .delete
  adds : ∀ e ∈ s.adds, e.type = .add
  idle : s.isMiddle = false → s.change = [] ∧ s.deletes = [] ∧ s.adds = []
  edited : s.isMiddle = true → ∃ e ∈ s.change ++ s.deletes ++ s.adds, e.type ≠ .common
  first : s.isMiddle = true → s.common0 = [] → S = [] ∧ D = []
  next : s.isMiddle = false → s.common0 = [] →
    (S = [] ∧ D = []) ∨ ∀ e ∈ rest.head?, e.type = .common

/-- The variables when a hunk is complete: all of it is in `change`. -/
structure Complete (swapped : Bool) (S D I J : List α) (s : Composing α) : Prop
    extends Starts swapped S D s where
  src : I = S ++ src (script (s.common0 ++ s.change))
  dst : J = D ++ dst (script (s.common0 ++ s.change))
  b : s.b = (EditScript.src (script (s.common0 ++ s.change))).length
  d : s.d = (EditScript.dst (script (s.common0 ++ s.change))).length
  inc : s.inc_dec_count = s.d - s.b
  isAfter : s.isAfter = true
  edited : ∃ e ∈ s.change, e.type ≠ .common
  first : s.common0 = [] → S = [] ∧ D = []

variable {swapped last : Bool} {S D I J : List α} {s : Composing α} {it : SesElem α}
  {rest : List (SesElem α)}

/-- The hunk that is put together from the variables. -/
def hunk (swapped : Bool) (s : Composing α) : Hunk α :=
  let a := if s.a = 0 then s.a + 1 else s.a
  let c := if s.c = 0 then s.c + 1 else s.c
  ⟨if swapped then c else a, s.b, if swapped then a else c, s.d, s.common0, s.change, s.common1,
    s.inc_dec_count⟩

theorem Complete.close_eq (h : Complete swapped S D I J s)
    (hwin : ¬ (((it :: rest).take separateSize).countP (fun e => e.type = .common) <
      separateSize ∧ last = false)) :
    s.close swapped it rest last = { uniHunks := s.uniHunks ++ [s.hunk swapped] } := by
  have hne : s.change.isEmpty = false := by
    obtain ⟨e, he, -⟩ := h.edited
    exact List.isEmpty_eq_false_iff.2 (List.ne_nil_of_mem he)
  have hdrop : s.common0.length - separateSize = 0 := by
    have := h.length_common0
    simp only [contextSize, separateSize] at *
    omega
  rw [close, if_pos (by simp [h.isAfter, hne]), if_neg (by simpa using hwin)]
  simp only [hdrop, List.drop_zero, Nat.cast_zero, add_zero, ite_self]
  rfl

theorem Complete.hunk_starts (h : Complete swapped S D I J s) :
    (s.hunk swapped).a = S.length + 1 ∧ (s.hunk swapped).c = D.length + 1 := by
  rcases Decidable.em (s.common0 = []) with hnil | hne
  · obtain ⟨rfl, rfl⟩ := h.first hnil
    obtain ⟨ha, hc⟩ := h.unset hnil
    cases swapped <;> simp [hunk, ha, hc]
  · obtain ⟨ha, hc⟩ := h.start hne
    cases swapped
    · simp only [hunk, Bool.false_eq_true, ↓reduceIte] at ha hc ⊢
      rw [if_neg (by omega), if_neg (by omega)]
      exact ⟨ha, hc⟩
    · simp only [hunk, ↓reduceIte] at ha hc ⊢
      rw [if_neg (by omega), if_neg (by omega)]
      exact ⟨ha, hc⟩

theorem Complete.between_hunk (h : Complete swapped S D I J s) :
    Patch.Between 1 1 ((s.uniHunks ++ [s.hunk swapped]).map Hunk.toPatch) I J := by
  obtain ⟨ha, hc⟩ := h.hunk_starts
  have hedits : (s.hunk swapped).toPatch.edits = script (s.common0 ++ s.change) := by
    simp [Hunk.toPatch, Hunk.elements, hunk, h.common1]
  have hsized : (s.hunk swapped).toPatch.Sized := by
    refine ⟨?_, ?_⟩
    · rw [hedits, Hunk.toPatch]; simp only [hunk, h.b, Int.toNat_natCast]
    · rw [hedits, Hunk.toPatch]; simp only [hunk, h.d, Int.toNat_natCast]
  rw [h.src, h.dst, List.map_append, List.map_singleton, ← hedits]
  exact h.between.append_hunk (by simp only [Hunk.toPatch]; omega)
    (by simp only [Hunk.toPatch]; omega) hsized

theorem Complete.shaped_hunk (h : Complete swapped S D I J s) : (s.hunk swapped).Shaped := by
  obtain ⟨ha, hc⟩ := h.hunk_starts
  have hb : (s.hunk swapped).b = s.b := rfl
  have hd : (s.hunk swapped).d = s.d := rfl
  have := h.b
  have := h.d
  exact ⟨h.common0, h.length_common0, h.edited, h.common1, h.inc, by omega⟩

/-- Nothing is open right after a hunk, and the next entry is kept. -/
theorem Complete.close (h : Complete swapped S D I J s) (it : SesElem α) (last : Bool)
    (hwin : ¬ (((it :: rest).take separateSize).countP (fun e => e.type = .common) <
      separateSize ∧ last = false))
    (hrest : last = true → rest = []) :
    Inv swapped rest I J I J (s.close swapped it rest last) ∧
      (s.close swapped it rest last).isMiddle = false := by
  have hnext : ∀ e ∈ rest.head?, e.type = .common := by
    intro e he
    obtain ⟨rest, rfl⟩ : ∃ r, rest = e :: r := List.head?_eq_some_iff.1 he
    cases hl : last with
    | true => exact absurd (hrest hl) (by simp)
    | false =>
      have hall : ((it :: e :: rest).take separateSize).countP (fun e => e.type = .common) =
          ((it :: e :: rest).take separateSize).length := by
        refine le_antisymm List.countP_le_length ?_
        have := List.length_take_le separateSize (it :: e :: rest)
        by_contra hlt
        exact hwin ⟨by omega, hl⟩
      simpa using List.countP_eq_length.1 hall e (by simp [separateSize])
  have hshaped : ∀ x ∈ s.uniHunks ++ [s.hunk swapped], x.Shaped := by
    intro x hx
    rcases List.mem_append.1 hx with hx | hx
    · exact h.shaped x hx
    · rw [List.mem_singleton.1 hx]
      exact h.shaped_hunk
  rw [h.close_eq hwin]
  refine ⟨?_, rfl⟩
  constructor <;> try simp [content]
  · exact ⟨h.between_hunk, hshaped, by simp, by simp, rfl, by simp, by simp⟩
  · exact .inr hnext

theorem Inv.takeAdd (h : Inv swapped (it :: rest) S D I J s) (hit : it.type = .add) :
    Inv swapped rest S D I (J ++ [it.elem]) (s.takeAdd it false) := by
  have hsrc : EditScript.src (script (s.takeAdd it false).content) =
      EditScript.src (script s.content) := by
    simp [Composing.takeAdd, content, hit, EditKind.inSrc]
  have hdst : EditScript.dst (script (s.takeAdd it false).content) =
      EditScript.dst (script s.content) ++ [it.elem] := by
    simp [Composing.takeAdd, content, hit, EditKind.inDst]
  constructor
  · exact ⟨h.between, h.shaped, h.common0, h.length_common0, h.common1, h.start, h.unset⟩
  · rw [hsrc, h.src]
  · rw [hdst, h.dst, List.append_assoc]
  · rw [hsrc]; exact h.b
  · rw [hdst, List.length_append, List.length_singleton, Nat.cast_succ, ← h.d]; rfl
  · simp only [Composing.takeAdd, Bool.false_eq_true, ↓reduceIte, h.inc]; omega
  · exact h.isAfter
  · exact h.deletes
  · intro e he
    rcases List.mem_append.1 he with he | he
    · exact h.adds e he
    · rw [List.mem_singleton.1 he, hit]
  · intro hidle; cases hidle
  · intro _
    exact ⟨it, by simp [Composing.takeAdd], by simp [hit]⟩
  · intro _ hnil
    cases hm : s.isMiddle with
    | true => exact h.first hm hnil
    | false =>
      refine (h.next hm hnil).resolve_right fun hnext => ?_
      have := hnext it rfl
      simp [hit] at this
  · intro hidle; cases hidle

/-- A deletion, with more to come; the additions before it come after it in the hunk. -/
theorem Inv.takeDelete (h : Inv swapped (it :: rest) S D I J s) (hit : it.type = .delete) :
    Inv swapped rest S D (I ++ [it.elem]) J (s.takeDelete it false) := by
  have hadds := src_script_of_add h.adds
  have hsrc : EditScript.src (script (s.takeDelete it false).content) =
      EditScript.src (script s.content) ++ [it.elem] := by
    simp [Composing.takeDelete, content, hit, EditKind.inSrc, hadds]
  have hdst : EditScript.dst (script (s.takeDelete it false).content) =
      EditScript.dst (script s.content) := by
    simp [Composing.takeDelete, content, hit, EditKind.inDst]
  constructor
  · exact ⟨h.between, h.shaped, h.common0, h.length_common0, h.common1, h.start, h.unset⟩
  · rw [hsrc, h.src, List.append_assoc]
  · rw [hdst, h.dst]
  · rw [hsrc, List.length_append, List.length_singleton, Nat.cast_succ, ← h.b]; rfl
  · rw [hdst]; exact h.d
  · simp only [Composing.takeDelete, Bool.false_eq_true, ↓reduceIte, h.inc]; omega
  · exact h.isAfter
  · intro e he
    rcases List.mem_append.1 he with he | he
    · exact h.deletes e he
    · rw [List.mem_singleton.1 he, hit]
  · exact h.adds
  · intro hidle; cases hidle
  · intro _
    exact ⟨it, by simp [Composing.takeDelete], by simp [hit]⟩
  · intro _ hnil
    cases hm : s.isMiddle with
    | true => exact h.first hm hnil
    | false =>
      refine (h.next hm hnil).resolve_right fun hnext => ?_
      have := hnext it rfl
      simp [hit] at this
  · intro hidle; cases hidle

/-- With everything joined to `change`, a hunk in the middle is complete. -/
theorem Inv.complete {t : Composing α} (h : Inv swapped rest S D I J s)
    (hmiddle : s.isMiddle = true)
    (ht : t = { s with change := s.change ++ s.deletes ++ s.adds, isAfter := true }) :
    Complete swapped S D I J t := by
  have hcontent : s.common0 ++ (s.change ++ s.deletes ++ s.adds) = s.content := by
    simp [content]
  subst ht
  constructor
  · exact ⟨h.between, h.shaped, h.common0, h.length_common0, h.common1, h.start, h.unset⟩
  · rw [hcontent]; exact h.src
  · rw [hcontent]; exact h.dst
  · rw [hcontent]; exact h.b
  · rw [hcontent]; exact h.d
  · exact h.inc
  · rfl
  · exact h.edited hmiddle
  · exact h.first hmiddle

theorem Inv.close (h : Inv swapped rest S D I J s) : s.close swapped it rest last = s := by
  rw [Composing.close, if_neg (by simp [h.isAfter])]

theorem Inv.of_idle (h : Starts swapped S D s)
    (hidle : s.change = [] ∧ s.deletes = [] ∧ s.adds = []) (hmiddle : s.isMiddle = false)
    (hisAfter : s.isAfter = false) (hI : I = S ++ EditScript.src (script s.common0))
    (hJ : J = D ++ EditScript.dst (script s.common0))
    (hb : s.b = (EditScript.src (script s.common0)).length)
    (hd : s.d = (EditScript.dst (script s.common0)).length) (hinc : s.inc_dec_count = s.d - s.b)
    (hnext : s.common0 = [] → (S = [] ∧ D = []) ∨ ∀ e ∈ rest.head?, e.type = .common) :
    Inv swapped rest S D I J s := by
  obtain ⟨hchange, hdeletes, hadds⟩ := hidle
  have hcontent : s.content = s.common0 := by simp [content, hchange, hdeletes, hadds]
  refine ⟨h, ?_, ?_, ?_, ?_, hinc, hisAfter, ?_, ?_, fun _ => ⟨hchange, hdeletes, hadds⟩, ?_, ?_,
    fun _ => hnext⟩
  · rw [hcontent, hI]
  · rw [hcontent, hJ]
  · rw [hcontent, hb]
  · rw [hcontent, hd]
  · simp [hdeletes]
  · simp [hadds]
  · simp [hmiddle]
  · simp [hmiddle]

/-- A kept entry before any change: the last three of them are remembered. -/
theorem Inv.takeCommon_idle (h : Inv swapped (it :: rest) S D I J s) (hit : it.type = .common)
    (hidle : s.isMiddle = false) (hbefore : it.beforeIdx = I.length + 1)
    (hafter : it.afterIdx = J.length + 1) (last : Bool) :
    ∃ S' D', Inv swapped rest S' D' (I ++ [it.elem]) (J ++ [it.elem])
        (s.takeCommon swapped it last) ∧
      (s.takeCommon swapped it last).isMiddle = false := by
  obtain ⟨hchange, hdeletes, hadds⟩ := h.idle hidle
  have hcontent : s.content = s.common0 := by simp [content, hchange, hdeletes, hadds]
  have hI := h.src
  have hJ := h.dst
  have hb := h.b
  have hd := h.d
  have hinc := h.inc
  rw [hcontent] at hI hJ hb hd
  have hcommon : ∀ e ∈ s.common0 ++ [it], e.type = .common := by
    intro e he
    rcases List.mem_append.1 he with he | he
    · exact h.common0 e he
    · rw [List.mem_singleton.1 he, hit]
  by_cases hlt : s.common0.length < contextSize
  · -- there is room; the first one sets the start of the hunk
    have hset : ∃ a c, s.takeCommon swapped it last =
        { s with b := s.b + 1, d := s.d + 1, common0 := s.common0 ++ [it], a := a, c := c } ∧
        (if swapped then c else a) = S.length + 1 ∧ (if swapped then a else c) = D.length + 1 := by
      rcases Decidable.em (s.common0 = []) with hnil | hne
      · obtain ⟨ha, hc⟩ := h.unset hnil
        obtain ⟨rfl, rfl⟩ : I = S ∧ J = D := by simp [hI, hJ, hnil]
        refine ⟨if swapped then it.afterIdx else it.beforeIdx,
          if swapped then it.beforeIdx else it.afterIdx, ?_, ?_⟩
        · cases swapped <;>
            simp [takeCommon, h.common1, hchange, hdeletes, hadds, hlt, ha, hc, hidle]
        · cases swapped <;> simp [hbefore, hafter]
      · have hac : ¬ (s.a = 0 ∧ s.c = 0) := by
          have := h.start hne
          cases swapped <;> simp only [Bool.false_eq_true, ↓reduceIte] at this <;> omega
        exact ⟨s.a, s.c,
          by simp [takeCommon, h.common1, hchange, hdeletes, hadds, hlt, hac, hidle], h.start hne⟩
    obtain ⟨a, c, heq, hac⟩ := hset
    rw [heq]
    refine ⟨S, D, Inv.of_idle ⟨h.between, h.shaped, hcommon, ?_, h.common1, fun _ => hac, ?_⟩
      ⟨hchange, hdeletes, hadds⟩ hidle h.isAfter ?_ ?_ ?_ ?_ ?_ ?_, hidle⟩
    · rw [List.length_append, List.length_singleton]; omega
    · intro hnil; simp at hnil
    · rw [hI]; simp [hit, EditKind.inSrc]
    · rw [hJ]; simp [hit, EditKind.inDst]
    · simp [hb, hit, EditKind.inSrc]
    · simp [hd, hit, EditKind.inDst]
    · simp only [hinc]; omega
    · intro hnil; simp at hnil
  · -- the oldest one is given up, and lies between the hunks
    obtain ⟨e, tail, htail⟩ : ∃ e tail, s.common0 = e :: tail :=
      List.exists_cons_of_ne_nil fun hnil => hlt (by simp [hnil, contextSize])
    have heq : s.takeCommon swapped it last = { s with
        common0 := tail ++ [it], a := s.a + 1, b := s.b + 1 - 1, c := s.c + 1
        d := s.d + 1 - 1 } := by
      have hlt : ¬ tail.length + 1 < contextSize := by simpa [htail] using hlt
      simp [takeCommon, h.common1, hchange, hdeletes, hadds, htail, hlt, hidle]
    have he : e.type = .common := h.common0 e (by simp [htail])
    have hlen := h.length_common0
    have hstart := h.start (by simp [htail])
    rw [htail] at hI hJ hb hd hcommon hlen
    rw [heq]
    refine ⟨S ++ [e.elem], D ++ [e.elem], Inv.of_idle ⟨h.between.append_same [e.elem], h.shaped,
      fun x hx => hcommon x (List.mem_cons_of_mem e hx), ?_, h.common1, fun _ => ?_, ?_⟩
      ⟨hchange, hdeletes, hadds⟩ hidle h.isAfter ?_ ?_ ?_ ?_ ?_ ?_, hidle⟩
    · simpa using hlen
    · cases swapped <;> simpa using hstart
    · intro hnil; simp at hnil
    · rw [hI]; simp [hit, he, EditKind.inSrc]
    · rw [hJ]; simp [hit, he, EditKind.inDst]
    · simp [hb, hit, he, EditKind.inSrc]
    · simp [hd, hit, he, EditKind.inDst]
    · simp only [hinc]; omega
    · intro hnil; simp at hnil

/-- A kept entry after a change, joined to the changes before it. -/
def joined (it : SesElem α) (n : ℕ) (after : Bool) (s : Composing α) : Composing α :=
  { s with
    b := s.b + 1
    d := s.d + 1
    change := s.change ++ s.deletes ++ s.adds ++ [it]
    adds := []
    deletes := []
    middle := n
    isAfter := after }

theorem Inv.takeCommon_middle (h : Inv swapped rest S D I J s) (hmiddle : s.isMiddle = true) :
    s.takeCommon swapped it last =
      s.joined it (s.middle + 1) (separateSize ≤ s.middle + 1 || last) := by
  have hne : (s.common1.isEmpty && s.adds.isEmpty && s.deletes.isEmpty && s.change.isEmpty) =
      false := by
    obtain ⟨e, he, -⟩ := h.edited hmiddle
    by_contra hall
    simp only [Bool.not_eq_false, Bool.and_eq_true, List.isEmpty_iff] at hall
    simp [hall] at he
  rw [takeCommon]
  simp only [hne, Bool.false_eq_true, ↓reduceIte, hmiddle, h.isAfter, Bool.not_false,
    Bool.and_self]
  rw [joined, hmiddle]

theorem Inv.joined (h : Inv swapped (it :: rest) S D I J s) (hit : it.type = .common)
    (hmiddle : s.isMiddle = true) (n : ℕ) :
    Inv swapped rest S D (I ++ [it.elem]) (J ++ [it.elem]) (s.joined it n false) := by
  have hcontent : (s.joined it n false).content = s.content ++ [it] := by
    simp [Composing.joined, content]
  have hsrc : EditScript.src (script (s.joined it n false).content) =
      EditScript.src (script s.content) ++ [it.elem] := by
    rw [hcontent]; simp [hit, EditKind.inSrc]
  have hdst : EditScript.dst (script (s.joined it n false).content) =
      EditScript.dst (script s.content) ++ [it.elem] := by
    rw [hcontent]; simp [hit, EditKind.inDst]
  constructor
  · exact ⟨h.between, h.shaped, h.common0, h.length_common0, h.common1, h.start, h.unset⟩
  · rw [hsrc, h.src, List.append_assoc]
  · rw [hdst, h.dst, List.append_assoc]
  · rw [hsrc, List.length_append, List.length_singleton, Nat.cast_succ, ← h.b]; rfl
  · rw [hdst, List.length_append, List.length_singleton, Nat.cast_succ, ← h.d]; rfl
  · simp only [Composing.joined, h.inc]; omega
  · rfl
  · intro e he; cases he
  · intro e he; cases he
  · intro hidle; exact absurd (hmiddle.symm.trans hidle) (by decide)
  · intro _
    obtain ⟨e, he, hne⟩ := h.edited hmiddle
    exact ⟨e, by simp only [Composing.joined, List.append_nil]; exact List.mem_append_left _ he,
      hne⟩
  · intro _; exact h.first hmiddle
  · intro hidle; exact absurd (hmiddle.symm.trans hidle) (by decide)

/-- **One turn of the loop** deals with one more entry; after the last one no hunk is open. -/
theorem Inv.turn (h : Inv swapped (it :: rest) S D I J s) (hlast : last = true ↔ rest = [])
    (hnum : it.type = .common → it.beforeIdx = I.length + 1 ∧ it.afterIdx = J.length + 1) :
    ∃ S' D', Inv swapped rest S' D' (I ++ EditScript.src (script [it]))
        (J ++ EditScript.dst (script [it])) (s.turn swapped it rest last) ∧
      (rest = [] → (s.turn swapped it rest last).isMiddle = false) := by
  cases hit : it.type with
  | add =>
    have h' := h.takeAdd hit
    have hsrc : I ++ EditScript.src (script [it]) = I := by simp [hit, EditKind.inSrc]
    have hdst : J ++ EditScript.dst (script [it]) = J ++ [it.elem] := by
      simp [hit, EditKind.inDst]
    rw [Composing.turn, hit, hsrc, hdst]
    cases hl : last with
    | false =>
      refine ⟨S, D, ?_, fun hr => absurd (hlast.2 hr) (by simp [hl])⟩
      dsimp only
      rwa [h'.close]
    | true =>
      obtain ⟨hinv, hmid⟩ := (h'.complete rfl (t := s.takeAdd it true) rfl).close it true
        (by simp) fun _ => hlast.1 hl
      exact ⟨_, _, hinv, fun _ => hmid⟩
  | delete =>
    have h' := h.takeDelete hit
    have hsrc : I ++ EditScript.src (script [it]) = I ++ [it.elem] := by
      simp [hit, EditKind.inSrc]
    have hdst : J ++ EditScript.dst (script [it]) = J := by simp [hit, EditKind.inDst]
    rw [Composing.turn, hit, hsrc, hdst]
    cases hl : last with
    | false =>
      refine ⟨S, D, ?_, fun hr => absurd (hlast.2 hr) (by simp [hl])⟩
      dsimp only
      rwa [h'.close]
    | true =>
      obtain ⟨hinv, hmid⟩ := (h'.complete rfl (t := s.takeDelete it true) rfl).close it true
        (by simp) fun _ => hlast.1 hl
      exact ⟨_, _, hinv, fun _ => hmid⟩
  | common =>
    obtain ⟨hbefore, hafter⟩ := hnum hit
    have hsrc : I ++ EditScript.src (script [it]) = I ++ [it.elem] := by
      simp [hit, EditKind.inSrc]
    have hdst : J ++ EditScript.dst (script [it]) = J ++ [it.elem] := by
      simp [hit, EditKind.inDst]
    rw [Composing.turn, hit, hsrc, hdst]
    dsimp only
    cases hmiddle : s.isMiddle with
    | false =>
      obtain ⟨S', D', hinv, hmid⟩ := h.takeCommon_idle hit hmiddle hbefore hafter last
      refine ⟨S', D', ?_, fun _ => ?_⟩
      · rwa [hinv.close]
      · rwa [hinv.close]
    | true =>
      rw [h.takeCommon_middle hmiddle]
      cases hafter : (decide (separateSize ≤ s.middle + 1) || last) with
      | false =>
        have hinv := h.joined hit hmiddle (s.middle + 1)
        have hl : last = false := (Bool.or_eq_false_iff.1 hafter).2
        refine ⟨S, D, ?_, fun hr => absurd (hlast.2 hr) (by simp [hl])⟩
        rwa [hinv.close]
      | true =>
        have hcomplete := (h.joined hit hmiddle (s.middle + 1)).complete hmiddle
          (t := s.joined it (s.middle + 1) true) (by simp [Composing.joined])
        by_cases hwin : ((it :: rest).take separateSize).countP (fun e => e.type = .common) <
            separateSize ∧ last = false
        · -- another change is near, and the hunk goes on
          have hclose : (s.joined it (s.middle + 1) true).close swapped it rest last =
              s.joined it 0 false := by
            rw [Composing.close, if_pos (by simp [Composing.joined]), if_pos (by simpa using hwin)]
            rfl
          rw [hclose]
          exact ⟨S, D, h.joined hit hmiddle 0,
            fun hr => absurd (hlast.2 hr) (by simp [hwin.2])⟩
        · obtain ⟨hinv, hmid⟩ := hcomplete.close it last hwin hlast.1
          exact ⟨_, _, hinv, fun _ => hmid⟩

theorem Inv.loop (h : Inv swapped rest S D I J s) (length l_cnt : ℕ)
    (hlength : length = l_cnt + rest.length - 1) (hl : 1 ≤ l_cnt)
    (hnum : Numbered (I.length + 1) (J.length + 1) rest)
    (hidle : rest = [] → s.isMiddle = false) :
    ∃ S' D', Inv swapped [] S' D' (I ++ EditScript.src (script rest))
        (J ++ EditScript.dst (script rest)) (loop swapped length l_cnt rest s) ∧
      (loop swapped length l_cnt rest s).isMiddle = false := by
  induction rest generalizing l_cnt S D I J s with
  | nil =>
    refine ⟨S, D, ?_, hidle rfl⟩
    simpa [Composing.loop] using h
  | cons it rest ih =>
    obtain ⟨hit, hnum⟩ := hnum
    have hlast : decide (length ≤ l_cnt) = true ↔ rest = [] := by
      rw [decide_eq_true_eq, hlength, List.length_cons, ← List.length_eq_zero_iff]
      omega
    obtain ⟨S', D', hinv, hmid⟩ := h.turn hlast hit
    obtain ⟨S'', D'', hinv', hmid'⟩ := ih hinv (l_cnt + 1)
      (by rw [hlength, List.length_cons]; omega) (by omega)
      (by
        have hi : (((I ++ EditScript.src (script [it])).length : ℕ) : ℤ) + 1 =
            I.length + 1 + if it.type.inSrc then 1 else 0 := by
          cases h : it.type.inSrc <;> simp [h]
        have hj : (((J ++ EditScript.dst (script [it])).length : ℕ) : ℤ) + 1 =
            J.length + 1 + if it.type.inDst then 1 else 0 := by
          cases h : it.type.inDst <;> simp [h]
        rwa [hi, hj])
      hmid
    refine ⟨S'', D'', ?_, hmid'⟩
    have hsrc : I ++ EditScript.src (script (it :: rest)) =
        I ++ EditScript.src (script [it]) ++ EditScript.src (script rest) := by
      rw [List.append_assoc, ← src_append]; rfl
    have hdst : J ++ EditScript.dst (script (it :: rest)) =
        J ++ EditScript.dst (script [it]) ++ EditScript.dst (script rest) := by
      rw [List.append_assoc, ← dst_append]; rfl
    rw [hsrc, hdst]
    exact hinv'

theorem inv_start (swapped : Bool) (rest : List (SesElem α)) :
    Inv swapped rest [] [] [] [] {} :=
  .of_idle ⟨.same [], by simp, by simp, by simp, rfl, by simp, by simp⟩ ⟨rfl, rfl, rfl⟩ rfl rfl rfl
    rfl rfl rfl rfl fun _ => .inl ⟨rfl, rfl⟩

end Composing

/-- **The hunks of a script are a patch between its two lists**, and each of them has a change,
with three kept entries before it at most. -/
theorem between_composeUnifiedHunks {ses : List (SesElem α)} (hnum : Numbered 1 1 ses)
    (swapped : Bool) :
    Patch.Between 1 1 ((composeUnifiedHunks swapped ses).map Hunk.toPatch) (src (script ses))
        (dst (script ses)) ∧
      ∀ h ∈ composeUnifiedHunks swapped ses, h.Shaped := by
  obtain ⟨S, D, hinv, hmid⟩ := (Composing.inv_start swapped ses).loop ses.length 1
    (by omega) le_rfl (by simpa using hnum) fun _ => rfl
  refine ⟨?_, hinv.shaped⟩
  obtain ⟨hchange, hdeletes, hadds⟩ := hinv.idle hmid
  have hsrc := hinv.src
  have hdst := hinv.dst
  -- what is left open are entries that are kept
  rw [Composing.content, hchange, hdeletes, hadds, List.append_nil, List.append_nil,
    List.append_nil, List.nil_append] at hsrc hdst
  rw [hsrc, hdst, src_script_of_common hinv.common0]
  exact hinv.between.append_same _

/-! ### Without a change -/

theorem composeUnifiedHunks_of_common {ses : List (SesElem α)}
    (h : ∀ e ∈ ses, e.type = .common) (swapped : Bool) : composeUnifiedHunks swapped ses = [] := by
  have hloop : ∀ (length l_cnt : ℕ) (s : Composing α), s.isMiddle = false → s.isAfter = false →
      (Composing.loop swapped length l_cnt ses s).uniHunks = s.uniHunks := by
    induction ses with
    | nil => intro _ _ _ _ _; rfl
    | cons it rest ih =>
      intro length l_cnt s hmiddle hafter
      obtain ⟨hit, hrest⟩ := List.forall_mem_cons.1 h
      have hturn : ∀ last, (s.turn swapped it rest last).isMiddle = false ∧
          (s.turn swapped it rest last).isAfter = false ∧
          (s.turn swapped it rest last).uniHunks = s.uniHunks := by
        intro last
        have htake : (s.takeCommon swapped it last).isMiddle = false ∧
            (s.takeCommon swapped it last).isAfter = false ∧
            (s.takeCommon swapped it last).uniHunks = s.uniHunks := by
          simp only [Composing.takeCommon]
          split_ifs <;> simp_all
        rw [Composing.turn, hit]
        dsimp only
        rw [Composing.close, if_neg (by simp [htake.2.1])]
        exact htake
      obtain ⟨hm, ha, hu⟩ := hturn (length ≤ l_cnt)
      rw [Composing.loop, ih hrest length (l_cnt + 1) _ hm ha, hu]
  exact hloop _ _ _ rfl rfl

/-! ### Applying a script and hunks -/

/-- The loop of `Diff::patch`; the list is what is before its iterator and what is from there
on, and an iterator past the end is not to be used. -/
def patchLoop : List (SesElem α) → (before after : List α) → Option (List α)
  | [], before, after => some (before ++ after)
  | e :: es, before, after =>
    match e.type, after with
    | .add, after => patchLoop es (before ++ [e.elem]) after
    | .delete, _ :: after => patchLoop es before after
    | .common, x :: after => patchLoop es (before ++ [x]) after
    | .delete, [] => none
    | .common, [] => none

/-- `Diff::patch`. -/
def patch (ses : List (SesElem α)) (seq : List α) : Option (List α) := patchLoop ses [] seq

theorem patchLoop_eq (ses : List (SesElem α)) (before rest : List α) :
    patchLoop ses before (src (script ses) ++ rest) =
      some (before ++ dst (script ses) ++ rest) := by
  induction ses generalizing before with
  | nil => simp [patchLoop]
  | cons e es ih =>
    cases h : e.type <;> simp [patchLoop, h, EditKind.inSrc, EditKind.inDst, ih]

/-- **A script turns its first list into its second one.** -/
theorem patch_eq_some (ses : List (SesElem α)) :
    patch ses (src (script ses)) = some (dst (script ses)) := by
  simpa [patch] using patchLoop_eq ses [] []

/-- `++lstIt`, `n` times. -/
def advance : ℕ → (before after : List α) → Option (List α × List α)
  | 0, before, after => some (before, after)
  | n + 1, before, x :: after => advance n (before ++ [x]) after
  | _ + 1, _, [] => none

/-- The inner loop of `uniPatch`, which looks whether the iterator is at the end. -/
def walk : List (SesElem α) → (before after : List α) → List α × List α
  | [], before, after => (before, after)
  | e :: es, before, after =>
    match e.type, after with
    | .add, after => walk es (before ++ [e.elem]) after
    | .delete, _ :: after => walk es before after
    | .common, x :: after => walk es (before ++ [x]) after
    | .delete, [] => walk es before []
    | .common, [] => walk es before []

/-- The loop of `uniPatch` over the hunks. -/
def uniPatchLoop : List (Hunk α) → (inc_dec_total gap : ℤ) → (before after : List α) →
    Option (List α)
  | [], _, _, before, after => some (before ++ after)
  | h :: hunks, inc_dec_total, gap, before, after => do
    let a := h.a + inc_dec_total
    let (before, after) ← advance (a - gap).toNat before after
    let (before, after) := walk h.elements before after
    uniPatchLoop hunks (inc_dec_total + h.inc_dec_count) (a + h.b + h.inc_dec_count) before after

/-- `Diff::uniPatch`. -/
def uniPatch (hunks : List (Hunk α)) (seq : List α) : Option (List α) :=
  uniPatchLoop hunks 0 1 [] seq

theorem advance_append (l before rest : List α) :
    advance l.length before (l ++ rest) = some (before ++ l, rest) := by
  induction l generalizing before with
  | nil => simp [advance]
  | cons x l ih => simp [advance, ih]

theorem walk_eq (es : List (SesElem α)) (before rest : List α) :
    walk es before (src (script es) ++ rest) = (before ++ dst (script es), rest) := by
  induction es generalizing before with
  | nil => simp [walk]
  | cons e es ih =>
    cases h : e.type <;> simp [walk, h, EditKind.inSrc, EditKind.inDst, ih]

/-- The hunks are found where the numbers say, shifted by what the hunks before them changed. -/
theorem uniPatchLoop_of_between {hunks : List (Hunk α)} {i j : ℕ} {S D : List α}
    (h : Patch.Between i j (hunks.map Hunk.toPatch) S D) (hshaped : ∀ h ∈ hunks, h.Shaped)
    (before : List α) :
    uniPatchLoop hunks ((j : ℤ) - i) j before S = some (before ++ D) := by
  induction hunks generalizing i j S D before with
  | nil => rw [h.eq_of_nil]; rfl
  | cons hunk hunks ih =>
    obtain ⟨hhunk, hshaped⟩ := List.forall_mem_cons.1 hshaped
    rw [List.map_cons] at h
    cases h with
    | hunk gap ha hc hsized hrest =>
      have hinc := hhunk.inc_dec_count
      have hnonneg := hhunk.nonneg
      simp only [Hunk.toPatch] at ha hc hsized hrest ⊢
      have hgap : (hunk.a + ((j : ℤ) - i) - j).toNat = gap.length := by omega
      have hj : hunk.a + ((j : ℤ) - i) + hunk.b + hunk.inc_dec_count =
          ((hunk.c.toNat + hunk.d.toNat : ℕ) : ℤ) := by
        push_cast; omega
      have hi : ((j : ℤ) - i) + hunk.inc_dec_count =
          ((hunk.c.toNat + hunk.d.toNat : ℕ) : ℤ) - ((hunk.a.toNat + hunk.b.toNat : ℕ) : ℤ) := by
        push_cast; omega
      rw [uniPatchLoop]
      simp only [hgap, List.append_assoc, advance_append, Option.bind_eq_bind, Option.bind_some,
        walk_eq, hj, hi]
      rw [ih hrest hshaped]
      simp

/-- **The hunks turn the first list into the second one.** -/
theorem uniPatch_of_between {hunks : List (Hunk α)} {S D : List α}
    (h : Patch.Between 1 1 (hunks.map Hunk.toPatch) S D) (hshaped : ∀ h ∈ hunks, h.Shaped) :
    uniPatch hunks S = some D := by
  simpa [uniPatch] using uniPatchLoop_of_between h hshaped []

end Diff

end ModDup
