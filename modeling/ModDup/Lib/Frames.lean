import Mathlib.Data.List.Basic
import Mathlib.Data.List.Induction
import Mathlib.Data.List.Infix

/-!
# Records framed by marked lines

A text is read line by line; a line with one mark starts a record, and a line with another ends it
and hands it over.  A text made of whole records and of records that break off is read back: the
whole records are handed over, the others are forgotten, but for the line in which they break off.

## Main definitions

* `Frames.lines` : the lines of a text, each with its end.
* `Frames.Reader` : what is read of the record, and the records handed over.
* `Frames.Framed` : a record, with the marks where they belong.

## Main results

* `Frames.read_records` : whole records are read back.
* `Frames.read_pieces` : so they are between records that break off.
-/

namespace ModDup

namespace Frames

variable {α : Type*} [DecidableEq α]

/-! ### Lines -/

/-- The lines of a text, each with the separator that ends it; the last one may have none. -/
def lines (sep : α) : List α → List (List α)
  | [] => []
  | c :: t =>
    if c = sep then [c] :: lines sep t
    else match lines sep t with
      | [] => [[c]]
      | l :: ls => (c :: l) :: ls

/-- A line with its end. -/
def IsLine (sep : α) (l : List α) : Prop := ∃ w, sep ∉ w ∧ l = w ++ [sep]

variable {sep : α}

theorem lines_append_cons {w : List α} (hw : sep ∉ w) (t : List α) :
    lines sep (w ++ sep :: t) = (w ++ [sep]) :: lines sep t := by
  induction w with
  | nil => simp [lines]
  | cons c w ih =>
    have hc : c ≠ sep := fun h => hw (h ▸ List.mem_cons_self)
    have hw' : sep ∉ w := fun h => hw (List.mem_cons_of_mem c h)
    rw [List.cons_append, lines, if_neg hc, ih hw']
    rfl

theorem lines_of_not_mem {w : List α} (hw : sep ∉ w) :
    lines sep w = if w = [] then [] else [w] := by
  induction w with
  | nil => rfl
  | cons c w ih =>
    have hc : c ≠ sep := fun h => hw (h ▸ List.mem_cons_self)
    have hw' : sep ∉ w := fun h => hw (List.mem_cons_of_mem c h)
    rw [lines, if_neg hc, ih hw', if_neg (List.cons_ne_nil c w)]
    split_ifs with hnil
    · rw [hnil]
    · rfl

theorem lines_flatten_append {ls : List (List α)} (hls : ∀ l ∈ ls, IsLine sep l) (t : List α) :
    lines sep (ls.flatten ++ t) = ls ++ lines sep t := by
  induction ls with
  | nil => rfl
  | cons l ls ih =>
    obtain ⟨w, hw, rfl⟩ := hls l List.mem_cons_self
    have hrest := ih fun l hl => hls l (List.mem_cons_of_mem _ hl)
    rw [List.flatten_cons, List.append_assoc, List.append_assoc, List.singleton_append,
      lines_append_cons hw, hrest]
    rfl

omit [DecidableEq α] in
/-- What was left of a line goes on in the next one. -/
theorem IsLine.append {w l : List α} (hw : sep ∉ w) (hl : IsLine sep l) : IsLine sep (w ++ l) := by
  obtain ⟨v, hv, rfl⟩ := hl
  refine ⟨w ++ v, ?_, by rw [List.append_assoc]⟩
  rw [List.mem_append, not_or]
  exact ⟨hw, hv⟩

/-! ### The reader -/

/-- What is read of the record, and the records handed over. -/
structure Reader (α : Type*) where
  block : List α := []
  blocks : List (List α) := []

/-- A line is read; a line with both marks starts a record. -/
def Reader.read (begins ends : List α) (s : Reader α) (line : List α) : Reader α :=
  if begins <:+: line then { s with block := line }
  else if ends <:+: line then
    { block := s.block ++ line, blocks := s.blocks ++ [s.block ++ line] }
  else { s with block := s.block ++ line }

/-- A text is read. -/
def readAll (sep : α) (begins ends : List α) (text : List α) : Reader α :=
  (lines sep text).foldl (Reader.read begins ends) {}

variable {begins ends : List α}

theorem foldl_read_unmarked {mid : List (List α)}
    (hmid : ∀ l ∈ mid, ¬ begins <:+: l ∧ ¬ ends <:+: l) (s : Reader α) :
    mid.foldl (Reader.read begins ends) s = { s with block := s.block ++ mid.flatten } := by
  induction mid generalizing s with
  | nil => simp
  | cons l mid ih =>
    obtain ⟨hbegin, hend⟩ := hmid l List.mem_cons_self
    rw [List.foldl_cons, Reader.read, if_neg hbegin, if_neg hend,
      ih fun l hl => hmid l (List.mem_cons_of_mem _ hl)]
    simp

/-- Each record that is handed over took a line with its mark. -/
theorem length_blocks_read (s : Reader α) (line : List α) :
    ∃ extra, (s.read begins ends line).blocks = s.blocks ++ extra ∧ extra.length ≤ 1 := by
  unfold Reader.read
  split_ifs
  · exact ⟨[], by simp⟩
  · exact ⟨_, rfl, le_rfl⟩
  · exact ⟨[], by simp⟩

/-! ### Records -/

/-- A record by its lines: the first has the mark for it, no other has; the last has the other
mark, and of those between none has. -/
structure Framed (sep : α) (begins ends : List α) (first : List α) (mid : List (List α))
    (last : List α) : Prop where
  first_line : IsLine sep first
  mid_line : ∀ l ∈ mid, IsLine sep l
  last_line : IsLine sep last
  opened : begins <:+: first
  unmarked : ∀ l ∈ mid, ¬ begins <:+: l ∧ ¬ ends <:+: l
  closed : ends <:+: last
  not_opened : ¬ begins <:+: last

/-- A text is such a record. -/
def IsRecord (sep : α) (begins ends r : List α) : Prop :=
  ∃ first mid last, Framed sep begins ends first mid last ∧ r = (first :: mid ++ [last]).flatten

/-- A record that breaks off: in its first line, or in a later one. -/
def BreaksOff (sep : α) (begins ends q : List α) : Prop :=
  sep ∉ q ∨ ∃ first mid w, IsLine sep first ∧ begins <:+: first ∧
    (∀ l ∈ mid, IsLine sep l ∧ ¬ begins <:+: l ∧ ¬ ends <:+: l) ∧ sep ∉ w ∧
    q = (first :: mid).flatten ++ w

section Records

variable {first last : List α} {mid : List (List α)}

omit [DecidableEq α] in
theorem Framed.isLine (h : Framed sep begins ends first mid last) :
    ∀ l ∈ first :: mid ++ [last], IsLine sep l := by
  intro l hl
  rw [List.cons_append, List.mem_cons, List.mem_append, List.mem_singleton] at hl
  rcases hl with rfl | hl | rfl
  · exact h.first_line
  · exact h.mid_line l hl
  · exact h.last_line

/-- Behind the start of a line, a record is handed over with it. -/
theorem Framed.read (h : Framed sep begins ends first mid last) (w : List α) (s : Reader α) :
    ((w ++ first) :: (mid ++ [last])).foldl (Reader.read begins ends) s =
      { block := w ++ (first :: mid ++ [last]).flatten
        blocks := s.blocks ++ [w ++ (first :: mid ++ [last]).flatten] } := by
  have hbegin : begins <:+: w ++ first := h.opened.trans (List.suffix_append w first).isInfix
  rw [List.foldl_cons, List.foldl_append, Reader.read, if_pos hbegin,
    foldl_read_unmarked h.unmarked, List.foldl_cons, List.foldl_nil, Reader.read,
    if_neg h.not_opened, if_pos h.closed]
  simp

omit [DecidableEq α] in
theorem prefix_flatten {ls : List (List α)} (hls : ∀ l ∈ ls, IsLine sep l) {q : List α}
    (hq : q <+: ls.flatten) : ∃ k w, k ≤ ls.length ∧ sep ∉ w ∧ q = (ls.take k).flatten ++ w := by
  induction ls generalizing q with
  | nil => exact ⟨0, [], le_rfl, List.not_mem_nil, List.prefix_nil.1 hq⟩
  | cons l ls ih =>
    obtain ⟨v, hv, rfl⟩ := hls l List.mem_cons_self
    rw [List.flatten_cons, List.append_assoc, List.singleton_append] at hq
    rcases List.prefix_or_prefix_of_prefix hq (List.prefix_append v _) with hshort | ⟨t, rfl⟩
    · exact ⟨0, q, Nat.zero_le _, fun h => hv (hshort.subset h), rfl⟩
    · have ht := (List.prefix_append_right_inj v).1 hq
      cases t with
      | nil => exact ⟨0, v, Nat.zero_le _, hv, by simp⟩
      | cons c t =>
        obtain ⟨rfl, hrest⟩ := List.cons_prefix_cons.1 ht
        obtain ⟨k, w, hk, hw, rfl⟩ := ih (fun l hl => hls l (List.mem_cons_of_mem _ hl)) hrest
        refine ⟨k + 1, w, Nat.succ_le_succ hk, hw, ?_⟩
        simp

omit [DecidableEq α] in
/-- What is a part of a record breaks off. -/
theorem IsRecord.breaksOff {r q : List α} (h : IsRecord sep begins ends r) (hq : q <+: r)
    (hne : q ≠ r) : BreaksOff sep begins ends q := by
  obtain ⟨first, mid, last, hframed, rfl⟩ := h
  obtain ⟨k, w, hk, hw, rfl⟩ := prefix_flatten hframed.isLine hq
  cases k with
  | zero => exact .inl (by simpa using hw)
  | succ k =>
    rw [List.cons_append, List.take_succ_cons] at hne hq ⊢
    have hlt : k ≤ mid.length := by
      by_contra hlt
      have hall : (mid ++ [last]).take k = mid ++ [last] :=
        List.take_of_length_le (by simp; omega)
      rw [hall] at hq hne
      have hlen := hq.length_le
      rw [List.length_append] at hlen
      have hnil : w = [] := List.length_eq_zero_iff.1 (by omega)
      rw [hnil, List.append_nil] at hne
      exact hne rfl
    rw [List.take_append_of_le_length hlt]
    refine .inr ⟨first, mid.take k, w, hframed.first_line, hframed.opened, fun l hl => ?_, hw, rfl⟩
    have hmem := List.mem_of_mem_take hl
    exact ⟨hframed.mid_line l hmem, hframed.unmarked l hmem⟩

end Records

omit [DecidableEq α] in
theorem exists_lines (sep : α) (t : List α) :
    ∃ (ls : List (List α)) (w : List α), t = ls.flatten ++ w ∧ (∀ l ∈ ls, IsLine sep l) ∧
      sep ∉ w := by
  induction t with
  | nil => exact ⟨[], [], rfl, fun _ h => (by cases h), List.not_mem_nil⟩
  | cons c t ih =>
    obtain ⟨ls, w, rfl, hls, hw⟩ := ih
    by_cases hc : c = sep
    · subst hc
      refine ⟨[c] :: ls, w, rfl, fun l hl => ?_, hw⟩
      rcases List.mem_cons.1 hl with rfl | hl
      · exact ⟨[], List.not_mem_nil, rfl⟩
      · exact hls l hl
    · cases ls with
      | nil =>
        refine ⟨[], c :: w, rfl, hls, ?_⟩
        rw [List.mem_cons, not_or]
        exact ⟨Ne.symm hc, hw⟩
      | cons l ls =>
        refine ⟨(c :: l) :: ls, w, rfl, fun l' hl' => ?_, hw⟩
        rcases List.mem_cons.1 hl' with rfl | hl'
        · exact IsLine.append (w := [c]) (by simpa using Ne.symm hc) (hls l List.mem_cons_self)
        · exact hls l' (List.mem_cons_of_mem _ hl')

/-- Only the first line of a text has the one mark, only the last has the other. -/
def Unmarked (sep : α) (begins ends r : List α) : Prop :=
  (∀ l ∈ (lines sep r).tail, ¬ begins <:+: l) ∧ ∀ l ∈ (lines sep r).tail.dropLast, ¬ ends <:+: l

instance (sep : α) (begins ends r : List α) : Decidable (Unmarked sep begins ends r) :=
  inferInstanceAs (Decidable (_ ∧ _))

/-- A text that starts and ends with the marked lines is a record, if no other line is marked. -/
theorem isRecord_of_unmarked {first body last : List α} (hfirst : IsLine sep first)
    (hlast : IsLine sep last) (hbegin : begins <:+: first) (hend : ends <:+: last)
    (h : Unmarked sep begins ends (first ++ body ++ last)) :
    IsRecord sep begins ends (first ++ body ++ last) := by
  obtain ⟨ls, w, rfl, hls, hw⟩ := exists_lines sep body
  have hline : IsLine sep (w ++ last) := hlast.append hw
  have hlines : lines sep (first ++ (ls.flatten ++ w) ++ last) = first :: ls ++ [w ++ last] := by
    have hall : ∀ l ∈ first :: ls ++ [w ++ last], IsLine sep l := by
      intro l hl
      rw [List.cons_append, List.mem_cons, List.mem_append, List.mem_singleton] at hl
      rcases hl with rfl | hl | rfl
      · exact hfirst
      · exact hls l hl
      · exact hline
    have htext := lines_flatten_append hall []
    simp only [lines, List.append_nil] at htext
    rw [← htext]
    simp
  obtain ⟨hbegins, hends⟩ := h
  rw [hlines, List.cons_append, List.tail_cons] at hbegins hends
  rw [List.dropLast_concat] at hends
  refine ⟨first, ls, w ++ last, ⟨hfirst, hls, hline, hbegin, fun l hl => ⟨?_, hends l hl⟩, ?_, ?_⟩,
    by simp⟩
  · exact hbegins l (List.mem_append_left _ hl)
  · exact hend.trans (List.suffix_append w last).isInfix
  · exact hbegins _ (List.mem_append_right _ (List.mem_singleton_self _))

/-! ### Texts made of records -/

theorem foldl_read_records {rs : List (List α)} (hrs : ∀ r ∈ rs, IsRecord sep begins ends r)
    (s : Reader α) :
    ((lines sep rs.flatten).foldl (Reader.read begins ends) s).blocks = s.blocks ++ rs := by
  induction rs generalizing s with
  | nil => simp [lines]
  | cons r rs ih =>
    obtain ⟨first, mid, last, hframed, rfl⟩ := hrs r List.mem_cons_self
    have hread := hframed.read [] s
    rw [List.nil_append, List.nil_append] at hread
    rw [List.flatten_cons, lines_flatten_append hframed.isLine, List.foldl_append,
      List.cons_append, hread, ih fun r hr => hrs r (List.mem_cons_of_mem _ hr)]
    simp

/-- **Whole records are read back.** -/
theorem read_records {rs : List (List α)} (hrs : ∀ r ∈ rs, IsRecord sep begins ends r) :
    (readAll sep begins ends rs.flatten).blocks = rs := foldl_read_records hrs {}

/-- A piece of a text, and whether it is a whole record. -/
def IsPiece (sep : α) (begins ends : List α) (x : List α × Bool) : Prop :=
  if x.2 = true then IsRecord sep begins ends x.1 else BreaksOff sep begins ends x.1

/-- What was handed over for a record: the record, behind the start of a line. -/
def HandsOver (sep : α) (r block : List α) : Prop := ∃ w, sep ∉ w ∧ block = w ++ r

theorem foldl_read_pieces {P : List (List α × Bool)} (hP : ∀ x ∈ P, IsPiece sep begins ends x)
    {junk : List α} (hjunk : sep ∉ junk) (s : Reader α) :
    ∃ (ls : List (List α)) (tail block : List α) (out : List (List α)),
      junk ++ (P.map Prod.fst).flatten = ls.flatten ++ tail ∧
      (∀ l ∈ ls, IsLine sep l) ∧ sep ∉ tail ∧
      ls.foldl (Reader.read begins ends) s = ⟨block, s.blocks ++ out⟩ ∧
      List.Forall₂ (HandsOver sep) ((P.filter Prod.snd).map Prod.fst) out := by
  induction P generalizing junk s with
  | nil => exact ⟨[], junk, s.block, [], by simp, by simp, hjunk, by simp, .nil⟩
  | cons x P ih =>
    have hP' : ∀ y ∈ P, IsPiece sep begins ends y := fun y hy => hP y (List.mem_cons_of_mem _ hy)
    have hx := hP x List.mem_cons_self
    obtain ⟨t, whole⟩ := x
    cases whole with
    | true =>
      obtain ⟨first, mid, last, hframed, rfl⟩ := hx
      obtain ⟨ls, tail, block, out, htext, hls, htail, hread, hout⟩ :=
        ih hP' List.not_mem_nil (s := ((junk ++ first) :: (mid ++ [last])).foldl
          (Reader.read begins ends) s)
      refine ⟨(junk ++ first) :: (mid ++ [last]) ++ ls, tail, block,
        (junk ++ (first :: mid ++ [last]).flatten) :: out, ?_, ?_, htail, ?_, ?_⟩
      · rw [List.nil_append] at htext
        simp [htext]
      · intro l hl
        rcases List.mem_append.1 hl with hl | hl
        · rcases List.mem_cons.1 hl with rfl | hl
          · exact hframed.first_line.append hjunk
          · exact hframed.isLine l (List.mem_cons_of_mem _ hl)
        · exact hls l hl
      · rw [List.foldl_append, hread, hframed.read]
        simp
      · exact .cons ⟨junk, hjunk, rfl⟩ hout
    | false =>
      rcases hx with hq | ⟨first, mid, w, hfirst, hbegin, hmid, hw, rfl⟩
      · -- it breaks off in its first line, which goes on
        have hjunk' : sep ∉ junk ++ t := by
          rw [List.mem_append, not_or]
          exact ⟨hjunk, hq⟩
        obtain ⟨ls, tail, block, out, htext, hrest⟩ := ih hP' hjunk' s
        refine ⟨ls, tail, block, out, ?_, hrest⟩
        rw [← htext]
        simp
      · obtain ⟨ls, tail, block, out, htext, hls, htail, hread, hout⟩ :=
          ih hP' hw (s := ((junk ++ first) :: mid).foldl (Reader.read begins ends) s)
        have hbegin' : begins <:+: junk ++ first :=
          hbegin.trans (List.suffix_append junk first).isInfix
        refine ⟨(junk ++ first) :: mid ++ ls, tail, block, out, ?_, ?_, htail, ?_, hout⟩
        · simp only [List.map_cons, List.flatten_cons, List.append_assoc, htext,
            List.cons_append, List.flatten_append]
        · intro l hl
          rcases List.mem_append.1 hl with hl | hl
          · rcases List.mem_cons.1 hl with rfl | hl
            · exact hfirst.append hjunk
            · exact (hmid l hl).1
          · exact hls l hl
        · rw [List.foldl_append, hread, List.foldl_cons, Reader.read, if_pos hbegin',
            foldl_read_unmarked fun l hl => (hmid l hl).2]

/-- **Between records that break off, the whole ones are read back**, each behind at most the line
in which the text before it breaks off; the end of the text may hand over one more. -/
theorem read_pieces {P : List (List α × Bool)} (hP : ∀ x ∈ P, IsPiece sep begins ends x) :
    ∃ out extra, (readAll sep begins ends (P.map Prod.fst).flatten).blocks = out ++ extra ∧
      extra.length ≤ 1 ∧
      List.Forall₂ (HandsOver sep) ((P.filter Prod.snd).map Prod.fst) out := by
  obtain ⟨ls, tail, block, out, htext, hls, htail, hread, hout⟩ :=
    foldl_read_pieces hP List.not_mem_nil {}
  rw [List.nil_append] at htext
  rw [readAll, htext, lines_flatten_append hls, List.foldl_append, hread, lines_of_not_mem htail]
  split_ifs with hnil
  · exact ⟨out, [], by simp, by simp, hout⟩
  · obtain ⟨extra, hextra, hlen⟩ : ∃ extra,
        (Reader.read begins ends ⟨block, [] ++ out⟩ tail).blocks = [] ++ out ++ extra ∧
          extra.length ≤ 1 := length_blocks_read _ tail
    refine ⟨out, extra, ?_, hlen, hout⟩
    rw [List.foldl_cons, List.foldl_nil, hextra, List.nil_append]

end Frames

end ModDup
