import Mathlib.Data.List.Basic
import Mathlib.Data.List.Sublists
import Mathlib.Data.List.Induction

/-!
# Edit scripts

A script from one list to another deletes, keeps and adds elements.  The elements it keeps are a
common subsequence of the two lists, and every common subsequence is kept by some script, so the
scripts with the fewest edits are those that keep a longest common subsequence.

## Main definitions

* `EditScript.src`, `EditScript.dst`, `EditScript.commons` : the two lists of a script and what
  they share; `EditScript.dels`, `EditScript.adds` : the numbers of its edits.
* `EditScript.inverse` : the script the other way.
* `EditScript.apply` : a script applied to a list, `none` where the list does not fit.

## Main results

* `EditScript.exists_of_sublists` : a common subsequence is what some script keeps.
* `EditScript.fewest_iff_longest` : fewest edits, longest common subsequence.
* `EditScript.apply_eq_some_iff` : what a script does to a list.
-/

namespace ModDup

/-- What an entry of an edit script does with its element. -/
inductive EditKind where
  | delete
  | common
  | add
  deriving DecidableEq, Repr

namespace EditKind

/-- The element is in the first list. -/
def inSrc : EditKind → Bool
  | add => false
  | _ => true

/-- The element is in the second list. -/
def inDst : EditKind → Bool
  | delete => false
  | _ => true

/-- The edit the other way. -/
def inverse : EditKind → EditKind
  | delete => add
  | common => common
  | add => delete

@[simp] theorem inSrc_inverse (k : EditKind) : k.inverse.inSrc = k.inDst := by cases k <;> rfl

@[simp] theorem inverse_delete : delete.inverse = add := rfl

@[simp] theorem inverse_common : common.inverse = common := rfl

@[simp] theorem inverse_add : add.inverse = delete := rfl

@[simp] theorem inDst_inverse (k : EditKind) : k.inverse.inDst = k.inSrc := by cases k <;> rfl

@[simp] theorem inverse_inverse (k : EditKind) : k.inverse.inverse = k := by cases k <;> rfl

theorem inverse_eq_common {k : EditKind} : k.inverse = common ↔ k = common := by cases k <;> decide

end EditKind

namespace EditScript

variable {α : Type*}

/-- The list a script starts from. -/
def src (s : List (EditKind × α)) : List α :=
  (s.filter fun e => e.1.inSrc).map Prod.snd

/-- The list a script leads to. -/
def dst (s : List (EditKind × α)) : List α :=
  (s.filter fun e => e.1.inDst).map Prod.snd

/-- The elements a script keeps. -/
def commons (s : List (EditKind × α)) : List α :=
  (s.filter fun e => e.1 = .common).map Prod.snd

/-- The number of deletions. -/
def dels (s : List (EditKind × α)) : ℕ := s.countP fun e => e.1 = .delete

/-- The number of additions. -/
def adds (s : List (EditKind × α)) : ℕ := s.countP fun e => e.1 = .add

/-- The script from the second list to the first. -/
def inverse (s : List (EditKind × α)) : List (EditKind × α) := s.map fun e => (e.1.inverse, e.2)

@[simp] theorem inverse_nil : inverse ([] : List (EditKind × α)) = [] := rfl

@[simp] theorem inverse_cons (k : EditKind) (x : α) (s : List (EditKind × α)) :
    inverse ((k, x) :: s) = (k.inverse, x) :: inverse s := rfl

@[simp] theorem src_nil : src ([] : List (EditKind × α)) = [] := rfl

@[simp] theorem dst_nil : dst ([] : List (EditKind × α)) = [] := rfl

@[simp] theorem commons_nil : commons ([] : List (EditKind × α)) = [] := rfl

@[simp] theorem dels_nil : dels ([] : List (EditKind × α)) = 0 := rfl

@[simp] theorem adds_nil : adds ([] : List (EditKind × α)) = 0 := rfl

@[simp] theorem src_append (s t : List (EditKind × α)) : src (s ++ t) = src s ++ src t := by
  simp [src]

@[simp] theorem dst_append (s t : List (EditKind × α)) : dst (s ++ t) = dst s ++ dst t := by
  simp [dst]

@[simp] theorem commons_append (s t : List (EditKind × α)) :
    commons (s ++ t) = commons s ++ commons t := by
  simp [commons]

@[simp] theorem dels_append (s t : List (EditKind × α)) : dels (s ++ t) = dels s + dels t :=
  List.countP_append

@[simp] theorem adds_append (s t : List (EditKind × α)) : adds (s ++ t) = adds s + adds t :=
  List.countP_append

@[simp] theorem src_cons (k : EditKind) (x : α) (s : List (EditKind × α)) :
    src ((k, x) :: s) = (if k.inSrc then [x] else []) ++ src s := by
  cases k <;> rfl

@[simp] theorem dst_cons (k : EditKind) (x : α) (s : List (EditKind × α)) :
    dst ((k, x) :: s) = (if k.inDst then [x] else []) ++ dst s := by
  cases k <;> rfl

@[simp] theorem commons_cons (k : EditKind) (x : α) (s : List (EditKind × α)) :
    commons ((k, x) :: s) = (if k = .common then [x] else []) ++ commons s := by
  cases k <;> rfl

@[simp] theorem dels_cons (k : EditKind) (x : α) (s : List (EditKind × α)) :
    dels ((k, x) :: s) = dels s + if k = .delete then 1 else 0 := by
  cases k <;> simp [dels]

@[simp] theorem adds_cons (k : EditKind) (x : α) (s : List (EditKind × α)) :
    adds ((k, x) :: s) = adds s + if k = .add then 1 else 0 := by
  cases k <;> simp [adds]

/-! ### The other way -/

@[simp] theorem src_inverse (s : List (EditKind × α)) : src (inverse s) = dst s := by
  induction s with
  | nil => rfl
  | cons e s ih =>
    obtain ⟨k, x⟩ := e
    simpa [inverse] using ih

@[simp] theorem dst_inverse (s : List (EditKind × α)) : dst (inverse s) = src s := by
  induction s with
  | nil => rfl
  | cons e s ih =>
    obtain ⟨k, x⟩ := e
    simpa [inverse] using ih

@[simp] theorem commons_inverse (s : List (EditKind × α)) : commons (inverse s) = commons s := by
  induction s with
  | nil => rfl
  | cons e s ih =>
    obtain ⟨k, x⟩ := e
    simpa [inverse, EditKind.inverse_eq_common] using ih

@[simp] theorem dels_inverse (s : List (EditKind × α)) : dels (inverse s) = adds s := by
  induction s with
  | nil => rfl
  | cons e s ih =>
    obtain ⟨k, x⟩ := e
    cases k <;> simpa [inverse, EditKind.inverse] using ih

@[simp] theorem adds_inverse (s : List (EditKind × α)) : adds (inverse s) = dels s := by
  induction s with
  | nil => rfl
  | cons e s ih =>
    obtain ⟨k, x⟩ := e
    cases k <;> simpa [inverse, EditKind.inverse] using ih

@[simp] theorem inverse_inverse (s : List (EditKind × α)) : inverse (inverse s) = s := by
  induction s with
  | nil => rfl
  | cons e s ih =>
    obtain ⟨k, x⟩ := e
    simpa [inverse] using ih

@[simp] theorem inverse_append (s t : List (EditKind × α)) :
    inverse (s ++ t) = inverse s ++ inverse t :=
  List.map_append

@[simp] theorem inverse_map (k : EditKind) (l : List α) :
    inverse (l.map fun x => (k, x)) = l.map fun x => (k.inverse, x) := by
  simp [inverse, Function.comp_def]

/-! ### Counting -/

theorem length_src (s : List (EditKind × α)) : (src s).length = (commons s).length + dels s := by
  induction s with
  | nil => rfl
  | cons e s ih =>
    obtain ⟨k, x⟩ := e
    cases k <;> simp [EditKind.inSrc, ih] <;> omega

theorem length_dst (s : List (EditKind × α)) : (dst s).length = (commons s).length + adds s := by
  induction s with
  | nil => rfl
  | cons e s ih =>
    obtain ⟨k, x⟩ := e
    cases k <;> simp [EditKind.inDst, ih] <;> omega

theorem commons_sublist_src (s : List (EditKind × α)) : (commons s).Sublist (src s) := by
  induction s with
  | nil => simp
  | cons e s ih =>
    obtain ⟨k, x⟩ := e
    cases k with
    | delete => simpa [EditKind.inSrc] using ih.cons x
    | common => simpa [EditKind.inSrc] using ih
    | add => simpa [EditKind.inSrc] using ih

theorem commons_sublist_dst (s : List (EditKind × α)) : (commons s).Sublist (dst s) := by
  have h := commons_sublist_src (inverse s)
  rwa [commons_inverse, src_inverse] at h

@[simp] theorem src_map_delete (l : List α) :
    src (l.map fun x => (EditKind.delete, x)) = l := by
  induction l with
  | nil => rfl
  | cons x l ih => simp [EditKind.inSrc, ih]

@[simp] theorem dst_map_delete (l : List α) :
    dst (l.map fun x => (EditKind.delete, x)) = [] := by
  induction l with
  | nil => rfl
  | cons x l ih => simp [EditKind.inDst, ih]

@[simp] theorem commons_map_delete (l : List α) :
    commons (l.map fun x => (EditKind.delete, x)) = [] := by
  induction l with
  | nil => rfl
  | cons x l ih => simp [ih]

@[simp] theorem src_map_add (l : List α) : src (l.map fun x => (EditKind.add, x)) = [] := by
  induction l with
  | nil => rfl
  | cons x l ih => simp [EditKind.inSrc, ih]

@[simp] theorem dst_map_add (l : List α) : dst (l.map fun x => (EditKind.add, x)) = l := by
  induction l with
  | nil => rfl
  | cons x l ih => simp [EditKind.inDst, ih]

@[simp] theorem commons_map_add (l : List α) :
    commons (l.map fun x => (EditKind.add, x)) = [] := by
  induction l with
  | nil => rfl
  | cons x l ih => simp [ih]

@[simp] theorem src_map_common (l : List α) :
    src (l.map fun x => (EditKind.common, x)) = l := by
  induction l with
  | nil => rfl
  | cons x l ih => simp [EditKind.inSrc, ih]

@[simp] theorem dst_map_common (l : List α) :
    dst (l.map fun x => (EditKind.common, x)) = l := by
  induction l with
  | nil => rfl
  | cons x l ih => simp [EditKind.inDst, ih]

@[simp] theorem commons_map_common (l : List α) :
    commons (l.map fun x => (EditKind.common, x)) = l := by
  induction l with
  | nil => rfl
  | cons x l ih => simp [ih]

@[simp] theorem dels_map_common (l : List α) :
    dels (l.map fun x => (EditKind.common, x)) = 0 := by
  simp [dels]

@[simp] theorem adds_map_common (l : List α) :
    adds (l.map fun x => (EditKind.common, x)) = 0 := by
  simp [adds]

theorem kind_eq_common_of_no_edit {s : List (EditKind × α)} (hdels : dels s = 0)
    (hadds : adds s = 0) : ∀ e ∈ s, e.1 = .common := by
  intro e he
  simp only [dels, adds, List.countP_eq_zero, decide_eq_true_eq] at hdels hadds
  cases h : e.1 with
  | delete => exact absurd h (hdels e he)
  | common => rfl
  | add => exact absurd h (hadds e he)

/-! ### Fewest edits -/

/-- A common subsequence is what some script keeps: what comes before its first element is
deleted from the one list and added from the other. -/
theorem exists_of_sublists {c a b : List α} (ha : c.Sublist a) (hb : c.Sublist b) :
    ∃ s, src s = a ∧ dst s = b ∧ commons s = c := by
  induction ha generalizing b with
  | slnil => exact ⟨b.map fun x => (.add, x), by simp⟩
  | @cons c a x ha ih =>
    obtain ⟨s, hsrc, hdst, hcom⟩ := ih hb
    exact ⟨(.delete, x) :: s, by simp [EditKind.inSrc, EditKind.inDst, *]⟩
  | @cons_cons c a x ha ih =>
    obtain ⟨before, rest, rfl, hmem, hrest⟩ := List.cons_sublist_iff.1 hb
    obtain ⟨before, after, rfl⟩ := List.append_of_mem hmem
    obtain ⟨s, hsrc, hdst, hcom⟩ := ih (hrest.trans (List.sublist_append_right after rest))
    exact ⟨before.map (fun y => (.add, y)) ++ (.common, x) :: s,
      by simp [EditKind.inSrc, EditKind.inDst, *]⟩

/-- A script has the fewest edits of all scripts between its lists iff it keeps a longest common
subsequence of them. -/
theorem fewest_iff_longest (s : List (EditKind × α)) :
    (∀ t, src t = src s → dst t = dst s → dels s + adds s ≤ dels t + adds t) ↔
      ∀ c : List α, c.Sublist (src s) → c.Sublist (dst s) → c.length ≤ (commons s).length := by
  have hs := length_src s
  have hd := length_dst s
  constructor
  · intro h c hsrc hdst
    obtain ⟨t, htsrc, htdst, rfl⟩ := exists_of_sublists hsrc hdst
    have hle := h t htsrc htdst
    have hts := length_src t
    have htd := length_dst t
    rw [htsrc] at hts
    rw [htdst] at htd
    omega
  · intro h t htsrc htdst
    have hle := h (commons t) (htsrc ▸ commons_sublist_src t) (htdst ▸ commons_sublist_dst t)
    have hts := length_src t
    have htd := length_dst t
    rw [htsrc] at hts
    rw [htdst] at htd
    omega

/-- Between two lists the deletions decide the number of edits. -/
theorem dels_add_adds {s : List (EditKind × α)} {a b : List α} (ha : src s = a)
    (hb : dst s = b) : dels s + adds s + a.length = b.length + 2 * dels s := by
  have hs := length_src s
  have hd := length_dst s
  rw [ha] at hs
  rw [hb] at hd
  omega

/-! ### Applying a script -/

variable [DecidableEq α]

/-- A script applied to a list: what it deletes or keeps must be there. -/
def apply : List (EditKind × α) → List α → Option (List α)
  | [], l => some l
  | (.add, x) :: s, l => (apply s l).map (x :: ·)
  | (.common, x) :: s, y :: l => if x = y then (apply s l).map (x :: ·) else none
  | (.delete, x) :: s, y :: l => if x = y then apply s l else none
  | (.common, _) :: _, [] => none
  | (.delete, _) :: _, [] => none

/-- A script turns the list it starts from into the one it leads to, and leaves what follows; it
applies to no other list. -/
theorem apply_eq_some_iff {s : List (EditKind × α)} {l r : List α} :
    apply s l = some r ↔ ∃ t, l = src s ++ t ∧ r = dst s ++ t := by
  fun_induction apply s l generalizing r with
  | case1 l => simp [eq_comm]
  | case2 x s l ih =>
    simp only [Option.map_eq_some_iff, ih, src_cons, dst_cons, EditKind.inSrc, EditKind.inDst]
    constructor
    · rintro ⟨_, ⟨t, rfl, rfl⟩, rfl⟩
      exact ⟨t, rfl, rfl⟩
    · rintro ⟨t, rfl, rfl⟩
      exact ⟨dst s ++ t, ⟨t, rfl, rfl⟩, rfl⟩
  | case3 s x l ih =>
    simp only [Option.map_eq_some_iff, ih, src_cons, dst_cons, EditKind.inSrc, EditKind.inDst]
    constructor
    · rintro ⟨_, ⟨t, rfl, rfl⟩, rfl⟩
      exact ⟨t, rfl, rfl⟩
    · rintro ⟨t, hl, rfl⟩
      exact ⟨dst s ++ t, ⟨t, by simpa using hl, rfl⟩, rfl⟩
  | case4 x s y l hne =>
    simp only [reduceCtorEq, src_cons, EditKind.inSrc, ↓reduceIte, List.cons_append,
      List.nil_append, List.cons.injEq, false_iff, not_exists, not_and]
    rintro t ⟨rfl, -⟩
    exact absurd rfl hne
  | case5 s x l ih => simp [ih, EditKind.inSrc, EditKind.inDst]
  | case6 x s y l hne =>
    simp only [reduceCtorEq, src_cons, EditKind.inSrc, ↓reduceIte, List.cons_append,
      List.nil_append, List.cons.injEq, false_iff, not_exists, not_and]
    rintro t ⟨rfl, -⟩
    exact absurd rfl hne
  | case7 => simp [EditKind.inSrc]
  | case8 => simp [EditKind.inSrc]

end EditScript

end ModDup
