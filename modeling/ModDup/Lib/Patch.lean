import ModDup.Lib.EditScript
import Mathlib.Order.Basic

/-!
# Patches

A patch is a list of hunks, each of which says where it starts in either list, how many elements
of either it covers, and what it does with them; between the hunks the two lists are the same.

## Main definitions

* `Patch.Hunk` : the two ranges of a hunk, and its edits.
* `Patch.Between` : the hunks describe the step from one list to another.
* `Patch.apply` : a patch applied to a list, `none` where it does not fit.
* `Patch.inverse` : the patch the other way.

## Main results

* `Patch.Between.apply` : a patch between two lists turns the first into the second.
* `Patch.Between.inverse` : and its inverse the second into the first.
-/

namespace ModDup

namespace Patch

open EditScript

variable {α : Type*}

/-- A hunk: `b` elements from number `a` on become `d` elements from number `c` on. -/
structure Hunk (α : Type*) where
  a : ℕ
  b : ℕ
  c : ℕ
  d : ℕ
  edits : List (EditKind × α)
  deriving DecidableEq

/-- The ranges of a hunk are as long as its edits say. -/
structure Hunk.Sized (h : Hunk α) : Prop where
  src : (src h.edits).length = h.b
  dst : (dst h.edits).length = h.d

/-- The step back. -/
def Hunk.inverse (h : Hunk α) : Hunk α := ⟨h.c, h.d, h.a, h.b, EditScript.inverse h.edits⟩

/-- The patch the other way. -/
def inverse (hunks : List (Hunk α)) : List (Hunk α) := hunks.map Hunk.inverse

/-- The hunks lead from `S` to `D`, whose elements are numbered from `i` and from `j` on. -/
inductive Between : (i j : ℕ) → List (Hunk α) → (S D : List α) → Prop
  | same {i j : ℕ} (l : List α) : Between i j [] l l
  | hunk {i j : ℕ} {h : Hunk α} {hunks : List (Hunk α)} {S D : List α} (gap : List α) :
      h.a = i + gap.length → h.c = j + gap.length → h.Sized →
      Between (h.a + h.b) (h.c + h.d) hunks S D →
      Between i j (h :: hunks) (gap ++ src h.edits ++ S) (gap ++ dst h.edits ++ D)

variable {i j : ℕ} {hunks : List (Hunk α)} {S D : List α}

/-- Nothing but equal elements after the hunks so far. -/
theorem Between.append_same (h : Between i j hunks S D) (l : List α) :
    Between i j hunks (S ++ l) (D ++ l) := by
  induction h with
  | same l' => exact .same _
  | hunk gap ha hc hsized _ ih =>
    have := Between.hunk gap ha hc hsized ih
    simpa only [List.append_assoc] using this

/-- One more hunk, right after what is covered so far. -/
theorem Between.append_hunk (hb : Between i j hunks S D) {h : Hunk α}
    (ha : h.a = i + S.length) (hc : h.c = j + D.length) (hsized : h.Sized) :
    Between i j (hunks ++ [h]) (S ++ src h.edits) (D ++ dst h.edits) := by
  induction hb with
  | same l =>
    have := Between.hunk l ha hc hsized (.same [])
    simpa only [List.append_nil, List.nil_append] using this
  | @hunk i j h' hunks S D gap ha' hc' hsized' _ ih =>
    have hS := hsized'.src
    have hD := hsized'.dst
    simp only [List.length_append] at ha hc
    have := Between.hunk gap ha' hc' hsized' (ih (by omega) (by omega))
    simpa only [List.append_assoc, List.cons_append] using this

theorem Hunk.Sized.inverse {h : Hunk α} (hs : h.Sized) : h.inverse.Sized :=
  ⟨by simpa [Hunk.inverse] using hs.dst, by simpa [Hunk.inverse] using hs.src⟩

theorem Between.inverse (h : Between i j hunks S D) : Between j i (Patch.inverse hunks) D S := by
  induction h with
  | same l => exact .same l
  | @hunk i j h hunks S D gap ha hc hsized _ ih =>
    have := Between.hunk (h := h.inverse) gap hc ha hsized.inverse ih
    simpa [Patch.inverse, Hunk.inverse] using this

theorem Between.eq_of_nil (h : Between i j [] S D) : S = D := by
  cases h
  rfl

theorem Between.mem (hb : Between i j hunks S D) :
    ∀ h ∈ hunks, ∀ e ∈ h.edits, e.2 ∈ S ∨ e.2 ∈ D := by
  have hedit : ∀ (s : List (EditKind × α)), ∀ e ∈ s, e.2 ∈ src s ∨ e.2 ∈ dst s := by
    intro s e he
    obtain ⟨k, x⟩ := e
    cases k with
    | delete => exact .inl (List.mem_map.2 ⟨_, List.mem_filter.2 ⟨he, rfl⟩, rfl⟩)
    | common => exact .inl (List.mem_map.2 ⟨_, List.mem_filter.2 ⟨he, rfl⟩, rfl⟩)
    | add => exact .inr (List.mem_map.2 ⟨_, List.mem_filter.2 ⟨he, rfl⟩, rfl⟩)
  induction hb with
  | same l => simp
  | @hunk i j h hunks S D gap ha hc hsized _ ih =>
    intro h' hh' e he
    simp only [List.mem_append]
    rcases List.mem_cons.1 hh' with rfl | hh'
    · exact (hedit _ e he).imp (fun h => .inl (.inr h)) fun h => .inl (.inr h)
    · exact (ih h' hh' e he).imp .inr .inr

/-! ### Applying a patch -/

variable [DecidableEq α]

/-- A patch applied to a list whose elements are numbered from `i` on: what a hunk covers must
be what its edits say. -/
def apply (i : ℕ) : List (Hunk α) → List α → Option (List α)
  | [], l => some l
  | h :: hunks, l =>
    let gap := h.a - i
    if i ≤ h.a ∧ gap + h.b ≤ l.length then do
      let changed ← EditScript.apply h.edits ((l.drop gap).take h.b)
      let rest ← apply (h.a + h.b) hunks (l.drop (gap + h.b))
      return l.take gap ++ changed ++ rest
    else none

/-- **A patch between two lists turns the first into the second.** -/
theorem Between.apply (hb : Between i j hunks S D) : Patch.apply i hunks S = some D := by
  induction hb with
  | same l => rfl
  | @hunk i j h hunks S D gap ha hc hsized _ ih =>
    have hgap : h.a - i = gap.length := by omega
    have hb := hsized.src
    have htake : ((gap ++ src h.edits ++ S).drop gap.length).take h.b = src h.edits := by
      rw [List.append_assoc, List.drop_left, ← hb, List.take_left]
    have hdrop : (gap ++ src h.edits ++ S).drop (gap.length + h.b) = S := by
      rw [List.drop_append_of_le_length (by simp [hb])]
      simp [← hb]
    have happly : EditScript.apply h.edits (src h.edits) = some (dst h.edits) :=
      apply_eq_some_iff.2 ⟨[], by simp, by simp⟩
    rw [Patch.apply, hgap, if_pos ⟨by omega, by simp [hb]⟩, htake, hdrop, happly, ih]
    simp

end Patch

end ModDup
