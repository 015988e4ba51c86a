import ModDup.Lib.EditScript
import Mathlib.Order.Bounds.Basic
import Mathlib.Algebra.Order.Group.Int
import Mathlib.Algebra.Order.Ring.Int

/-!
# The edit graph of two lists

The points `(x, y)` stand for what is left of two lists once `x` elements of the first and `y` of
the second are dealt with.  An edit script is a path from `(0, 0)` to the last point, and a point
lies on the diagonal `y - x`.

To end on diagonal `δ`, a path that is on a diagonal above it must still delete as many elements
as it is above.  `Reach δ p k` collects how far paths get on diagonal `k` whose deletions, the
outstanding ones included, are at most `p`.  A front is computed from the one of `p - 1` by one
sweep over the diagonals (`Sweep`), and holds the greatest of each of these sets
(`Sweep.isGreatest`).

## Main results

* `EditGraph.path_iff` : paths are edit scripts of the first elements.
* `EditGraph.Sweep.isGreatest` : a sweep finds the farthest points of every diagonal.
* `EditGraph.mem_reach_last_iff` : the last point is reached with `p` deletions iff there is a
  script with so many.
-/

namespace ModDup

namespace EditGraph

open EditScript

variable {α : Type*}

/-- A path to `(x, y)` with `v` deletions. -/
inductive Path (A B : List α) : ℕ → ℕ → ℕ → Prop
  | start : Path A B 0 0 0
  | common {v x y : ℕ} {a : α} : Path A B v x y → A[x]? = some a → B[y]? = some a →
      Path A B v (x + 1) (y + 1)
  | delete {v x y : ℕ} : Path A B v x y → x < A.length → Path A B (v + 1) (x + 1) y
  | add {v x y : ℕ} : Path A B v x y → y < B.length → Path A B v x (y + 1)

variable {A B : List α}

/-- A path stays inside the graph, and a deletion is what leads below the main diagonal. -/
theorem Path.bounds {v x y : ℕ} (h : Path A B v x y) :
    x ≤ A.length ∧ y ≤ B.length ∧ x ≤ y + v := by
  induction h with
  | start => simp
  | common _ hx hy ih =>
    obtain ⟨hx, -⟩ := List.getElem?_eq_some_iff.1 hx
    obtain ⟨hy, -⟩ := List.getElem?_eq_some_iff.1 hy
    omega
  | delete _ hx ih => omega
  | add _ hy ih => omega

theorem Path.exists_script {v x y : ℕ} (h : Path A B v x y) :
    ∃ s, src s = A.take x ∧ dst s = B.take y ∧ dels s = v := by
  induction h with
  | start => exact ⟨[], by simp⟩
  | @common v x y a _ hx hy ih =>
    obtain ⟨s, hsrc, hdst, hv⟩ := ih
    refine ⟨s ++ [(.common, a)], ?_, ?_, ?_⟩
    · rw [src_append, hsrc, List.take_add_one, hx]; rfl
    · rw [dst_append, hdst, List.take_add_one, hy]; rfl
    · rw [dels_append, hv]; rfl
  | @delete v x y _ hx ih =>
    obtain ⟨s, hsrc, hdst, hv⟩ := ih
    refine ⟨s ++ [(.delete, A[x])], ?_, ?_, ?_⟩
    · rw [src_append, hsrc, List.take_add_one, List.getElem?_eq_getElem hx]; rfl
    · rw [dst_append, hdst]; exact List.append_nil _
    · rw [dels_append, hv]; rfl
  | @add v x y _ hy ih =>
    obtain ⟨s, hsrc, hdst, hv⟩ := ih
    refine ⟨s ++ [(.add, B[y])], ?_, ?_, ?_⟩
    · rw [src_append, hsrc]; exact List.append_nil _
    · rw [dst_append, hdst, List.take_add_one, List.getElem?_eq_getElem hy]; rfl
    · rw [dels_append, hv]; rfl

theorem getElem?_of_prefix_append {l m : List α} {a : α} (h : l ++ [a] <+: m) :
    m[l.length]? = some a := by
  obtain ⟨t, rfl⟩ := h
  simp

theorem path_of_script (s : List (EditKind × α)) :
    src s <+: A → dst s <+: B → Path A B (dels s) (src s).length (dst s).length := by
  induction s using List.reverseRecOn with
  | nil => intro _ _; exact .start
  | append_singleton s e ih =>
    obtain ⟨k, a⟩ := e
    intro hA hB
    have ih := ih
      ((List.prefix_append _ _).trans (by simpa using hA))
      ((List.prefix_append _ _).trans (by simpa using hB))
    cases k with
    | delete =>
      simp only [src_append, src_cons, EditKind.inSrc, ↓reduceIte, src_nil, List.append_nil]
        at hA
      have hx := getElem?_of_prefix_append hA
      simpa [EditKind.inSrc, EditKind.inDst] using
        ih.delete (List.getElem?_eq_some_iff.1 hx).1
    | common =>
      simp only [src_append, src_cons, EditKind.inSrc, ↓reduceIte, src_nil, List.append_nil]
        at hA
      simp only [dst_append, dst_cons, EditKind.inDst, ↓reduceIte, dst_nil, List.append_nil]
        at hB
      simpa [EditKind.inSrc, EditKind.inDst] using
        ih.common (getElem?_of_prefix_append hA)
          (getElem?_of_prefix_append hB)
    | add =>
      simp only [dst_append, dst_cons, EditKind.inDst, ↓reduceIte, dst_nil, List.append_nil]
        at hB
      have hy := getElem?_of_prefix_append hB
      simpa [EditKind.inSrc, EditKind.inDst] using
        ih.add (List.getElem?_eq_some_iff.1 hy).1

theorem path_iff {v x y : ℕ} :
    Path A B v x y ↔ x ≤ A.length ∧ y ≤ B.length ∧
      ∃ s, src s = A.take x ∧ dst s = B.take y ∧ dels s = v := by
  constructor
  · intro h
    exact ⟨h.bounds.1, h.bounds.2.1, h.exists_script⟩
  · rintro ⟨hx, hy, s, hsrc, hdst, rfl⟩
    have h := path_of_script s (hsrc ▸ List.take_prefix x A) (hdst ▸ List.take_prefix y B)
    rwa [hsrc, hdst, List.length_take_of_le hx, List.length_take_of_le hy] at h

/-! ### Farthest points -/

/-- How far paths get on diagonal `k` with at most `p` deletions, those still outstanding on a
diagonal above `δ` included. -/
def Reach (A B : List α) (δ p k : ℤ) : Set ℤ :=
  {y | ∃ v x y' : ℕ, Path A B v x y' ∧ (y' : ℤ) = y ∧ (y' : ℤ) - x = k ∧
    (v : ℤ) + max 0 (k - δ) ≤ p}

variable {δ p k y : ℤ}

theorem reach_bounds (h : y ∈ Reach A B δ p k) :
    0 ≤ y ∧ k ≤ y ∧ y ≤ B.length ∧ y - k ≤ A.length ∧ -p ≤ k ∧ k ≤ δ + p := by
  obtain ⟨v, x, y', hpath, rfl, rfl, hp⟩ := h
  have := hpath.bounds
  omega

theorem reach_mono {p' : ℤ} (hp : p ≤ p') (h : y ∈ Reach A B δ p k) : y ∈ Reach A B δ p' k := by
  obtain ⟨v, x, y', hpath, hy, hk, hv⟩ := h
  exact ⟨v, x, y', hpath, hy, hk, hv.trans hp⟩

/-- No deletion is outstanding below `δ`: an addition is free there. -/
theorem add_mem_reach (h : y ∈ Reach A B δ p (k - 1)) (hk : k ≤ δ) (hy : y < B.length) :
    y + 1 ∈ Reach A B δ p k := by
  obtain ⟨v, x, y', hpath, rfl, hd, hp⟩ := h
  exact ⟨v, x, y' + 1, hpath.add (by omega), by push_cast; rfl, by push_cast; omega, by omega⟩

/-- A deletion on a diagonal above `δ` was outstanding. -/
theorem delete_mem_reach (h : y ∈ Reach A B δ p (k + 1)) (hk : δ ≤ k)
    (hx : y - (k + 1) < A.length) : y ∈ Reach A B δ p k := by
  obtain ⟨v, x, y', hpath, rfl, hd, hp⟩ := h
  exact ⟨v + 1, x + 1, y', hpath.delete (by omega), rfl, by push_cast; omega,
    by push_cast; omega⟩

theorem last_mem_reach_of_column (hδ : δ = (B.length : ℤ) - A.length) (n : ℕ) :
    ∀ k, k + n = δ → A.length + k ∈ Reach A B δ p k → (B.length : ℤ) ∈ Reach A B δ p δ := by
  induction n with
  | zero =>
    intro k hk h
    obtain rfl : k = δ := by simpa using hk
    rwa [show (A.length : ℤ) + k = B.length by omega] at h
  | succ n ih =>
    intro k hk h
    push_cast at hk
    refine ih (k + 1) (by omega) ?_
    have h' := add_mem_reach (k := k + 1) (by rwa [add_sub_cancel_right]) (by omega)
      (by omega)
    rwa [add_assoc] at h'

theorem last_mem_reach_of_row (hδ : δ = (B.length : ℤ) - A.length) (n : ℕ) :
    ∀ k, k = δ + n → (B.length : ℤ) ∈ Reach A B δ p k → (B.length : ℤ) ∈ Reach A B δ p δ := by
  induction n with
  | zero =>
    intro k hk h
    obtain rfl : k = δ := by simpa using hk
    exact h
  | succ n ih =>
    intro k hk h
    push_cast at hk
    refine ih (k - 1) (by omega) ?_
    exact delete_mem_reach (by rwa [sub_add_cancel]) (by omega) (by omega)

/-- A sweep at budget `p`: the front `f` is at least as far as one more edit leads from `f`
itself or from the front `g` of `p - 1`, and no common element follows on any diagonal. -/
structure Sweep (A B : List α) (δ p : ℤ) (g f : ℤ → ℤ) : Prop where
  zero_le : 0 ≤ f 0
  add_le : ∀ k, -p < k → k ≤ δ → f (k - 1) + 1 ≤ f k
  add_le_of_lt : ∀ k, δ < k → k ≤ δ + p → g (k - 1) + 1 ≤ f k
  delete_le : ∀ k, δ ≤ k → k < δ + p → f (k + 1) ≤ f k
  delete_le_of_lt : ∀ k, -p ≤ k → k < δ → g (k + 1) ≤ f k
  stuck : ∀ k, -p ≤ k → k ≤ δ + p → ∀ (x y : ℕ) (a : α), (y : ℤ) = f k → (y : ℤ) - x = k →
    A[x]? = some a → B[y]? ≠ some a

variable {g f : ℤ → ℤ}

/-- No path gets farther than the front of a sweep: by induction on the path, whose last edit
comes from a point that the sweep looked at. -/
theorem Sweep.le (h : Sweep A B δ p g f)
    (hg : ∀ k y, y ∈ Reach A B δ (p - 1) k → y ≤ g k) {v x y : ℕ} (hpath : Path A B v x y) :
    (v : ℤ) + max 0 ((y : ℤ) - x - δ) ≤ p → (y : ℤ) ≤ f ((y : ℤ) - x) := by
  induction hpath with
  | start => intro _; simpa using h.zero_le
  | @common v x y a hpath hx hy ih =>
    intro hp
    have hb := hpath.bounds
    have ih := ih (by push_cast at hp; omega)
    have heq : ((y + 1 : ℕ) : ℤ) - ((x + 1 : ℕ) : ℤ) = (y : ℤ) - x := by omega
    rw [heq]
    rcases ih.lt_or_eq with hlt | hstuck
    · push_cast; omega
    · exact absurd hy (h.stuck _ (by omega) (by omega) x y a hstuck rfl hx)
  | @delete v x y hpath hx ih =>
    intro hp
    have hb := hpath.bounds
    have hprev : ((y : ℤ) - ((x + 1 : ℕ) : ℤ)) + 1 = (y : ℤ) - x := by omega
    by_cases hk : δ ≤ (y : ℤ) - ((x + 1 : ℕ) : ℤ)
    · have ih := ih (by push_cast at hp hk; omega)
      have hle := h.delete_le _ hk (by push_cast at hp hk ⊢; omega)
      rw [hprev] at hle
      exact ih.trans hle
    · have hmem : (y : ℤ) ∈ Reach A B δ (p - 1) ((y : ℤ) - x) :=
        ⟨v, x, y, hpath, rfl, rfl, by push_cast at hp hk; omega⟩
      have hle := h.delete_le_of_lt ((y : ℤ) - ((x + 1 : ℕ) : ℤ)) (by push_cast at hp ⊢; omega)
        (by omega)
      rw [hprev] at hle
      exact (hg _ _ hmem).trans hle
  | @add v x y hpath hy ih =>
    intro hp
    have hb := hpath.bounds
    have hprev : (((y + 1 : ℕ) : ℤ) - (x : ℤ)) - 1 = (y : ℤ) - x := by omega
    by_cases hk : ((y + 1 : ℕ) : ℤ) - (x : ℤ) ≤ δ
    · have ih := ih (by push_cast at hp hk; omega)
      have hle := h.add_le _ (by push_cast at hp ⊢; omega) hk
      rw [hprev] at hle
      push_cast at hle ⊢
      omega
    · have hmem : (y : ℤ) ∈ Reach A B δ (p - 1) ((y : ℤ) - x) :=
        ⟨v, x, y, hpath, rfl, rfl, by push_cast at hp hk; omega⟩
      have hle := h.add_le_of_lt (((y + 1 : ℕ) : ℤ) - (x : ℤ)) (by omega)
        (by push_cast at hp hk ⊢; omega)
      rw [hprev] at hle
      have := hg _ _ hmem
      push_cast at hle ⊢
      omega

/-- **A sweep finds the farthest points.** -/
theorem Sweep.isGreatest (h : Sweep A B δ p g f)
    (hg : ∀ k y, y ∈ Reach A B δ (p - 1) k → y ≤ g k) {k : ℤ} (hmem : f k ∈ Reach A B δ p k) :
    IsGreatest (Reach A B δ p k) (f k) := by
  refine ⟨hmem, ?_⟩
  rintro _ ⟨v, x, y, hpath, rfl, rfl, hp⟩
  exact h.le hg hpath hp

/-- The last point is reached with `p` deletions iff a script from the one list to the other
makes do with them. -/
theorem mem_reach_last_iff (hδ : δ = (B.length : ℤ) - A.length) :
    (B.length : ℤ) ∈ Reach A B δ p δ ↔
      ∃ s, src s = A ∧ dst s = B ∧ (dels s : ℤ) ≤ p := by
  constructor
  · rintro ⟨v, x, y, hpath, hy, hd, hp⟩
    obtain ⟨s, hsrc, hdst, hv⟩ := hpath.exists_script
    obtain rfl : x = A.length := by omega
    obtain rfl : y = B.length := by omega
    exact ⟨s, by simpa using hsrc, by simpa using hdst, by omega⟩
  · rintro ⟨s, hsrc, hdst, hp⟩
    have hpath := path_of_script (A := A) (B := B) s 
      (hsrc ▸ List.prefix_refl _) (hdst ▸ List.prefix_refl _)
    rw [hsrc, hdst] at hpath
    exact ⟨_, _, _, hpath, rfl, hδ.symm, by omega⟩

end EditGraph

end ModDup
