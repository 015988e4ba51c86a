import ModDup.Dtl.Diff
import ModDup.Lib.EditGraph
import Mathlib.Tactic.Ring

/-!
# The search finds the farthest points

The arrays of the search, read at every diagonal, are functions of the diagonal (`Front`); as long
as a phase stays within the `M + 1` first ones, no access is out of bounds and the arrays hold
what the functions do (`Seqs.pass_of_holds`).  One phase is a sweep over the edit graph: after it
`fp` holds, for every diagonal, the farthest point that the budget of the phase allows, and `path`
the end of a chain of points in `pathCordinates` that leads there (`Seqs.Ready.pass`).

## Main results

* `Seqs.Ready.pass` : what one phase does, from what the phase before left.
* `Seqs.onp_spec` : the loop ends, with the shortest script or at the limit.
-/

namespace ModDup

namespace Diff

open EditGraph EditScript

variable {α : Type}

/-! ### Runs of equal elements -/

section CommonLength

variable [DecidableEq α]

theorem getElem?_of_lt_commonLength {as bs : List α} {j : ℕ} (h : j < commonLength as bs) :
    ∃ a, as[j]? = some a ∧ bs[j]? = some a := by
  fun_induction commonLength as bs generalizing j with
  | case1 as a bs ih =>
    cases j with
    | zero => exact ⟨a, rfl, rfl⟩
    | succ j => simpa using ih (by omega)
  | case2 => omega
  | case3 => omega

theorem getElem?_commonLength {as bs : List α} {a : α}
    (h : as[commonLength as bs]? = some a) : bs[commonLength as bs]? ≠ some a := by
  fun_induction commonLength as bs with
  | case1 as b bs ih => simpa using ih (by simpa using h)
  | case2 a as b bs hne =>
    intro h'
    simp only [List.getElem?_cons_zero, Option.some.injEq] at h h'
    exact hne (h.trans h'.symm)
  | case3 as bs hne =>
    intro h'
    cases as with
    | nil => simp at h
    | cons a as =>
      cases bs with
      | nil => simp at h'
      | cons b bs => exact hne a as b bs rfl rfl

end CommonLength

/-! ### The arrays as functions -/

/-- The search memory, the arrays as functions of the diagonal. -/
structure Front where
  fp : ℤ → ℤ
  path : ℤ → ℤ
  points : List Point

namespace Seqs

variable (d : Seqs α)

/-- An array holds the values of a function. -/
structure Holds (l : List ℤ) (f : ℤ → ℤ) : Prop where
  length : l.length = d.M + d.N + 3
  get : ∀ k, -(d.M + 1 : ℤ) ≤ k → k ≤ d.N + 1 → l[(k + d.offset).toNat]? = some (f k)

/-- The memory holds a front. -/
structure Holding (m : Memory) (s : Front) : Prop where
  fp : d.Holds m.fp s.fp
  path : d.Holds m.path s.path
  points : m.pathCordinates = s.points

variable {d} {l : List ℤ} {f : ℤ → ℤ} {k v : ℤ} {m : Memory} {s : Front}

theorem Holds.read (h : d.Holds l f) (hk : -(d.M + 1 : ℤ) ≤ k) (hk' : k ≤ d.N + 1) :
    read l (k + d.offset) = some (f k) := by
  rw [Diff.read, if_pos (by simp only [offset]; omega), h.get k hk hk']

theorem Holds.write (h : d.Holds l f) (hk : -(d.M + 1 : ℤ) ≤ k) (hk' : k ≤ d.N + 1) :
    ∃ l', write l (k + d.offset) v = some l' ∧ d.Holds l' (Function.update f k v) := by
  have hlen := h.length
  refine ⟨l.set (k + d.offset).toNat v, ?_, ?_, ?_⟩
  · rw [Diff.write, if_pos (by simp only [offset]; omega)]
  · simpa using h.length
  · intro j hj hj'
    rw [List.getElem?_set]
    by_cases hjk : j = k
    · subst hjk
      rw [if_pos rfl, if_pos (by simp only [offset]; omega), Function.update_self]
    · rw [if_neg (by simp only [offset]; omega), Function.update_of_ne hjk, h.get j hj hj']

variable [DecidableEq α]

/-- `visit` on a front. -/
def step (d : Seqs α) (s : Front) (k : ℤ) : Front :=
  let above := s.fp (k - 1) + 1
  let below := s.fp (k + 1)
  let y := d.slide k (max above below)
  { fp := Function.update s.fp k y
    path := Function.update s.path k s.points.length
    points := s.points ++ [⟨y - k, y, if above > below then s.path (k - 1) else s.path (k + 1)⟩] }

/-- Inside the arrays `visit` does what `step` does. -/
theorem visit_of_holding (h : d.Holding m s) (hk : -(d.M : ℤ) ≤ k) (hk' : k ≤ d.N) :
    ∃ m', d.visit m k = some m' ∧ d.Holding m' (d.step s k) := by
  have habove := h.fp.read (k := k - 1) (by omega) (by omega)
  have hbelow := h.fp.read (k := k + 1) (by omega) (by omega)
  have hleft := h.path.read (k := k - 1) (by omega) (by omega)
  have hright := h.path.read (k := k + 1) (by omega) (by omega)
  obtain ⟨path', hwrite, hpath'⟩ := h.path.write (v := m.pathCordinates.length) (k := k)
    (by omega) (by omega)
  obtain ⟨fp', hwrite', hfp'⟩ := h.fp.write (k := k)
    (v := d.slide k (max (s.fp (k - 1) + 1) (s.fp (k + 1)))) (by omega) (by omega)
  refine ⟨⟨fp', path', _⟩, ?_, ⟨hfp', ?_, rfl⟩⟩
  · simp only [visit, snake, habove, hbelow, hleft, hright, Option.bind_eq_bind,
      Option.bind_some, step, h.points]
    split_ifs <;> simp [hwrite', ← h.points, hwrite]
  · simpa [step, h.points] using hpath'

theorem foldlM_visit_of_holding {ks : List ℤ} (h : d.Holding m s)
    (hks : ∀ k ∈ ks, -(d.M : ℤ) ≤ k ∧ k ≤ d.N) :
    ∃ m', ks.foldlM d.visit m = some m' ∧ d.Holding m' (ks.foldl d.step s) := by
  induction ks generalizing m s with
  | nil => exact ⟨m, rfl, h⟩
  | cons k ks ih =>
    obtain ⟨hk, hks⟩ := List.forall_mem_cons.1 hks
    obtain ⟨m', hvisit, h'⟩ := visit_of_holding h hk.1 hk.2
    obtain ⟨m'', hrest, h''⟩ := ih h' hks
    exact ⟨m'', by simp [hvisit, hrest], h''⟩

/-- One turn of the loop on a front. -/
def sweep (d : Seqs α) (p : ℕ) (s : Front) : Front :=
  d.step ((d.falling p).foldl d.step ((d.rising p).foldl d.step s)) d.delta

/-- **A phase within the first `M + 1` stays inside the arrays**, and does what `sweep` does. -/
theorem pass_of_holding (h : d.Holding m s) {p : ℕ} (hp : p ≤ d.M) :
    ∃ m', d.pass p m = some m' ∧ d.Holding m' (d.sweep p s) := by
  have hle : (d.M : ℤ) ≤ d.N := by exact_mod_cast d.le
  have hrising : ∀ k ∈ d.rising p, -(d.M : ℤ) ≤ k ∧ k ≤ d.N := by
    intro k hk
    obtain ⟨i, hi, rfl⟩ := List.mem_map.1 hk
    rw [List.mem_range, delta] at hi
    omega
  have hfalling : ∀ k ∈ d.falling p, -(d.M : ℤ) ≤ k ∧ k ≤ d.N := by
    intro k hk
    obtain ⟨i, hi, rfl⟩ := List.mem_map.1 hk
    rw [List.mem_range] at hi
    rw [delta]
    omega
  obtain ⟨m₁, h₁, hs₁⟩ := foldlM_visit_of_holding h hrising
  obtain ⟨m₂, h₂, hs₂⟩ := foldlM_visit_of_holding hs₁ hfalling
  obtain ⟨m₃, h₃, hs₃⟩ := visit_of_holding hs₂ (k := d.delta) (by simp only [delta]; omega)
    (by simp only [delta]; omega)
  exact ⟨m₃, by simp [pass, h₁, h₂, h₃], hs₃⟩

omit [DecidableEq α] in
theorem holding_blank (d : Seqs α) : d.Holding d.blank ⟨fun _ => -1, fun _ => -1, []⟩ := by
  have h : d.Holds (List.replicate (d.M + d.N + 3) (-1)) fun _ => -1 := by
    refine ⟨by simp, ?_⟩
    intro k hk hk'
    rw [List.getElem?_replicate, if_pos (by simp only [offset]; omega)]
  exact ⟨h, h, rfl⟩

end Seqs

/-! ### The points of a path -/

/-- One edit, or none. -/
inductive Edge (A B : List α) : (v x y v' x' y' : ℕ) → Prop
  | none {v x y : ℕ} : Edge A B v x y v x y
  | delete {v x y : ℕ} : x < A.length → Edge A B v x y (v + 1) (x + 1) y
  | add {v x y : ℕ} : y < B.length → Edge A B v x y v x (y + 1)

/-- From `(x, y)` on, `n` elements are the same. -/
def Run (A B : List α) (x y n : ℕ) : Prop :=
  ∀ j < n, ∃ a, A[x + j]? = some a ∧ B[y + j]? = some a

/-- The points from `r` back to the start are those of a path with `v` deletions to `(x, y)`: an
edit and a run of equal elements lead from each to the next. -/
inductive Chain (A B : List α) (points : List Point) : ℤ → (v x y : ℕ) → Prop
  | start : Chain A B points (-1) 0 0 0
  | point {v x y v' x' y' n i : ℕ} {q : Point} : Chain A B points q.k v x y → q.k < i →
      Edge A B v x y v' x' y' → Run A B x' y' n → points[i]? = some q →
      q.x = x' + n → q.y = y' + n → Chain A B points i v' (x' + n) (y' + n)

section Chains

variable {A B : List α} {points : List Point} {v x y v' x' y' n : ℕ} {r : ℤ}

theorem Path.run (h : Path A B v x y) (hrun : Run A B x y n) : Path A B v (x + n) (y + n) := by
  induction n with
  | zero => exact h
  | succ n ih =>
    obtain ⟨a, hx, hy⟩ := hrun n (by omega)
    exact (ih fun j hj => hrun j (by omega)).common hx hy

theorem Edge.path (h : Edge A B v x y v' x' y') (hpath : Path A B v x y) :
    Path A B v' x' y' := by
  cases h with
  | none => exact hpath
  | delete hx => exact hpath.delete hx
  | add hy => exact hpath.add hy

theorem Chain.path (h : Chain A B points r v x y) : Path A B v x y := by
  induction h with
  | start => exact .start
  | point _ _ hedge hrun _ _ _ ih => exact Path.run (hedge.path ih) hrun

theorem Chain.append (h : Chain A B points r v x y) (l : List Point) :
    Chain A B (points ++ l) r v x y := by
  induction h with
  | start => exact .start
  | @point v x y v' x' y' n i q _ hlt hedge hrun hi hx hy ih =>
    refine .point ih hlt hedge hrun ?_ hx hy
    rw [List.getElem?_append_left (List.getElem?_eq_some_iff.1 hi).1, hi]

theorem Chain.lt (h : Chain A B points r v x y) : r < points.length := by
  cases h with
  | start => omega
  | point _ _ _ _ hi _ _ => exact_mod_cast (List.getElem?_eq_some_iff.1 hi).1

end Chains

namespace Seqs

variable {d : Seqs α} {s : Front} {p k j : ℤ}

/-- The path to the farthest point of diagonal `k` is kept, and the budget `p` allows it. -/
def At (d : Seqs α) (s : Front) (p k : ℤ) : Prop :=
  ∃ v x y : ℕ, Chain d.A d.B s.points (s.path k) v x y ∧ s.fp k = y ∧ (y : ℤ) - x = k ∧
    (v : ℤ) + max 0 (k - d.delta) ≤ p

theorem At.mem_reach (h : d.At s p k) : s.fp k ∈ Reach d.A d.B d.delta p k := by
  obtain ⟨v, x, y, hchain, hfp, hk, hp⟩ := h
  exact ⟨v, x, y, hchain.path, hfp.symm, hk, hp⟩

variable [DecidableEq α]

theorem slide_spec (d : Seqs α) (x y : ℕ) : ∃ n : ℕ, d.slide ((y : ℤ) - x) y = y + n ∧
    Run d.A d.B x y n ∧ ∀ a, d.A[x + n]? = some a → d.B[y + n]? ≠ some a := by
  refine ⟨commonLength (d.A.drop x) (d.B.drop y), ?_, ?_, ?_⟩
  · simp [slide]
  · intro j hj
    obtain ⟨a, hx, hy⟩ := getElem?_of_lt_commonLength hj
    exact ⟨a, by simpa using hx, by simpa using hy⟩
  · intro a hx
    have h : (d.B.drop y)[commonLength (d.A.drop x) (d.B.drop y)]? ≠ some a :=
      getElem?_commonLength (by simpa using hx)
    simpa using h

theorem At.step (h : d.At s p j) (hj : j ≠ k) : d.At (d.step s k) p j := by
  obtain ⟨v, x, y, hchain, hfp, hd, hp⟩ := h
  refine ⟨v, x, y, ?_, ?_, hd, hp⟩
  · simpa [Seqs.step, Function.update_of_ne hj] using hchain.append _
  · simpa [Seqs.step, Function.update_of_ne hj] using hfp

/-- One edit leads from a point whose path is kept to where the step at `k` starts from. -/
def Enters (d : Seqs α) (s : Front) (p k : ℤ) : Prop :=
  ∃ v x y v' x' y' : ℕ,
    Chain d.A d.B s.points
      (if s.fp (k - 1) + 1 > s.fp (k + 1) then s.path (k - 1) else s.path (k + 1)) v x y ∧
    Edge d.A d.B v x y v' x' y' ∧ max (s.fp (k - 1) + 1) (s.fp (k + 1)) = y' ∧
    (y' : ℤ) - x' = k ∧ (v' : ℤ) + max 0 (k - d.delta) ≤ p

/-- What a step leaves on its own diagonal: the path, and no common element after its end. -/
theorem Enters.step (h : d.Enters s p k) :
    d.At (d.step s k) p k ∧
      max (s.fp (k - 1) + 1) (s.fp (k + 1)) ≤ (d.step s k).fp k ∧
      ∀ (x y : ℕ) (a : α), (y : ℤ) = (d.step s k).fp k → (y : ℤ) - x = k →
        d.A[x]? = some a → d.B[y]? ≠ some a := by
  obtain ⟨v, x, y, v', x', y', hchain, hedge, hmax, hd, hp⟩ := h
  obtain ⟨n, hslide, hrun, hstuck⟩ := d.slide_spec x' y'
  rw [hd] at hslide
  have hfp : (d.step s k).fp k = y' + n := by simp [Seqs.step, hmax, hslide]
  refine ⟨⟨v', x' + n, y' + n, ?_, by rw [hfp]; push_cast; rfl, by push_cast; omega, hp⟩,
    by omega, ?_⟩
  · have hpath : (d.step s k).path k = s.points.length := by simp [Seqs.step]
    rw [hpath]
    refine .point (q := ⟨d.slide k (max (s.fp (k - 1) + 1) (s.fp (k + 1))) - k,
        d.slide k (max (s.fp (k - 1) + 1) (s.fp (k + 1))),
        if s.fp (k - 1) + 1 > s.fp (k + 1) then s.path (k - 1) else s.path (k + 1)⟩)
      (hchain.append _) hchain.lt hedge hrun ?_ ?_ ?_
    · simp [Seqs.step]
    · simp only [hmax, hslide]; omega
    · simp only [hmax, hslide]
  · intro x₁ y₁ a hy hx
    obtain rfl : y₁ = y' + n := by omega
    obtain rfl : x₁ = x' + n := by omega
    exact hstuck a

/-! ### One phase -/

omit [DecidableEq α] in
theorem delta_nonneg (d : Seqs α) : 0 ≤ d.delta := by
  have : (d.M : ℤ) ≤ d.N := by exact_mod_cast d.le
  rw [delta]
  omega

/-- The diagonals the phase of budget `p` looks at. -/
def Spans (d : Seqs α) (p k : ℤ) : Prop := 0 ≤ p ∧ -p ≤ k ∧ k ≤ d.delta + p

/-- What is known after the phase of budget `p`: the farthest points and the paths to them. -/
structure Found (d : Seqs α) (p : ℤ) (s : Front) : Prop where
  outside : ∀ k, ¬ d.Spans p k → s.fp k = -1 ∧ s.path k = -1
  at_ : ∀ k, d.Spans p k → d.At s p k
  path_nonneg : ∀ k, d.Spans p k → 0 ≤ s.path k
  le : ∀ k y, y ∈ Reach d.A d.B d.delta p k → y ≤ s.fp k

/-- In the middle of the phase of budget `p`, which began with `s₀` and has dealt with the
diagonals `V`. -/
structure During (d : Seqs α) (p : ℤ) (s₀ : Front) (V : ℤ → Prop) (s : Front) : Prop where
  fp_old : ∀ k, ¬ V k → s.fp k = s₀.fp k
  path_old : ∀ k, ¬ V k → ¬ d.Spans (p - 1) k → s.path k = -1
  at_old : ∀ k, ¬ V k → d.Spans (p - 1) k → d.At s (p - 1) k
  at_new : ∀ k, V k → d.At s p k
  path_new : ∀ k, V k → 0 ≤ s.path k
  add_le : ∀ k, V k → k ≤ d.delta → s.fp (k - 1) + 1 ≤ s.fp k
  add_le_of_lt : ∀ k, V k → d.delta < k → s₀.fp (k - 1) + 1 ≤ s.fp k
  delete_le : ∀ k, V k → d.delta ≤ k → s.fp (k + 1) ≤ s.fp k
  delete_le_of_lt : ∀ k, V k → k < d.delta → s₀.fp (k + 1) ≤ s.fp k
  stuck : ∀ k, V k → ∀ (x y : ℕ) (a : α), (y : ℤ) = s.fp k → (y : ℤ) - x = k →
    d.A[x]? = some a → d.B[y]? ≠ some a

/-- It is the turn of diagonal `k`: of its neighbours, the one on the far side of `delta` has been
dealt with, if the phase looks at it, and the one towards `delta` has not. -/
structure Turn (d : Seqs α) (p : ℤ) (V : ℤ → Prop) (k : ℤ) : Prop where
  spans : d.Spans p k
  before_of_le : k ≤ d.delta → (V (k - 1) ↔ -p ≤ k - 1)
  after_of_lt : k < d.delta → ¬ V (k + 1)
  before_of_lt : d.delta < k → ¬ V (k - 1)
  after_of_le : d.delta ≤ k → (V (k + 1) ↔ k + 1 ≤ d.delta + p)

variable {s₀ : Front} {V : ℤ → Prop}

omit [DecidableEq α] in
theorem At.nonneg (h : d.At s p k) : 0 ≤ s.fp k := by
  obtain ⟨v, x, y, -, hfp, -⟩ := h
  omega

omit [DecidableEq α] in
/-- Before the last point is found, no path below `delta` is in the last column and none above
it in the last row. -/
theorem Found.lt (h : d.Found p s) (hlast : s.fp d.delta ≠ d.N) (hk : d.Spans p k) :
    (k ≤ d.delta → s.fp k - k < d.M) ∧ (d.delta ≤ k → s.fp k < d.N) := by
  have hmem := (h.at_ k hk).mem_reach
  have hb := reach_bounds hmem
  have hend : (d.N : ℤ) ∉ Reach d.A d.B d.delta p d.delta := by
    intro hN
    have hle := h.le _ _ hN
    have hmem := (h.at_ d.delta ⟨hk.1, by have := d.delta_nonneg; have := hk.1; omega,
      by have := hk.1; omega⟩).mem_reach
    have := (reach_bounds hmem).2.2.1
    exact hlast (le_antisymm this hle)
  constructor
  · intro hle
    refine lt_of_le_of_ne hb.2.2.2.1 fun heq => hend ?_
    refine last_mem_reach_of_column rfl (d.delta - k).toNat k (by omega) ?_
    rwa [show (d.A.length : ℤ) + k = s.fp k by rw [M] at heq; omega]
  · intro hle
    refine lt_of_le_of_ne hb.2.2.1 fun heq => hend ?_
    refine last_mem_reach_of_row rfl (k - d.delta).toNat k (by omega) ?_
    rwa [show (d.B.length : ℤ) = s.fp k by rw [heq]; rfl]

omit [DecidableEq α] in
/-- Whatever edit a step takes, it leads from a kept path inside the graph. -/
theorem During.enters (hd : d.During p s₀ V s) (hs₀ : d.Found (p - 1) s₀)
    (hlast : s₀.fp d.delta ≠ d.N) (hk : d.Turn p V k) : d.Enters s p k := by
  obtain ⟨hp, hpk, hkp⟩ := hk.spans
  have hδ := d.delta_nonneg
  have hM : d.delta = (d.B.length : ℤ) - d.A.length := rfl
  -- an entry that is not set is `-1`
  have hunset : ∀ j, ¬ V j → ¬ d.Spans (p - 1) j → s.fp j = -1 ∧ s.path j = -1 := by
    intro j hV hS
    exact ⟨(hd.fp_old j hV).trans (hs₀.outside j hS).1, hd.path_old j hV hS⟩
  have hge : ∀ j, -1 ≤ s.fp j := by
    intro j
    by_cases hV : V j
    · have := (hd.at_new j hV).nonneg; omega
    · by_cases hS : d.Spans (p - 1) j
      · have := (hd.at_old j hV hS).nonneg; omega
      · have := (hunset j hV hS).1; omega
  by_cases hgt : s.fp (k - 1) + 1 > s.fp (k + 1)
  · -- an addition, or the start
    rw [Enters, if_pos hgt, max_eq_left hgt.le]
    by_cases hle : k ≤ d.delta
    · by_cases hV : V (k - 1)
      · obtain ⟨v, x, y, hchain, hfp, hdiag, hv⟩ := hd.at_new _ hV
        have hb := hchain.path.bounds
        exact ⟨v, x, y, v, x, y + 1, hchain, .add (by omega), by omega, by push_cast; omega,
          by omega⟩
      · have hk1 : k - 1 < -p := by
          by_contra hcon
          exact hV ((hk.before_of_le hle).2 (by omega))
        have hS : ¬ d.Spans (p - 1) (k - 1) := by simp only [Spans]; omega
        obtain ⟨hfp, hpath⟩ := hunset _ hV hS
        -- nothing leads down to diagonal `-p` but in phase 0
        have hzero : p = 0 := by
          by_contra hne
          have hV' : ¬ V (k + 1) := hk.after_of_lt (by omega)
          have := (hd.at_old (k + 1) hV' (by simp only [Spans]; omega)).nonneg
          omega
        rw [hpath, hfp]
        exact ⟨0, 0, 0, 0, 0, 0, .start, .none, by omega, by omega, by omega⟩
    · have hV := hk.before_of_lt (by omega)
      have hS : d.Spans (p - 1) (k - 1) := by simp only [Spans]; omega
      obtain ⟨v, x, y, hchain, hfp, hdiag, hv⟩ := hd.at_old _ hV hS
      have hlt := (hs₀.lt hlast hS).2 (by omega)
      rw [← hd.fp_old _ hV, hfp, N] at hlt
      exact ⟨v, x, y, v, x, y + 1, hchain, .add (by omega), by omega, by push_cast; omega,
        by omega⟩
  · -- a deletion
    rw [Enters, if_neg hgt, max_eq_right (not_lt.1 hgt)]
    have hbelow := hge (k - 1)
    by_cases hlt : k < d.delta
    · have hV := hk.after_of_lt hlt
      have hS : d.Spans (p - 1) (k + 1) := by
        by_contra hS
        have := (hunset _ hV hS).1
        omega
      obtain ⟨v, x, y, hchain, hfp, hdiag, hv⟩ := hd.at_old _ hV hS
      have hcol := (hs₀.lt hlast hS).1 (by omega)
      rw [← hd.fp_old _ hV, hfp, M] at hcol
      exact ⟨v, x, y, v + 1, x + 1, y, hchain, .delete (by omega), by omega, by push_cast; omega,
        by push_cast; omega⟩
    · have hV : V (k + 1) := by
        by_contra hV
        have hk1 : ¬ k + 1 ≤ d.delta + p := fun h => hV ((hk.after_of_le (by omega)).2 h)
        have := (hunset _ hV (by simp only [Spans]; omega)).1
        omega
      obtain ⟨v, x, y, hchain, hfp, hdiag, hv⟩ := hd.at_new _ hV
      have hb := hchain.path.bounds
      exact ⟨v, x, y, v + 1, x + 1, y, hchain, .delete (by omega), by omega, by push_cast; omega,
        by push_cast; omega⟩

theorem step_fp_of_ne (hj : j ≠ k) : (d.step s k).fp j = s.fp j := by
  simp [Seqs.step, Function.update_of_ne hj]

theorem step_path_of_ne (hj : j ≠ k) : (d.step s k).path j = s.path j := by
  simp [Seqs.step, Function.update_of_ne hj]

/-- **One step of a phase**: diagonal `k` is dealt with, and what was known stays. -/
theorem During.step (hd : d.During p s₀ V s) (hs₀ : d.Found (p - 1) s₀)
    (hlast : s₀.fp d.delta ≠ d.N) (hk : d.Turn p V k) :
    d.During p s₀ (fun j => V j ∨ j = k) (d.step s k) := by
  obtain ⟨hat, hmax, hstuck⟩ := (hd.enters hs₀ hlast hk).step
  constructor
  · intro j hj
    rw [not_or] at hj
    rw [step_fp_of_ne hj.2, hd.fp_old j hj.1]
  · intro j hj hS
    rw [not_or] at hj
    rw [step_path_of_ne hj.2, hd.path_old j hj.1 hS]
  · intro j hj hS
    rw [not_or] at hj
    exact (hd.at_old j hj.1 hS).step hj.2
  · intro j hj
    by_cases hjk : j = k
    · rw [hjk]; exact hat
    · exact (hd.at_new j (hj.resolve_right hjk)).step hjk
  · intro j hj
    by_cases hjk : j = k
    · rw [hjk]
      simp [Seqs.step]
    · rw [step_path_of_ne hjk]
      exact hd.path_new j (hj.resolve_right hjk)
  · intro j hj hle
    by_cases hjk : j = k
    · subst hjk
      rw [step_fp_of_ne (by omega)]
      omega
    · have hV := hj.resolve_right hjk
      have hne : j - 1 ≠ k := by
        rintro rfl
        exact hk.after_of_lt (by omega) (by rwa [sub_add_cancel])
      rw [step_fp_of_ne hne, step_fp_of_ne hjk]
      exact hd.add_le j hV hle
  · intro j hj hlt
    by_cases hjk : j = k
    · subst hjk
      rw [← hd.fp_old _ (hk.before_of_lt hlt)]
      omega
    · rw [step_fp_of_ne hjk]
      exact hd.add_le_of_lt j (hj.resolve_right hjk) hlt
  · intro j hj hle
    by_cases hjk : j = k
    · subst hjk
      rw [step_fp_of_ne (by omega)]
      omega
    · have hV := hj.resolve_right hjk
      have hne : j + 1 ≠ k := by
        rintro rfl
        exact hk.before_of_lt (by omega) (by rwa [add_sub_cancel_right])
      rw [step_fp_of_ne hne, step_fp_of_ne hjk]
      exact hd.delete_le j hV hle
  · intro j hj hlt
    by_cases hjk : j = k
    · subst hjk
      rw [← hd.fp_old _ (hk.after_of_lt hlt)]
      omega
    · rw [step_fp_of_ne hjk]
      exact hd.delete_le_of_lt j (hj.resolve_right hjk) hlt
  · intro j hj x y a hy hx
    by_cases hjk : j = k
    · subst hjk
      exact hstuck x y a hy hx
    · rw [step_fp_of_ne hjk] at hy
      exact hd.stuck j (hj.resolve_right hjk) x y a hy hx

omit [DecidableEq α] in
theorem During.of_iff (hd : d.During p s₀ V s) (V' : ℤ → Prop) (h : ∀ j, V j ↔ V' j) :
    d.During p s₀ V' s := by
  obtain rfl : V = V' := funext fun j => propext (h j)
  exact hd

omit [DecidableEq α] in
theorem Found.during (h : d.Found (p - 1) s) : d.During p s (fun _ => False) s where
  fp_old _ _ := rfl
  path_old k _ hk := (h.outside k hk).2
  at_old k _ hk := h.at_ k hk
  at_new _ := False.elim
  path_new _ := False.elim
  add_le _ := False.elim
  add_le_of_lt _ := False.elim
  delete_le _ := False.elim
  delete_le_of_lt _ := False.elim
  stuck _ := False.elim

theorem During.rising {q : ℕ} (hs₀ : d.Found ((q : ℤ) - 1) s₀) (hlast : s₀.fp d.delta ≠ d.N) :
    ∀ n : ℕ, (n : ℤ) ≤ d.delta + q →
      d.During q s₀ (fun j => -(q : ℤ) ≤ j ∧ j < -q + n)
        (((List.range n).map fun i : ℕ => -(q : ℤ) + i).foldl d.step s₀) := by
  intro n
  induction n with
  | zero =>
    intro _
    exact hs₀.during.of_iff _ fun j => ⟨False.elim, by push_cast; omega⟩
  | succ n ih =>
    intro hn
    have hδ := d.delta_nonneg
    rw [List.range_succ, List.map_append, List.foldl_append]
    refine ((ih (by omega)).step hs₀ hlast (k := -(q : ℤ) + n) ?_).of_iff _
      fun j => by push_cast; omega
    exact ⟨⟨by omega, by omega, by omega⟩, by omega, by omega, by omega, by omega⟩

theorem During.falling {q : ℕ} (hs₀ : d.Found ((q : ℤ) - 1) s₀)
    (hlast : s₀.fp d.delta ≠ d.N)
    (hs : d.During q s₀ (fun j => -(q : ℤ) ≤ j ∧ j < d.delta) s) :
    ∀ n : ℕ, n ≤ q →
      d.During q s₀
        (fun j => -(q : ℤ) ≤ j ∧ j < d.delta ∨ d.delta + q - n < j ∧ j ≤ d.delta + q)
        (((List.range n).map fun i : ℕ => d.delta + q - i).foldl d.step s) := by
  intro n
  induction n with
  | zero => intro _; exact hs.of_iff _ fun j => by push_cast; omega
  | succ n ih =>
    intro hn
    have hδ := d.delta_nonneg
    rw [List.range_succ, List.map_append, List.foldl_append]
    refine ((ih (by omega)).step hs₀ hlast (k := d.delta + q - n) ?_).of_iff _
      fun j => by push_cast; omega
    exact ⟨⟨by omega, by omega, by omega⟩, by omega, by omega, by omega, by omega⟩

/-- **One phase finds the farthest points of its budget**, and keeps the paths to them. -/
theorem Found.sweep {q : ℕ} (h : d.Found ((q : ℤ) - 1) s) (hlast : s.fp d.delta ≠ d.N) :
    d.Found q (d.sweep q s) := by
  have hδ := d.delta_nonneg
  have hrising := During.rising h hlast (d.delta + q).toNat (by omega)
  have hfalling := During.falling h hlast
    (hrising.of_iff (fun j => -(q : ℤ) ≤ j ∧ j < d.delta) fun j => by omega) q le_rfl
  have hd := (hfalling.step h hlast (k := d.delta)
    ⟨⟨by omega, by omega, by omega⟩, by omega, by omega, by omega, by omega⟩).of_iff
    (d.Spans q) fun j => by simp only [Spans]; omega
  have hsweep : Sweep d.A d.B d.delta q s.fp (d.sweep q s).fp := by
    constructor
    · exact (hd.at_new 0 ⟨by omega, by omega, by omega⟩).nonneg
    · intro k hk hk'
      exact hd.add_le k ⟨by omega, by omega, by omega⟩ hk'
    · intro k hk hk'
      exact hd.add_le_of_lt k ⟨by omega, by omega, hk'⟩ hk
    · intro k hk hk'
      exact hd.delete_le k ⟨by omega, by omega, by omega⟩ hk
    · intro k hk hk'
      exact hd.delete_le_of_lt k ⟨by omega, hk, by omega⟩ hk'
    · intro k hk hk'
      exact hd.stuck k ⟨by omega, hk, hk'⟩
  refine ⟨?_, hd.at_new, hd.path_new, ?_⟩
  · intro k hk
    have hk' : ¬ d.Spans ((q : ℤ) - 1) k := fun hS => hk (by
      obtain ⟨h₁, h₂, h₃⟩ := hS
      exact ⟨by omega, by omega, by omega⟩)
    exact ⟨(hd.fp_old k hk).trans (h.outside k hk').1, hd.path_old k hk hk'⟩
  · intro k y hy
    have hb := reach_bounds hy
    exact (hsweep.isGreatest h.le
      (hd.at_new k ⟨by omega, hb.2.2.2.2.1, hb.2.2.2.2.2⟩).mem_reach).2 hy

omit [DecidableEq α] in
theorem found_blank (d : Seqs α) : d.Found (-1) ⟨fun _ => -1, fun _ => -1, []⟩ where
  outside _ _ := ⟨rfl, rfl⟩
  at_ _ h := absurd h.1 (by omega)
  path_nonneg _ h := absurd h.1 (by omega)
  le := by
    rintro k y ⟨v, x, y', -, -, -, hp⟩
    omega

/-! ### The loop -/

theorem length_points_foldl_step (ks : List ℤ) (s : Front) :
    (ks.foldl d.step s).points.length = s.points.length + ks.length := by
  induction ks generalizing s with
  | nil => rfl
  | cons k ks ih =>
    rw [List.foldl_cons, ih, List.length_cons]
    simp only [step, List.length_append, List.length_singleton]
    omega

theorem length_points_sweep (q : ℕ) (s : Front) :
    ((d.sweep q s).points.length : ℤ) = s.points.length + (d.delta + 2 * q + 1) := by
  have hδ := d.delta_nonneg
  simp only [sweep, step, List.length_append, List.length_singleton, length_points_foldl_step,
    rising, falling, List.length_map, List.length_range]
  push_cast
  omega

omit [DecidableEq α] in
theorem Found.last_iff (h : d.Found p s) (hp : 0 ≤ p) :
    s.fp d.delta = d.N ↔ (d.N : ℤ) ∈ Reach d.A d.B d.delta p d.delta := by
  have hδ := d.delta_nonneg
  have hmem := (h.at_ d.delta ⟨hp, by omega, by omega⟩).mem_reach
  constructor
  · intro heq
    rwa [heq] at hmem
  · intro hN
    exact le_antisymm (reach_bounds hmem).2.2.1 (h.le _ _ hN)

omit [DecidableEq α] in
/-- `M` deletions are always enough. -/
theorem last_mem_reach_length (d : Seqs α) :
    (d.N : ℤ) ∈ Reach d.A d.B d.delta d.M d.delta := by
  refine (mem_reach_last_iff rfl).2
    ⟨d.A.map (fun a => (.delete, a)) ++ d.B.map fun b => (.add, b), by simp, by simp, ?_⟩
  have h := length_src (d.A.map (fun a => (EditKind.delete, a)) ++ d.B.map fun b => (.add, b))
  simp only [src_append, src_map_delete, src_map_add, commons_append, commons_map_delete,
    commons_map_add, List.append_nil, List.length_nil, Nat.zero_add] at h
  rw [M]
  omega

/-- What the loop leaves: the budget `p` of its last phase, and that no smaller one was enough;
it ended at the last point or at the limit. -/
structure Ended (d : Seqs α) (maxSize p : ℕ) (m : Memory) (s : Front) : Prop where
  holding : d.Holding m s
  found : d.Found p s
  not_before : (d.N : ℤ) ∉ Reach d.A d.B d.delta ((p : ℤ) - 1) d.delta
  length : (s.points.length : ℤ) = (p + 1) * (d.delta + p + 1)
  last : s.fp d.delta = d.N ∨ maxSize ≤ s.points.length

theorem onp_of_found (maxSize : ℕ) {q : ℕ} {m : Memory} {s : Front} (hm : d.Holding m s)
    (hs : d.Found ((q : ℤ) - 1) s) (hlast : s.fp d.delta ≠ d.N)
    (hbefore : (d.N : ℤ) ∉ Reach d.A d.B d.delta ((q : ℤ) - 1) d.delta)
    (hlen : (s.points.length : ℤ) = q * (d.delta + q)) :
    ∀ fuel, q + fuel = d.M + 1 →
      ∃ p m' s', d.onp maxSize fuel q m = some (p, m') ∧ d.Ended maxSize p m' s' := by
  intro fuel hfuel
  have hδ := d.delta_nonneg
  have hqM : q ≤ d.M := by
    by_contra hlt
    exact hbefore (reach_mono (by omega) d.last_mem_reach_length)
  induction fuel generalizing q m s with
  | zero => omega
  | succ fuel ih =>
    obtain ⟨m', hpass, hm'⟩ := pass_of_holding hm hqM
    have hs' := hs.sweep hlast
    have hlen' : ((d.sweep q s).points.length : ℤ) = (q + 1) * (d.delta + q + 1) := by
      rw [length_points_sweep, hlen]; ring
    have hread := hm'.fp.read (k := d.delta) (by omega) (by simp only [delta]; omega)
    by_cases hcont : (d.sweep q s).fp d.delta ≠ d.N ∧ m'.pathCordinates.length < maxSize
    · have hbefore' : (d.N : ℤ) ∉ Reach d.A d.B d.delta (((q + 1 : ℕ) : ℤ) - 1) d.delta := by
        rw [Nat.cast_succ, add_sub_cancel_right]
        exact fun h => hcont.1 ((hs'.last_iff (by omega)).2 h)
      have hqM' : q + 1 ≤ d.M := by
        by_contra hlt
        exact hbefore' (reach_mono (by omega) d.last_mem_reach_length)
      obtain ⟨p, m'', s'', honp, hended⟩ := ih hm'
        (by rwa [Nat.cast_succ, add_sub_cancel_right]) hcont.1 hbefore'
        (by rw [hlen']; push_cast; ring) (by omega) hqM'
      exact ⟨p, m'', s'', by simp [onp, hpass, hread, hcont, honp], hended⟩
    · refine ⟨q, m', d.sweep q s, by simp [onp, hpass, hread, hcont], hm', hs', hbefore, hlen', ?_⟩
      rw [not_and_or, not_not, not_lt, hm'.points] at hcont
      exact hcont

/-- **The loop ends.** -/
theorem onp_spec (d : Seqs α) (maxSize : ℕ) :
    ∃ p m s, d.onp maxSize (d.M + 1) 0 d.blank = some (p, m) ∧ d.Ended maxSize p m s := by
  refine onp_of_found maxSize d.holding_blank (by simpa using d.found_blank) ?_ ?_ ?_ _
    (Nat.zero_add _)
  · simp only [ne_eq]; omega
  · rintro ⟨v, x, y, -, -, -, hv⟩
    push_cast at hv
    omega
  · simp

omit [DecidableEq α] in
/-- The loop ends at the last point if the product of the fewest edits of either kind stays below
the limit. -/
theorem Ended.last_of_lt {maxSize q : ℕ} {m : Memory} {P : ℤ} (h : d.Ended maxSize q m s)
    (hP : (d.N : ℤ) ∈ Reach d.A d.B d.delta P d.delta) (hlt : P * (d.delta + P) < maxSize) :
    s.fp d.delta = d.N := by
  by_contra hne
  have hδ := d.delta_nonneg
  have hmax := h.last.resolve_left hne
  have hqP : (q : ℤ) + 1 ≤ P := by
    by_contra hlt'
    exact hne ((h.found.last_iff (by omega)).2 (reach_mono (by omega) hP))
  have hmul : ((q : ℤ) + 1) * (d.delta + q + 1) ≤ P * (d.delta + P) :=
    mul_le_mul hqP (by omega) (by omega) (by omega)
  have := h.length
  omega

end Seqs

end Diff

end ModDup
