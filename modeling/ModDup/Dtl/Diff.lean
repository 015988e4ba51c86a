import ModDup.Lib.EditScript
import Mathlib.Algebra.Order.Group.Int
import Mathlib.Algebra.Order.Ring.Int

/-!
# The difference of two sequences

`dtl::Diff` (`extern/dtl-cpp/dtl/Diff.hpp`): `compose` searches the edit graph of the two
sequences phase by phase, keeps every point it comes to in `pathCordinates`, and records the edit
script along the path it found.  The search gives up once it holds `MAX_CORDINATES_SIZE` points;
what the path leaves over is then deleted and added as a whole, which is what `onUnserious` asks
for and the callers of this repository always do.

`fp` and `path` are arrays indexed by a diagonal plus `offset`; a read or a write outside of them
makes the model fail, as does an iterator past its end.

## Main definitions

* `Diff.Seqs` : the two sequences, the shorter one first; `Diff.Seqs.init`.
* `Diff.Seqs.snake`, `Diff.Seqs.visit`, `Diff.Seqs.pass`, `Diff.Seqs.onp` : the search.
* `Diff.Seqs.recordSequence` : the edit script along a path.
* `Diff.Seqs.compose` : both.
-/

namespace ModDup

namespace Diff

variable {α : Type}

/-- `sesElem`: an element and its `elemInfo`. -/
structure SesElem (α : Type) where
  elem : α
  beforeIdx : ℤ
  afterIdx : ℤ
  type : EditKind
  deriving DecidableEq, Repr

/-- `dtl::P`: a point of the graph, and where in `pathCordinates` its path comes from. -/
structure Point where
  x : ℤ
  y : ℤ
  k : ℤ
  deriving DecidableEq, Repr

/-- `MAX_CORDINATES_SIZE`. -/
def maxCordinatesSize : ℕ := 2000000

/-- The two sequences as `init` leaves them. -/
structure Seqs (α : Type) where
  A : List α
  B : List α
  swapped : Bool
  le : A.length ≤ B.length

/-- `Diff::init`. -/
def Seqs.init (a b : List α) : Seqs α :=
  if h : a.length < b.length then ⟨a, b, false, h.le⟩ else ⟨b, a, true, not_lt.1 h⟩

namespace Seqs

variable (d : Seqs α)

/-- The length of `A`. -/
def M : ℕ := d.A.length

/-- The length of `B`. -/
def N : ℕ := d.B.length

/-- The diagonal of the last point. -/
def delta : ℤ := d.N - d.M

/-- Where diagonal 0 is in the arrays. -/
def offset : ℤ := d.M + 1

end Seqs

/-! ### The search -/

/-- An array read. -/
def read (l : List ℤ) (i : ℤ) : Option ℤ := if 0 ≤ i then l[i.toNat]? else none

/-- An array write. -/
def write (l : List ℤ) (i v : ℤ) : Option (List ℤ) :=
  if 0 ≤ i ∧ i < l.length then some (l.set i.toNat v) else none

/-- What `compose` works on. -/
structure Memory where
  fp : List ℤ
  path : List ℤ
  pathCordinates : List Point

/-- The number of equal elements at the front of two lists. -/
def commonLength [DecidableEq α] : List α → List α → ℕ
  | a :: as, b :: bs => if a = b then commonLength as bs + 1 else 0
  | _, _ => 0

namespace Seqs

variable (d : Seqs α)

/-- The arrays before the first phase, every entry `-1`. -/
def blank : Memory where
  fp := List.replicate (d.M + d.N + 3) (-1)
  path := List.replicate (d.M + d.N + 3) (-1)
  pathCordinates := []

variable [DecidableEq α]

/-- The loop of `snake`: how far the elements after `(y - k, y)` are the same. -/
def slide (k y : ℤ) : ℤ :=
  let x := y - k
  if 0 ≤ x ∧ 0 ≤ y then y + commonLength (d.A.drop x.toNat) (d.B.drop y.toNat) else y

/-- `Diff::snake`. -/
def snake (k above below : ℤ) (m : Memory) : Option (ℤ × Memory) := do
  let r ← if above > below then read m.path (k - 1 + d.offset)
    else read m.path (k + 1 + d.offset)
  let y := d.slide k (max above below)
  let path ← write m.path (k + d.offset) m.pathCordinates.length
  return (y, { m with path, pathCordinates := m.pathCordinates ++ [⟨y - k, y, r⟩] })

/-- `fp[k + offset] = snake(k, fp[k - 1 + offset] + 1, fp[k + 1 + offset])`. -/
def visit (m : Memory) (k : ℤ) : Option Memory := do
  let above ← read m.fp (k - 1 + d.offset)
  let below ← read m.fp (k + 1 + d.offset)
  let (y, m) ← d.snake k (above + 1) below m
  let fp ← write m.fp (k + d.offset) y
  return { m with fp }

/-- `k` from `-p` to `delta - 1`. -/
def rising (p : ℕ) : List ℤ :=
  (List.range (d.delta + p).toNat).map fun i : ℕ => -(p : ℤ) + i

/-- `k` from `delta + p` down to `delta + 1`. -/
def falling (p : ℕ) : List ℤ := (List.range p).map fun i : ℕ => d.delta + p - i

/-- One turn of the loop of `compose`. -/
def pass (p : ℕ) (m : Memory) : Option Memory := do
  let m ← (d.rising p).foldlM d.visit m
  let m ← (d.falling p).foldlM d.visit m
  d.visit m d.delta

/-- The loop of `compose` from phase `p` on, for `fuel` phases at most: the phase it ends with,
and the memory then. -/
def onp (maxSize : ℕ) : (fuel p : ℕ) → Memory → Option (ℕ × Memory)
  | 0, _, _ => none
  | fuel + 1, p, m => do
    let m ← d.pass p m
    let y ← read m.fp (d.delta + d.offset)
    if y ≠ d.N ∧ m.pathCordinates.length < maxSize then onp maxSize fuel (p + 1) m
    else return (p, m)

end Seqs

/-- The loop that collects the points of the path, the last one first. -/
def epc (pathCordinates : List Point) : (fuel : ℕ) → ℤ → Option (List Point)
  | 0, r => if r = -1 then some [] else none
  | fuel + 1, r => if r = -1 then some [] else do
    let q ← if 0 ≤ r then pathCordinates[r.toNat]? else none
    let rest ← epc pathCordinates fuel q.k
    return q :: rest

/-! ### The script -/

/-- The variables of `recordSequence`; an iterator is what is left of its sequence. -/
structure Recording (α : Type) where
  x : List α
  y : List α
  x_idx : ℤ := 1
  y_idx : ℤ := 1
  px_idx : ℤ := 0
  py_idx : ℤ := 0
  lcs : List α := []
  ses : List (SesElem α) := []

/-- `recordOddSequence`, whose loop runs `n` times and is followed by one more entry. -/
def recordOddSequence (et : EditKind) : (n : ℕ) → (idx : ℤ) → List α →
    Option (List (SesElem α))
  | _, _, [] => none
  | 0, idx, a :: _ => some [⟨a, idx, 0, et⟩]
  | n + 1, idx, a :: it => do
    let rest ← recordOddSequence et n (idx + 1) it
    return ⟨a, idx, 0, et⟩ :: rest

/-- What `compose` leaves behind. -/
structure Composed (α : Type) where
  editDistance : ℤ
  lcs : List α
  ses : List (SesElem α)

namespace Seqs

variable (d : Seqs α)

/-- The body of the inner loop of `recordSequence`. -/
def recordStep (v : Point) (s : Recording α) : Option (Recording α) :=
  if v.y - v.x > s.py_idx - s.px_idx then
    match s.y with
    | [] => none
    | b :: y => some { s with
        y, y_idx := s.y_idx + 1, py_idx := s.py_idx + 1
        ses := s.ses ++ [if d.swapped then ⟨b, s.y_idx, 0, .delete⟩ else ⟨b, 0, s.y_idx, .add⟩] }
  else if v.y - v.x < s.py_idx - s.px_idx then
    match s.x with
    | [] => none
    | a :: x => some { s with
        x, x_idx := s.x_idx + 1, px_idx := s.px_idx + 1
        ses := s.ses ++ [if d.swapped then ⟨a, 0, s.x_idx, .add⟩ else ⟨a, s.x_idx, 0, .delete⟩] }
  else
    match s.x, s.y with
    | a :: x, b :: y => some
      { x, y, x_idx := s.x_idx + 1, y_idx := s.y_idx + 1, px_idx := s.px_idx + 1
        py_idx := s.py_idx + 1
        lcs := s.lcs ++ [if d.swapped then b else a]
        ses := s.ses ++ [if d.swapped then ⟨b, s.y_idx, s.x_idx, .common⟩
          else ⟨a, s.x_idx, s.y_idx, .common⟩] }
    | _, _ => none

/-- The inner loop of `recordSequence`. -/
def recordTo (v : Point) : (fuel : ℕ) → Recording α → Option (Recording α)
  | 0, s => if s.px_idx < v.x ∨ s.py_idx < v.y then none else some s
  | fuel + 1, s =>
    if s.px_idx < v.x ∨ s.py_idx < v.y then do
      let s ← d.recordStep v s
      recordTo v fuel s
    else some s

/-- The points of the path, the first one last. -/
def recordPath : List Point → Option (Recording α)
  | [] => none
  | v :: vs => (v :: vs).reverse.foldlM (fun s q => d.recordTo q (d.M + d.N) s)
      { x := d.A, y := d.B }

/-- `Diff::recordSequence` when `trivial` is set, from the edit distance so far. -/
def recordSequence (editDistance : ℤ) (v : List Point) : Option (Composed α) := do
  let s ← d.recordPath v
  if s.x_idx > d.M ∧ s.y_idx > d.N then return ⟨editDistance, s.lcs, s.ses⟩
  else
    let nx := (d.M - s.x_idx).toNat
    let ny := (d.N - s.y_idx).toNat
    let oddX ← recordOddSequence (if d.swapped then .add else .delete) nx s.x_idx s.x
    let oddY ← recordOddSequence (if d.swapped then .delete else .add) ny s.y_idx s.y
    return ⟨editDistance + (nx + 1) + (ny + 1), s.lcs, s.ses ++ oddX ++ oddY⟩

variable [DecidableEq α]

/-- `Diff::compose`, with its limit on the number of points. -/
def compose (maxSize : ℕ) : Option (Composed α) := do
  let (p, m) ← d.onp maxSize (d.M + 1) 0 d.blank
  let r ← read m.path (d.delta + d.offset)
  let v ← epc m.pathCordinates m.pathCordinates.length r
  d.recordSequence (d.delta + 2 * p) v

end Seqs

/-- The edit script of a list of script elements. -/
def script (ses : List (SesElem α)) : List (EditKind × α) := ses.map fun e => (e.type, e.elem)

end Diff

end ModDup
