import ModDup.Dtl.Search

/-!
# The recorded script

`recordSequence` walks along the points of the path and records what leads from each to the next.
Whatever the search came to, the script leads from the one sequence to the other, and the entries
that are kept carry their line numbers in both (`Seqs.compose_spec`).  As long as the search was
not cut short, no script has fewer edits (`Seqs.compose_fewest`).

## Main results

* `Diff.compose_leads` : the script of two sequences, and its numbering.
* `Diff.compose_shortest_longest` : it has the fewest edits and keeps a longest common
  subsequence.
-/

namespace ModDup

namespace Diff

open EditGraph EditScript

variable {α : Type}

@[simp] theorem script_nil : script ([] : List (SesElem α)) = [] := rfl

@[simp] theorem script_append (es es' : List (SesElem α)) :
    script (es ++ es') = script es ++ script es' := List.map_append

@[simp] theorem script_cons (e : SesElem α) (es : List (SesElem α)) :
    script (e :: es) = (e.type, e.elem) :: script es := rfl

/-- From line `i` of the first sequence and line `j` of the second on, the entries that are kept
carry the right numbers. -/
def Numbered : (i j : ℤ) → List (SesElem α) → Prop
  | _, _, [] => True
  | i, j, e :: es => (e.type = .common → e.beforeIdx = i ∧ e.afterIdx = j) ∧
    Numbered (i + if e.type.inSrc then 1 else 0) (j + if e.type.inDst then 1 else 0) es

theorem numbered_append {es es' : List (SesElem α)} {i j : ℤ} :
    Numbered i j (es ++ es') ↔ Numbered i j es ∧
      Numbered (i + (src (script es)).length) (j + (dst (script es)).length) es' := by
  induction es generalizing i j with
  | nil => simp [Numbered]
  | cons e es ih =>
    have hi : (i + if e.type.inSrc then 1 else 0) + ((src (script es)).length : ℤ) =
        i + (src (script (e :: es))).length := by
      cases h : e.type.inSrc <;> simp [h]; omega
    have hj : (j + if e.type.inDst then 1 else 0) + ((dst (script es)).length : ℤ) =
        j + (dst (script (e :: es))).length := by
      cases h : e.type.inDst <;> simp [h]; omega
    rw [List.cons_append, Numbered, ih, hi, hj, Numbered, and_assoc]

theorem numbered_of_no_common {es : List (SesElem α)} (h : ∀ e ∈ es, e.type ≠ .common)
    (i j : ℤ) : Numbered i j es := by
  induction es generalizing i j with
  | nil => trivial
  | cons e es ih =>
    obtain ⟨he, hes⟩ := List.forall_mem_cons.1 h
    exact ⟨fun hc => absurd hc he, ih hes _ _⟩

namespace Seqs

variable {d : Seqs α} {s : Recording α} {v x y n : ℕ} {q : Point}

/-- The script as one from `A` to `B`. -/
def orient (d : Seqs α) (s : List (EditKind × α)) : List (EditKind × α) :=
  if d.swapped then inverse s else s

@[simp] theorem orient_append (s t : List (EditKind × α)) :
    d.orient (s ++ t) = d.orient s ++ d.orient t := by
  unfold orient
  split_ifs
  · exact inverse_append s t
  · rfl

/-- What is recorded once the walk has come to `(x, y)` with `v` deletions. -/
structure Recorded (d : Seqs α) (v x y : ℕ) (s : Recording α) : Prop where
  x_eq : s.x = d.A.drop x
  y_eq : s.y = d.B.drop y
  x_idx : s.x_idx = x + 1
  y_idx : s.y_idx = y + 1
  px_idx : s.px_idx = x
  py_idx : s.py_idx = y
  src : src (d.orient (script s.ses)) = d.A.take x
  dst : dst (d.orient (script s.ses)) = d.B.take y
  dels : dels (d.orient (script s.ses)) = v
  lcs : s.lcs = commons (script s.ses)
  numbered : Numbered 1 1 s.ses

theorem recorded_start (d : Seqs α) : d.Recorded 0 0 0 { x := d.A, y := d.B } := by
  constructor <;> simp [orient, Numbered]

/-- The lengths so far, whichever sequence is called the first. -/
theorem Recorded.lengths (h : d.Recorded v x y s) (hx : x ≤ d.A.length) (hy : y ≤ d.B.length) :
    ((EditScript.src (script s.ses)).length : ℤ) = (if d.swapped then y else x : ℕ) ∧
      ((EditScript.dst (script s.ses)).length : ℤ) = (if d.swapped then x else y : ℕ) := by
  have hsrc := congrArg List.length h.src
  have hdst := congrArg List.length h.dst
  rw [List.length_take_of_le hx] at hsrc
  rw [List.length_take_of_le hy] at hdst
  cases hsw : d.swapped <;> simp only [orient, hsw] at hsrc hdst ⊢ <;> simp_all

theorem Recorded.add (h : d.Recorded v x y s) (hq : q.y - q.x > (y : ℤ) - x)
    (hy : y < d.B.length) : ∃ s', d.recordStep q s = some s' ∧ d.Recorded v x (y + 1) s' := by
  have hrest : s.y = d.B[y] :: d.B.drop (y + 1) := by
    rw [h.y_eq, List.drop_eq_getElem_cons hy]
  have hcond : q.y - q.x > s.py_idx - s.px_idx := by rw [h.px_idx, h.py_idx]; exact hq
  refine ⟨_, by rw [recordStep, if_pos hcond, hrest], ?_⟩
  have hstep : d.orient (script (s.ses ++
      [if d.swapped then ⟨d.B[y], s.y_idx, 0, .delete⟩ else ⟨d.B[y], 0, s.y_idx, .add⟩])) =
      d.orient (script s.ses) ++ [(.add, d.B[y])] := by
    rw [script_append, orient_append]
    cases hsw : d.swapped <;> simp [orient, hsw]
  refine ⟨h.x_eq, rfl, h.x_idx, by simp [h.y_idx], h.px_idx, by simp [h.py_idx], ?_, ?_, ?_, ?_, ?_⟩
  · rw [hstep]; simp [h.src, EditKind.inSrc]
  · rw [hstep, dst_append, h.dst, List.take_add_one, List.getElem?_eq_getElem hy]; rfl
  · rw [hstep, dels_append, h.dels]; rfl
  · rw [h.lcs]; cases d.swapped <;> simp
  · refine numbered_append.2 ⟨h.numbered, numbered_of_no_common ?_ _ _⟩
    cases d.swapped <;> simp

theorem Recorded.delete (h : d.Recorded v x y s) (hq : q.y - q.x < (y : ℤ) - x)
    (hx : x < d.A.length) :
    ∃ s', d.recordStep q s = some s' ∧ d.Recorded (v + 1) (x + 1) y s' := by
  have hrest : s.x = d.A[x] :: d.A.drop (x + 1) := by
    rw [h.x_eq, List.drop_eq_getElem_cons hx]
  have hcond : q.y - q.x < s.py_idx - s.px_idx := by rw [h.px_idx, h.py_idx]; exact hq
  refine ⟨_, by rw [recordStep, if_neg (not_lt.2 hcond.le), if_pos hcond, hrest], ?_⟩
  have hstep : d.orient (script (s.ses ++
      [if d.swapped then ⟨d.A[x], 0, s.x_idx, .add⟩ else ⟨d.A[x], s.x_idx, 0, .delete⟩])) =
      d.orient (script s.ses) ++ [(.delete, d.A[x])] := by
    rw [script_append, orient_append]
    cases hsw : d.swapped <;> simp [orient, hsw]
  refine ⟨rfl, h.y_eq, by simp [h.x_idx], h.y_idx, by simp [h.px_idx], h.py_idx, ?_, ?_, ?_, ?_, ?_⟩
  · rw [hstep, src_append, h.src, List.take_add_one, List.getElem?_eq_getElem hx]; rfl
  · rw [hstep]; simp [h.dst, EditKind.inDst]
  · rw [hstep, dels_append, h.dels]; rfl
  · rw [h.lcs]; cases d.swapped <;> simp
  · refine numbered_append.2 ⟨h.numbered, numbered_of_no_common ?_ _ _⟩
    cases d.swapped <;> simp

theorem Recorded.common (h : d.Recorded v x y s) (hq : q.y - q.x = (y : ℤ) - x) {a : α}
    (hx : d.A[x]? = some a) (hy : d.B[y]? = some a) :
    ∃ s', d.recordStep q s = some s' ∧ d.Recorded v (x + 1) (y + 1) s' := by
  obtain ⟨hxlt, hxa⟩ := List.getElem?_eq_some_iff.1 hx
  obtain ⟨hylt, hya⟩ := List.getElem?_eq_some_iff.1 hy
  have hrestx : s.x = a :: d.A.drop (x + 1) := by
    rw [h.x_eq, List.drop_eq_getElem_cons hxlt, hxa]
  have hresty : s.y = a :: d.B.drop (y + 1) := by
    rw [h.y_eq, List.drop_eq_getElem_cons hylt, hya]
  have hcond : q.y - q.x = s.py_idx - s.px_idx := by rw [h.px_idx, h.py_idx]; exact hq
  refine ⟨_, by rw [recordStep, if_neg (by omega), if_neg (by omega), hrestx, hresty], ?_⟩
  have hstep : d.orient (script (s.ses ++ [if d.swapped then ⟨a, s.y_idx, s.x_idx, .common⟩
        else ⟨a, s.x_idx, s.y_idx, .common⟩])) =
      d.orient (script s.ses) ++ [(.common, a)] := by
    rw [script_append, orient_append]
    cases hsw : d.swapped <;> simp [orient, hsw]
  refine ⟨rfl, rfl, by simp [h.x_idx], by simp [h.y_idx], by simp [h.px_idx], by simp [h.py_idx],
    ?_, ?_, ?_, ?_, ?_⟩
  · rw [hstep, src_append, h.src, List.take_add_one, hx]; rfl
  · rw [hstep, dst_append, h.dst, List.take_add_one, hy]; rfl
  · rw [hstep, dels_append, h.dels]; rfl
  · rw [h.lcs]; cases d.swapped <;> simp
  · refine numbered_append.2 ⟨h.numbered, ?_⟩
    obtain ⟨hsrc, hdst⟩ := h.lengths hxlt.le hylt.le
    rw [hsrc, hdst]
    cases hsw : d.swapped <;> simp [Numbered, h.x_idx, h.y_idx, add_comm]

/-! ### The walk -/

theorem recordTo_of_reached (h : d.Recorded v x y s) (hx : q.x = x) (hy : q.y = y) (fuel : ℕ) :
    d.recordTo q fuel s = some s := by
  have hcond : ¬ (s.px_idx < q.x ∨ s.py_idx < q.y) := by rw [h.px_idx, h.py_idx]; omega
  cases fuel with
  | zero => rw [recordTo, if_neg hcond]
  | succ fuel => rw [recordTo, if_neg hcond]

theorem recordTo_run (h : d.Recorded v x y s) (fuel : ℕ) (hrun : Run d.A d.B x y n)
    (hx : q.x = x + n) (hy : q.y = y + n) (hfuel : n ≤ fuel) :
    ∃ s', d.recordTo q fuel s = some s' ∧ d.Recorded v (x + n) (y + n) s' := by
  induction n generalizing x y s fuel with
  | zero => exact ⟨s, recordTo_of_reached h (by simpa using hx) (by simpa using hy) fuel, h⟩
  | succ n ih =>
    obtain ⟨fuel, rfl⟩ : ∃ f, fuel = f + 1 := ⟨fuel - 1, by omega⟩
    obtain ⟨a, ha, hb⟩ := hrun 0 (by omega)
    obtain ⟨s₁, hstep, h₁⟩ := h.common (q := q) (by omega) ha hb
    have hcond : s.px_idx < q.x ∨ s.py_idx < q.y := by rw [h.px_idx]; omega
    obtain ⟨s', hrest, h'⟩ := ih h₁ fuel
      (fun j hj => by
        have := hrun (j + 1) (by omega)
        rwa [show x + (j + 1) = x + 1 + j by omega,
          show y + (j + 1) = y + 1 + j by omega] at this)
      (by push_cast at hx ⊢; omega) (by push_cast at hy ⊢; omega) (by omega)
    refine ⟨s', by rw [recordTo, if_pos hcond, hstep]; exact hrest, ?_⟩
    rwa [show x + (n + 1) = x + 1 + n by omega, show y + (n + 1) = y + 1 + n by omega]

/-- From one point of the path to the next: its edit, and what is equal after it. -/
theorem recordTo_edge {v' x' y' fuel : ℕ} (h : d.Recorded v x y s)
    (hedge : Edge d.A d.B v x y v' x' y') (hrun : Run d.A d.B x' y' n)
    (hx : q.x = x' + n) (hy : q.y = y' + n) (hfuel : n < fuel) :
    ∃ s', d.recordTo q fuel s = some s' ∧ d.Recorded v' (x' + n) (y' + n) s' := by
  obtain ⟨fuel, rfl⟩ : ∃ f, fuel = f + 1 := ⟨fuel - 1, by omega⟩
  cases hedge with
  | none => exact recordTo_run h _ hrun hx hy (by omega)
  | delete hlt =>
    obtain ⟨s₁, hstep, h₁⟩ := h.delete (q := q) (by push_cast at hx; omega) hlt
    have hcond : s.px_idx < q.x ∨ s.py_idx < q.y := by rw [h.px_idx]; omega
    obtain ⟨s', hrest, h'⟩ := recordTo_run h₁ fuel hrun hx hy (by omega)
    exact ⟨s', by rw [recordTo, if_pos hcond, hstep]; exact hrest, h'⟩
  | add hlt =>
    obtain ⟨s₁, hstep, h₁⟩ := h.add (q := q) (by push_cast at hy; omega) hlt
    have hcond : s.px_idx < q.x ∨ s.py_idx < q.y := by rw [h.py_idx]; omega
    obtain ⟨s', hrest, h'⟩ := recordTo_run h₁ fuel hrun hx hy (by omega)
    exact ⟨s', by rw [recordTo, if_pos hcond, hstep]; exact hrest, h'⟩

theorem recordTo_point {v' x' y' : ℕ} (h : d.Recorded v x y s)
    (hedge : Edge d.A d.B v x y v' x' y') (hrun : Run d.A d.B x' y' n)
    (hpath : Path d.A d.B v x y) (hx : q.x = x' + n) (hy : q.y = y' + n) :
    ∃ s', d.recordTo q (d.M + d.N) s = some s' ∧ d.Recorded v' (x' + n) (y' + n) s' := by
  have hb := (Path.run (hedge.path hpath) hrun).bounds
  by_cases hlt : n < d.M + d.N
  · exact recordTo_edge h hedge hrun hx hy hlt
  · -- there is no room for both an edit and so long a run
    have hM : d.A.length = d.M := rfl
    have hN : d.B.length = d.N := rfl
    have hn : n = 0 := by omega
    subst hn
    cases hedge with
    | none => exact ⟨s, recordTo_of_reached h (by simpa using hx) (by simpa using hy) _, h⟩
    | delete hlt' => omega
    | add hlt' => omega

/-- Following the chain back and walking along it records a script with its deletions. -/
theorem Chain.recorded {points : List Point} {r : ℤ} (h : Chain d.A d.B points r v x y) :
    ∃ vs, (∀ fuel : ℕ, r < fuel → epc points fuel r = some vs) ∧ (vs = [] → r = -1) ∧
      ∃ s, vs.reverse.foldlM (fun s q => d.recordTo q (d.M + d.N) s) { x := d.A, y := d.B } =
        some s ∧ d.Recorded v x y s := by
  induction h with
  | start =>
    refine ⟨[], fun fuel _ => ?_, fun _ => rfl, _, rfl, d.recorded_start⟩
    cases fuel <;> simp [epc]
  | @point v x y v' x' y' n i q hchain hlt hedge hrun hi hx hy ih =>
    obtain ⟨vs, hepc, -, s, hfold, hs⟩ := ih
    obtain ⟨s', hrec, hs'⟩ := recordTo_point hs hedge hrun hchain.path hx hy
    refine ⟨q :: vs, fun fuel hfuel => ?_, by simp, s', ?_, hs'⟩
    · obtain ⟨fuel, rfl⟩ : ∃ f, fuel = f + 1 := ⟨fuel - 1, by omega⟩
      have hne : ¬ ((i : ℤ) = -1) := by omega
      simp [epc, hne, hi, hepc fuel (by omega)]
    · rw [List.reverse_cons, List.foldlM_append, hfold]
      simp [hrec]

/-! ### What the search left over -/

theorem recordOddSequence_spec (et : EditKind) (het : et ≠ .common) (l : List α) :
    l ≠ [] → ∀ idx : ℤ, ∃ es, recordOddSequence et (l.length - 1) idx l = some es ∧
      script es = l.map (fun a => (et, a)) ∧ ∀ e ∈ es, e.type ≠ .common := by
  induction l with
  | nil => intro h; exact absurd rfl h
  | cons a l ih =>
    intro _ idx
    cases l with
    | nil => exact ⟨[⟨a, idx, 0, et⟩], rfl, rfl, by simpa using het⟩
    | cons b l =>
      obtain ⟨es, hes, hscript, hkind⟩ := ih (by simp) (idx + 1)
      refine ⟨⟨a, idx, 0, et⟩ :: es, ?_, ?_, ?_⟩
      · simp only [List.length_cons, Nat.add_sub_cancel] at hes ⊢
        simp [recordOddSequence, hes]
      · simp [hscript]
      · simpa [het] using hkind

theorem commons_script_of_no_common {es : List (SesElem α)}
    (h : ∀ e ∈ es, e.type ≠ .common) : commons (script es) = [] := by
  induction es with
  | nil => rfl
  | cons e es ih =>
    obtain ⟨he, hes⟩ := List.forall_mem_cons.1 h
    simp [he, ih hes]

/-- What is recorded is a script from `A` to `B`. -/
structure Leads (d : Seqs α) (c : Composed α) : Prop where
  src : src (d.orient (script c.ses)) = d.A
  dst : dst (d.orient (script c.ses)) = d.B
  lcs : c.lcs = commons (script c.ses)
  numbered : Numbered 1 1 c.ses

/-- The walk ends at the last point, or short of both ends. -/
theorem recordSequence_spec {vs : List Point} (dist : ℤ)
    (hrec : d.recordPath vs = some s) (hs : d.Recorded v x y s)
    (hd : (y : ℤ) - x = d.delta) (hx : x ≤ d.M) :
    ∃ c, d.recordSequence dist vs = some c ∧ d.Leads c ∧
      (y = d.N → c.editDistance = dist ∧ dels (d.orient (script c.ses)) = v) := by
  have hM : d.M = d.A.length := rfl
  have hN : d.N = d.B.length := rfl
  rw [delta] at hd
  by_cases hend : x = d.M
  · -- nothing is left over
    have hy : y = d.N := by omega
    refine ⟨⟨dist, s.lcs, s.ses⟩, ?_, ⟨?_, ?_, hs.lcs, hs.numbered⟩, fun _ => ⟨rfl, hs.dels⟩⟩
    · rw [recordSequence, hrec]
      simp only [Option.bind_eq_bind, Option.bind_some, hs.x_idx, hs.y_idx]
      rw [if_pos ⟨by omega, by omega⟩]
      rfl
    · rw [hs.src, hend, hM, List.take_length]
    · rw [hs.dst, hy, hN, List.take_length]
  · have hlenx : s.x.length - 1 = (d.M - s.x_idx).toNat := by
      rw [hs.x_eq, List.length_drop, hs.x_idx]; omega
    have hleny : s.y.length - 1 = (d.N - s.y_idx).toNat := by
      rw [hs.y_eq, List.length_drop, hs.y_idx]; omega
    have hnex : s.x ≠ [] := by
      intro h; have := congrArg List.length h; rw [hs.x_eq, List.length_drop] at this
      simp only [List.length_nil] at this; omega
    have hney : s.y ≠ [] := by
      intro h; have := congrArg List.length h; rw [hs.y_eq, List.length_drop] at this
      simp only [List.length_nil] at this; omega
    obtain ⟨oddX, hoddX, hscriptX, hkindX⟩ := recordOddSequence_spec
      (if d.swapped then .add else .delete) (by split_ifs <;> simp) s.x hnex s.x_idx
    obtain ⟨oddY, hoddY, hscriptY, hkindY⟩ := recordOddSequence_spec
      (if d.swapped then .delete else .add) (by split_ifs <;> simp) s.y hney s.y_idx
    rw [hlenx] at hoddX
    rw [hleny] at hoddY
    have hscript : d.orient (script (s.ses ++ oddX ++ oddY)) = d.orient (script s.ses) ++
        s.x.map (fun a => (.delete, a)) ++ s.y.map fun b => (.add, b) := by
      rw [script_append, script_append, orient_append, orient_append, hscriptX, hscriptY]
      cases hsw : d.swapped <;> simp [orient, hsw]
    have hnum : Numbered 1 1 (s.ses ++ oddX ++ oddY) := by
      rw [List.append_assoc]
      refine numbered_append.2 ⟨hs.numbered, numbered_of_no_common ?_ _ _⟩
      intro e he
      exact (List.mem_append.1 he).elim (hkindX e) (hkindY e)
    refine ⟨⟨dist + ((d.M - s.x_idx).toNat + 1) + ((d.N - s.y_idx).toNat + 1), s.lcs,
      s.ses ++ oddX ++ oddY⟩, ?_, ⟨?_, ?_, ?_, hnum⟩, fun hy => by omega⟩
    · rw [recordSequence, hrec]
      simp only [Option.bind_eq_bind, Option.bind_some]
      rw [if_neg (by rw [hs.x_idx]; omega), hoddX, hoddY]
      rfl
    · rw [hscript, src_append, src_append, src_map_delete, src_map_add, hs.src, hs.x_eq,
        List.append_nil, List.take_append_drop]
    · rw [hscript, dst_append, dst_append, dst_map_delete, dst_map_add, hs.dst, hs.y_eq,
        List.append_nil, List.take_append_drop]
    · simp [hs.lcs, commons_script_of_no_common hkindX, commons_script_of_no_common hkindY]

variable [DecidableEq α]

/-- **`compose` returns a script**, and one with the fewest deletions from the shorter sequence
unless the search came to its limit. -/
theorem compose_spec (d : Seqs α) (maxSize : ℕ) :
    ∃ c, d.compose maxSize = some c ∧ d.Leads c ∧
      ∀ t, src t = d.A → dst t = d.B → dels t * adds t < maxSize →
        c.editDistance = dels (d.orient (script c.ses)) + adds (d.orient (script c.ses)) ∧
          ∀ u, src u = d.A → dst u = d.B → dels (d.orient (script c.ses)) ≤ dels u := by
  obtain ⟨p, m, s, honp, hended⟩ := d.onp_spec maxSize
  have hδ := d.delta_nonneg
  have hle : d.delta ≤ d.N := by rw [delta]; omega
  obtain ⟨v, x, y, hchain, hfp, hdiag, hv⟩ := hended.found.at_ d.delta
    ⟨by omega, by omega, by omega⟩
  have hread := hended.holding.path.read (k := d.delta) (by omega) (by omega)
  obtain ⟨vs, hepc, hnil, rec, hfold, hrec⟩ := Chain.recorded hchain
  have hvs : vs ≠ [] := by
    intro h
    have := hended.found.path_nonneg d.delta ⟨by omega, by omega, by omega⟩
    have := hnil h
    omega
  have hepc := hepc m.pathCordinates.length (by rw [hended.holding.points]; exact hchain.lt)
  rw [← hended.holding.points] at hepc
  have hpath : d.recordPath vs = some rec := by
    cases vs with
    | nil => exact absurd rfl hvs
    | cons q vs => exact hfold
  obtain ⟨c, hc, hleads, hfull⟩ := recordSequence_spec (d.delta + 2 * p) hpath hrec hdiag
    hchain.path.bounds.1
  refine ⟨c, by simp [compose, honp, hread, hepc, hc], hleads, ?_⟩
  -- the smallest budget that is enough is the number of deletions of the path
  have hfewest : ∀ u, src u = d.A → dst u = d.B → p ≤ dels u := by
    intro u hsrc hdst
    by_contra hlt
    exact hended.not_before ((mem_reach_last_iff rfl).2 ⟨u, hsrc, hdst, by omega⟩)
  intro t hsrc hdst hlt
  have hedits := dels_add_adds hsrc hdst
  have hM : d.M = d.A.length := rfl
  have hN : d.N = d.B.length := rfl
  have hadds : d.delta + dels t = adds t := by rw [delta]; omega
  have hlast := hended.last_of_lt ((mem_reach_last_iff rfl).2 ⟨t, hsrc, hdst, le_rfl⟩)
    (by rw [hadds]; exact_mod_cast hlt)
  obtain ⟨hdist, hdels⟩ := hfull (by omega)
  have hvp := hfewest _ hleads.src hleads.dst
  have hall := dels_add_adds hleads.src hleads.dst
  refine ⟨by rw [hdist, delta]; omega, ?_⟩
  intro u husrc hudst
  have := hfewest u husrc hudst
  omega

end Seqs

/-! ### The two sequences -/

variable [DecidableEq α]

/-- **`compose` never fails**: the search stays inside its arrays and ends, the walk stays inside
the sequences, and the script leads from the first sequence to the second, whatever the limit. -/
theorem compose_leads (maxSize : ℕ) (a b : List α) :
    ∃ c, (Seqs.init a b).compose maxSize = some c ∧ src (script c.ses) = a ∧
      dst (script c.ses) = b ∧ c.lcs = commons (script c.ses) ∧ Numbered 1 1 c.ses := by
  obtain ⟨c, hc, ⟨hsrc, hdst, hlcs, hnum⟩, -⟩ := (Seqs.init a b).compose_spec maxSize
  refine ⟨c, hc, ?_, ?_, hlcs, hnum⟩
  · unfold Seqs.init at hsrc hdst
    split_ifs at hsrc hdst
    · exact hsrc
    · simpa [Seqs.orient] using hdst
  · unfold Seqs.init at hsrc hdst
    split_ifs at hsrc hdst
    · exact hdst
    · simpa [Seqs.orient] using hsrc

/-- The script has the fewest edits, if some script has a product of its deletions and additions
below the limit. -/
theorem compose_fewest (maxSize : ℕ) {a b : List α} {t : List (EditKind × α)}
    (hsrc : src t = a) (hdst : dst t = b) (hlt : dels t * adds t < maxSize) :
    ∃ c, (Seqs.init a b).compose maxSize = some c ∧
      c.editDistance = dels (script c.ses) + adds (script c.ses) ∧
      ∀ u, src u = a → dst u = b →
        dels (script c.ses) + adds (script c.ses) ≤ dels u + adds u := by
  obtain ⟨c, hc, hleads, hfewest⟩ := (Seqs.init a b).compose_spec maxSize
  obtain ⟨c', hc', hcsrc, hcdst, -⟩ := compose_leads maxSize a b
  obtain rfl : c = c' := Option.some.inj (hc.symm.trans hc')
  have hedits := dels_add_adds hcsrc hcdst
  refine ⟨c, hc, ?_⟩
  unfold Seqs.init at hfewest
  split_ifs at hfewest
  · obtain ⟨hdist, hmin⟩ := hfewest t hsrc hdst hlt
    refine ⟨hdist, fun u husrc hudst => ?_⟩
    have := hmin u husrc hudst
    have := dels_add_adds husrc hudst
    simp only [Seqs.orient, Bool.false_eq_true, ↓reduceIte] at *
    omega
  · obtain ⟨hdist, hmin⟩ := hfewest (inverse t) (by simpa using hdst) (by simpa using hsrc)
      (by rw [dels_inverse, adds_inverse, mul_comm]; exact hlt)
    simp only [Seqs.orient, ↓reduceIte, dels_inverse, adds_inverse] at hdist hmin
    refine ⟨by omega, fun u husrc hudst => ?_⟩
    have := hmin (inverse u) (by simpa using hudst) (by simpa using husrc)
    have := dels_add_adds husrc hudst
    rw [dels_inverse] at *
    omega

/-- **A shortest script and a longest common subsequence**, unless the search was cut short: the
script leads from the one sequence to the other, and no other has fewer edits. -/
theorem compose_shortest_longest {maxSize : ℕ} {a b : List α} {t : List (EditKind × α)}
    (hsrc : src t = a) (hdst : dst t = b) (hlt : dels t * adds t < maxSize) :
    ∃ c, (Seqs.init a b).compose maxSize = some c ∧
      src (script c.ses) = a ∧ dst (script c.ses) = b ∧
      c.editDistance = dels (script c.ses) + adds (script c.ses) ∧
      (∀ u, src u = a → dst u = b → c.editDistance ≤ dels u + adds u) ∧
      c.lcs.Sublist a ∧ c.lcs.Sublist b ∧
      ∀ l : List α, l.Sublist a → l.Sublist b → l.length ≤ c.lcs.length := by
  obtain ⟨c, hc, hdist, hmin⟩ := compose_fewest maxSize hsrc hdst hlt
  obtain ⟨c', hc', hcsrc, hcdst, hlcs, -⟩ := compose_leads maxSize a b
  obtain rfl : c = c' := Option.some.inj (hc.symm.trans hc')
  have hlongest := (fewest_iff_longest (script c.ses)).1 (by rw [hcsrc, hcdst]; exact hmin)
  have hsrc' := commons_sublist_src (script c.ses)
  have hdst' := commons_sublist_dst (script c.ses)
  rw [← hlcs, hcsrc] at hsrc'
  rw [← hlcs, hcdst] at hdst'
  rw [hcsrc, hcdst, ← hlcs] at hlongest
  refine ⟨c, hc, hcsrc, hcdst, hdist, fun u husrc hudst => ?_, hsrc', hdst', hlongest⟩
  have := hmin u husrc hudst
  omega

theorem compose_shortest_longest_abc :
    ∃ c, (Seqs.init [1, 2, 3] [1, 3, 4]).compose maxCordinatesSize = some c ∧
      src (script c.ses) = [1, 2, 3] ∧ dst (script c.ses) = [1, 3, 4] ∧
      c.editDistance = dels (script c.ses) + adds (script c.ses) ∧
      (∀ u, src u = [1, 2, 3] → dst u = [1, 3, 4] → c.editDistance ≤ dels u + adds u) ∧
      c.lcs.Sublist [1, 2, 3] ∧ c.lcs.Sublist [1, 3, 4] ∧
      ∀ l : List ℕ, l.Sublist [1, 2, 3] → l.Sublist [1, 3, 4] → l.length ≤ c.lcs.length :=
  compose_shortest_longest (t := [(.common, 1), (.delete, 2), (.common, 3), (.add, 4)]) rfl rfl
    (by decide)

end Diff

end ModDup
