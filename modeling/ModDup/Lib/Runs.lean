import Mathlib.Data.List.Basic
import Mathlib.Data.List.Induction

/-!
# Runs of a machine

A machine takes a step for every event, whatever the event is; a run is a list of events, and a
property of every run is proved by what one step preserves.

## Main definitions

* `Runs.run` : the state after a list of events.
* `Runs.together` : one step of two parties that share a memory; `Runs.Interleaves` : any order
  of their steps that keeps the order of each.

## Main results

* `Runs.run_invariant` : a property that every step keeps holds after every run.
* `Runs.run_invariant_along` : the same where the events depend on the state they come to.
* `Runs.run_history` : the same for a property of the state and the events so far.
* `Runs.run_together_eq_alone` : when the steps of the other party change nothing in an order of
  steps.
* `Runs.accepts_iff` : when a machine that may refuse an event accepts a list of them.
-/

namespace ModDup

namespace Runs

variable {σ ε : Type*} {step : σ → ε → σ}

/-- The state after a list of events. -/
def run (step : σ → ε → σ) (s : σ) (es : List ε) : σ := es.foldl step s

@[simp] theorem run_nil (s : σ) : run step s [] = s := rfl

@[simp] theorem run_cons (s : σ) (e : ε) (es : List ε) :
    run step s (e :: es) = run step (step s e) es := rfl

theorem run_append (s : σ) (es es' : List ε) :
    run step s (es ++ es') = run step (run step s es) es' := List.foldl_append

theorem run_snoc (s : σ) (es : List ε) (e : ε) :
    run step s (es ++ [e]) = step (run step s es) e := by
  rw [run_append, run_cons, run_nil]

/-- **The rule for invariants**, over runs whose events all satisfy `G`. -/
theorem run_invariant {P : σ → Prop} {G : ε → Prop}
    (hstep : ∀ s e, P s → G e → P (step s e)) {s : σ} (hs : P s) {es : List ε}
    (hes : ∀ e ∈ es, G e) : P (run step s es) := by
  induction es generalizing s with
  | nil => exact hs
  | cons e es ih =>
    have he : G e := hes e List.mem_cons_self
    exact ih (hstep s e hs he) fun e' he' => hes e' (List.mem_cons_of_mem e he')

/-- `G` holds of each event of a run in the state it comes to. -/
def Along (step : σ → ε → σ) (G : σ → ε → Prop) : σ → List ε → Prop
  | _, [] => True
  | s, e :: es => G s e ∧ Along step G (step s e) es

/-- The rule for invariants, over runs along which `G` holds. -/
theorem run_invariant_along {P : σ → Prop} {G : σ → ε → Prop}
    (hstep : ∀ s e, P s → G s e → P (step s e)) {s : σ} (hs : P s) {es : List ε}
    (hes : Along step G s es) : P (run step s es) := by
  induction es generalizing s with
  | nil => exact hs
  | cons e es ih => exact ih (hstep s e hs hes.1) hes.2

/-- **The rule for invariants with history**: the property speaks of the events so far too. -/
theorem run_history {P : List ε → σ → Prop} {s : σ} (hs : P [] s)
    (hstep : ∀ es s e, P es s → P (es ++ [e]) (step s e)) (es : List ε) :
    P es (run step s es) := by
  induction es using List.reverseRecOn with
  | nil => exact hs
  | append_singleton es e ih =>
    rw [run_snoc]
    exact hstep es _ e ih

/-! ### Two parties and a memory -/

section Together

variable {α β W V M : Type*}

/-- The steps of two parties in some order, each keeping the order of its own. -/
def Interleaves (l₁ : List α) (l₂ : List β) (t : List (α ⊕ β)) : Prop :=
  t.filterMap Sum.getLeft? = l₁ ∧ t.filterMap Sum.getRight? = l₂

/-- One step of one of two parties: it changes the state of that party and the memory. -/
def together (step₁ : W × M → α → W × M) (step₂ : V × M → β → V × M) (s : W × V × M) :
    α ⊕ β → W × V × M
  | .inl a => ((step₁ (s.1, s.2.2) a).1, s.2.1, (step₁ (s.1, s.2.2) a).2)
  | .inr b => (s.1, step₂ s.2 b)

variable {step₁ : W × M → α → W × M} {step₂ : V × M → β → V × M}

theorem interleaves_append (l₁ l₁' : List α) (l₂ l₂' : List β) :
    Interleaves (l₁ ++ l₁') (l₂ ++ l₂')
      (l₁.map Sum.inl ++ l₂.map Sum.inr ++ l₁'.map Sum.inl ++ l₂'.map Sum.inr) := by
  constructor
  · simp [List.filterMap_append, List.filterMap_map, Function.comp_def]
  · simp [List.filterMap_append, List.filterMap_map, Function.comp_def]

theorem run_together_inl (l : List α) (w : W) (v : V) (m : M) :
    run (together step₁ step₂) (w, v, m) (l.map Sum.inl) =
      ((run step₁ (w, m) l).1, v, (run step₁ (w, m) l).2) := by
  induction l generalizing w m with
  | nil => rfl
  | cons a l ih => exact ih _ _

theorem run_together_inr (l : List β) (w : W) (s : V × M) :
    run (together step₁ step₂) (w, s) (l.map Sum.inr) = (w, run step₂ s l) := by
  induction l generalizing s with
  | nil => rfl
  | cons b l ih => exact ih _

/-- **The rule for non-interference.**  `R w m m'` relates the memory of the common run to the
one of the run of the first party alone.  If the first party does the same in related memories,
and the steps of the other keep them related, then it ends as it does alone. -/
theorem run_together_eq_alone {R : W → M → M → Prop} {G : β → Prop}
    (hown : ∀ w m m' a, R w m m' →
      (step₁ (w, m) a).1 = (step₁ (w, m') a).1 ∧
        R (step₁ (w, m') a).1 (step₁ (w, m) a).2 (step₁ (w, m') a).2)
    (hother : ∀ w v m m' b, R w m m' → G b → R w (step₂ (v, m) b).2 m')
    {t : List (α ⊕ β)} (hG : ∀ b ∈ t.filterMap Sum.getRight?, G b) {w : W} {v : V} {m m' : M}
    (hR : R w m m') :
    (run (together step₁ step₂) (w, v, m) t).1 =
      (run step₁ (w, m') (t.filterMap Sum.getLeft?)).1 := by
  induction t generalizing w v m m' with
  | nil => rfl
  | cons e t ih =>
    cases e with
    | inl a =>
      obtain ⟨hsame, hR'⟩ := hown w m m' a hR
      have hG' : ∀ b ∈ t.filterMap Sum.getRight?, G b := fun b hb => hG b (by simpa using hb)
      have hrest := ih hG' (v := v) hR'
      rw [run_cons, together, hsame, hrest, List.filterMap_cons_some (by rfl), run_cons]
    | inr b =>
      have hb : G b := hG b (by simp)
      have hG' : ∀ b ∈ t.filterMap Sum.getRight?, G b := fun b hb => hG b (by simp [hb])
      have hR' : R w (step₂ (v, m) b).2 m' := hother w v m m' b hR hb
      rw [run_cons, together, List.filterMap_cons_none (by rfl)]
      exact ih hG' (v := (step₂ (v, m) b).1) hR'

end Together

/-! ### A machine that may refuse -/

/-- The events of a run, each behind those before it. -/
def before : List ε → List (List ε × ε)
  | [] => []
  | e :: es => ([], e) :: (before es).map fun p => (e :: p.1, p.2)

theorem before_snoc (es : List ε) (e : ε) : before (es ++ [e]) = before es ++ [(es, e)] := by
  induction es with
  | nil => rfl
  | cons a es ih =>
    rw [List.cons_append, before, ih, before, List.map_append, List.cons_append]
    rfl

section Refusing

variable {τ κ : Type*} {f : σ → ε → Except τ σ} {next : κ → ε → κ}

theorem foldlM_snoc_ok {s t : σ} {es : List ε} {e : ε} :
    (es ++ [e]).foldlM f s = .ok t ↔ ∃ u, es.foldlM f s = .ok u ∧ f u e = .ok t := by
  rw [List.foldlM_append]
  cases es.foldlM f s with
  | error x =>
    constructor
    · intro h
      cases h
    · rintro ⟨u, hu, -⟩
      cases hu
  | ok u =>
    have hlast : ([e].foldlM f u) = f u e := by
      rw [List.foldlM_cons]
      cases f u e <;> rfl
    refine ⟨fun h => ⟨u, rfl, hlast ▸ h⟩, ?_⟩
    rintro ⟨u', hu, hstep⟩
    cases hu
    exact hlast.trans hstep

/-- The rule for what a machine keeps that accepts a list of events, with history. -/
theorem foldlM_history {P : List ε → σ → Prop} {s : σ} (hs : P [] s)
    (hstep : ∀ es u e t, es.foldlM f s = .ok u → P es u → f u e = .ok t → P (es ++ [e]) t)
    {es : List ε} {t : σ} (h : es.foldlM f s = .ok t) : P es t := by
  induction es using List.reverseRecOn generalizing t with
  | nil =>
    cases h
    exact hs
  | append_singleton es e ih =>
    obtain ⟨u, hu, he⟩ := foldlM_snoc_ok.1 h
    exact hstep es u e t hu (ih hu) he

/-- A machine that refuses a list of events refuses one of them, after those before it. -/
theorem foldlM_refused {s : σ} {es : List ε} {x : τ} (h : es.foldlM f s = .error x) :
    ∃ pre e post u, es = pre ++ e :: post ∧ pre.foldlM f s = .ok u ∧ f u e = .error x := by
  induction es generalizing s with
  | nil => cases h
  | cons e es ih =>
    rw [List.foldlM_cons] at h
    cases he : f s e with
    | error y =>
      rw [he] at h
      cases h
      exact ⟨[], e, es, s, rfl, rfl, he⟩
    | ok t =>
      rw [he] at h
      obtain ⟨pre, e', post, u, rfl, hpre, hlast⟩ := ih h
      refine ⟨e :: pre, e', post, u, rfl, ?_, hlast⟩
      rw [List.foldlM_cons, he]
      exact hpre

theorem cur_foldlM (cur : σ → κ) (hcur : ∀ s e t, f s e = .ok t → cur t = next (cur s) e) {s t : σ}
    {es : List ε} (h : es.foldlM f s = .ok t) : cur t = run next (cur s) es := by
  refine foldlM_history (P := fun es t => cur t = run next (cur s) es) rfl ?_ h
  intro es u e t _ hu he
  rw [run_snoc, hcur u e t he, hu]

/-- **The rule for acceptance**: if what is accepted depends on `cur`, which goes by the events,
a list of events is accepted iff each of them is, after those before it. -/
theorem accepts_iff (cur : σ → κ) (ok : κ → ε → Prop)
    (hcur : ∀ s e t, f s e = .ok t → cur t = next (cur s) e)
    (hok : ∀ s e, (∃ t, f s e = .ok t) ↔ ok (cur s) e) (s : σ) (es : List ε) :
    (∃ t, es.foldlM f s = .ok t) ↔ ∀ p ∈ before es, ok (run next (cur s) p.1) p.2 := by
  induction es using List.reverseRecOn with
  | nil =>
    constructor
    · intro _ p hp
      cases hp
    · exact fun _ => ⟨s, rfl⟩
  | append_singleton es e ih =>
    rw [before_snoc, List.forall_mem_append, ← ih]
    constructor
    · rintro ⟨t, ht⟩
      obtain ⟨u, hu, hstep⟩ := foldlM_snoc_ok.1 ht
      refine ⟨⟨u, hu⟩, fun p hp => ?_⟩
      obtain rfl := List.mem_singleton.1 hp
      show ok (run next (cur s) es) e
      rw [← cur_foldlM cur hcur hu]
      exact (hok u e).1 ⟨t, hstep⟩
    · rintro ⟨⟨u, hu⟩, hlast⟩
      have he : ok (run next (cur s) es) e := hlast (es, e) (List.mem_singleton_self _)
      rw [← cur_foldlM cur hcur hu] at he
      obtain ⟨t, ht⟩ := (hok u e).2 he
      exact ⟨t, foldlM_snoc_ok.2 ⟨u, hu, ht⟩⟩

end Refusing

end Runs

end ModDup
