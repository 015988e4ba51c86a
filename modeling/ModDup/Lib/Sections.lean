import ModDup.Lib.Runs
import Mathlib.Logic.Function.Basic

/-!
# Writers of one output

Several parties write to one output, each through a buffer of its own, in sections of which at most
one is open at a time.  A buffer may be written out in any pieces while the section is open, and is
empty when the section is left.  A party can end anywhere, and its buffer ends with it.

## Main definitions

* `Sections.Labelling` : whose a section is, and what it writes.
* `Sections.St`, `Sections.step` : the output, the buffers and the open section.
* `Sections.St.pieces` : what each section has written, the open one last; `Sections.St.labels` :
  whose it is.

## Main results

* `Sections.accounted_run` : the output is the pieces of the sections, and each piece is the text of
  its section, or the start of it if the section was cut.
* `Sections.recorded_run` : a section was cut by the end of its party.
* `Sections.labels_run` : each section was entered by an event of its own.
-/

namespace ModDup

namespace Sections

variable {ι π α : Type*}

/-- What the label of a section says. -/
structure Labelling (ι π α : Type*) where
  /-- The party, through whose buffer it writes. -/
  home : ι → π
  text : ι → List α

/-- A section that is over: what it has written to the output, and whether it was left (it is cut
where its party ends). -/
structure Section (ι α : Type*) where
  label : ι
  written : List α
  left : Bool

/-- The open section, with the part of its text that is not in the buffer yet. -/
structure Current (ι α : Type*) where
  label : ι
  written : List α := []
  rest : List α

/-- The open section is over. -/
def Current.close (c : Current ι α) (left : Bool) : Section ι α where
  label := c.label
  written := c.written
  left := left

/-- The output and the buffers; no step depends on the sections that are over. -/
structure St (ι π α : Type*) where
  out : List α := []
  buf : π → List α := fun _ => []
  cur : Option (Current ι α) := none
  past : List (Section ι α) := []

/-- What can happen. -/
inductive Ev (ι π : Type*) where
  | enter (l : ι)
  /-- The next elements of the text go to the buffer. -/
  | put (n : ℕ)
  /-- The first elements of the buffer go to the output. -/
  | drain (n : ℕ)
  | leave
  | die (p : π)
  /-- The buffer of a party that has no section open goes to the output. -/
  | spill (p : π)

/-- The section that an event enters. -/
def Ev.entered? : Ev ι π → Option ι
  | .enter l => some l
  | _ => none

variable [DecidableEq π] (L : Labelling ι π α)

/-- One step; what cannot happen changes nothing. -/
def step (s : St ι π α) : Ev ι π → St ι π α
  | .enter l => match s.cur with
    | some _ => s
    | none => { s with cur := some { label := l, rest := L.text l } }
  | .put n => match s.cur with
    | none => s
    | some c =>
      { s with
        buf := Function.update s.buf (L.home c.label) (s.buf (L.home c.label) ++ c.rest.take n)
        cur := some { c with rest := c.rest.drop n } }
  | .drain n => match s.cur with
    | none => s
    | some c =>
      { s with
        out := s.out ++ (s.buf (L.home c.label)).take n
        buf := Function.update s.buf (L.home c.label) ((s.buf (L.home c.label)).drop n)
        cur := some { c with written := c.written ++ (s.buf (L.home c.label)).take n } }
  | .leave => match s.cur with
    | none => s
    | some c =>
      if c.rest = [] ∧ s.buf (L.home c.label) = [] then
        { s with cur := none, past := s.past ++ [c.close true] }
      else s
  | .die p => match s.cur with
    | none => { s with buf := Function.update s.buf p [] }
    | some c =>
      if L.home c.label = p then
        { s with
          buf := Function.update s.buf p []
          cur := none
          past := s.past ++ [c.close false] }
      else { s with buf := Function.update s.buf p [] }
  | .spill p =>
    if (s.cur.map fun c => L.home c.label) = some p then s
    else { s with out := s.out ++ s.buf p, buf := Function.update s.buf p [] }

section Steps

variable {L} {s : St ι π α} {c : Current ι α} {p : π}

theorem step_enter (hcur : s.cur = none) (l : ι) : step L s (.enter l) =
    { s with cur := some { label := l, rest := L.text l } } := by
  simp only [step, hcur]

theorem step_put (hcur : s.cur = some c) (n : ℕ) : step L s (.put n) =
    { s with
      buf := Function.update s.buf (L.home c.label) (s.buf (L.home c.label) ++ c.rest.take n)
      cur := some { c with rest := c.rest.drop n } } := by
  simp only [step, hcur]

theorem step_drain (hcur : s.cur = some c) (n : ℕ) : step L s (.drain n) =
    { s with
      out := s.out ++ (s.buf (L.home c.label)).take n
      buf := Function.update s.buf (L.home c.label) ((s.buf (L.home c.label)).drop n)
      cur := some { c with written := c.written ++ (s.buf (L.home c.label)).take n } } := by
  simp only [step, hcur]

theorem step_leave (hcur : s.cur = some c) (hrest : c.rest = [])
    (hbuf : s.buf (L.home c.label) = []) :
    step L s .leave = { s with cur := none, past := s.past ++ [c.close true] } := by
  simp only [step, hcur]
  exact if_pos ⟨hrest, hbuf⟩

theorem step_die_cut (hcur : s.cur = some c) (hp : L.home c.label = p) : step L s (.die p) =
    { s with
      buf := Function.update s.buf p []
      cur := none
      past := s.past ++ [c.close false] } := by
  simp only [step, hcur]
  exact if_pos hp

theorem step_die_lose (hp : ∀ c, s.cur = some c → L.home c.label ≠ p) :
    step L s (.die p) = { s with buf := Function.update s.buf p [] } := by
  cases hcur : s.cur with
  | none => simp only [step, hcur]
  | some c =>
    simp only [step, hcur]
    rw [if_neg (hp c hcur)]

theorem step_spill (hp : ∀ c, s.cur = some c → L.home c.label ≠ p) :
    step L s (.spill p) =
      { s with out := s.out ++ s.buf p, buf := Function.update s.buf p [] } := by
  refine if_neg fun hsame => ?_
  obtain ⟨c, hc, hcp⟩ := Option.map_eq_some_iff.1 hsame
  exact hp c hc hcp

end Steps

/-- What a step does, by what can happen. -/
inductive Does (L : Labelling ι π α) (s : St ι π α) : Ev ι π → St ι π α → Prop where
  | nothing (e : Ev ι π) : Does L s e s
  | enter (l : ι) (hcur : s.cur = none) : Does L s (.enter l)
      { s with cur := some { label := l, rest := L.text l } }
  | put (n : ℕ) (c : Current ι α) (hcur : s.cur = some c) : Does L s (.put n)
      { s with
        buf := Function.update s.buf (L.home c.label) (s.buf (L.home c.label) ++ c.rest.take n)
        cur := some { c with rest := c.rest.drop n } }
  | drain (n : ℕ) (c : Current ι α) (hcur : s.cur = some c) : Does L s (.drain n)
      { s with
        out := s.out ++ (s.buf (L.home c.label)).take n
        buf := Function.update s.buf (L.home c.label) ((s.buf (L.home c.label)).drop n)
        cur := some { c with written := c.written ++ (s.buf (L.home c.label)).take n } }
  | leave (c : Current ι α) (hcur : s.cur = some c) (hrest : c.rest = [])
      (hbuf : s.buf (L.home c.label) = []) : Does L s .leave
      { s with cur := none, past := s.past ++ [c.close true] }
  | cut (c : Current ι α) (hcur : s.cur = some c) : Does L s (.die (L.home c.label))
      { s with
        buf := Function.update s.buf (L.home c.label) []
        cur := none
        past := s.past ++ [c.close false] }
  | lose (p : π) (hp : ∀ c, s.cur = some c → L.home c.label ≠ p) : Does L s (.die p)
      { s with buf := Function.update s.buf p [] }
  | spill (p : π) (hp : ∀ c, s.cur = some c → L.home c.label ≠ p) : Does L s (.spill p)
      { s with out := s.out ++ s.buf p, buf := Function.update s.buf p [] }

theorem does_step (s : St ι π α) (e : Ev ι π) : Does L s e (step L s e) := by
  have hnone : s.cur = none → ∀ p c, s.cur = some c → L.home c.label ≠ p := by
    intro hcur p c hc
    rw [hcur] at hc
    cases hc
  cases hcur : s.cur with
  | none =>
    cases e with
    | enter l => exact step_enter hcur l ▸ .enter l hcur
    | die p => exact step_die_lose (hnone hcur p) ▸ .lose p (hnone hcur p)
    | spill p => exact step_spill (hnone hcur p) ▸ .spill p (hnone hcur p)
    | _ =>
      simp only [step, hcur]
      exact .nothing _
  | some c =>
    have hother : ∀ p, L.home c.label ≠ p → ∀ c', s.cur = some c' → L.home c'.label ≠ p := by
      intro p hp c' hc'
      rwa [← Option.some.inj (hcur.symm.trans hc')]
    cases e with
    | enter l =>
      simp only [step, hcur]
      exact .nothing _
    | put n => exact step_put hcur n ▸ .put n c hcur
    | drain n => exact step_drain hcur n ▸ .drain n c hcur
    | leave =>
      by_cases hdone : c.rest = [] ∧ s.buf (L.home c.label) = []
      · exact step_leave hcur hdone.1 hdone.2 ▸ .leave c hcur hdone.1 hdone.2
      · simp only [step, hcur]
        exact if_neg hdone ▸ .nothing _
    | die p =>
      by_cases hp : L.home c.label = p
      · subst hp
        exact step_die_cut hcur rfl ▸ .cut c hcur
      · exact step_die_lose (hother p hp) ▸ .lose p (hother p hp)
    | spill p =>
      by_cases hp : L.home c.label = p
      · have hsame : step L s (.spill p) = s := if_pos (by rw [hcur, Option.map_some, hp])
        exact hsame.symm ▸ .nothing _
      · exact step_spill (hother p hp) ▸ .spill p (hother p hp)

/-- What each section has written, the open one last. -/
def St.pieces (s : St ι π α) : List (List α) :=
  s.past.map Section.written ++ s.cur.toList.map Current.written

/-- The labels of the sections, the open one last. -/
def St.labels (s : St ι π α) : List ι :=
  s.past.map Section.label ++ s.cur.toList.map Current.label

variable {L} {s t : St ι π α} {e : Ev ι π}

/-! ### The output in pieces -/

/-- The output is in pieces, each the text of its section or the start of it; the buffers are empty
outside of the sections. -/
structure Accounted (L : Labelling ι π α) (s : St ι π α) : Prop where
  out : s.out = s.pieces.flatten
  buf : ∀ p, (∀ c, s.cur = some c → L.home c.label ≠ p) → s.buf p = []
  cur : ∀ c, s.cur = some c → L.text c.label = c.written ++ s.buf (L.home c.label) ++ c.rest
  past : ∀ x ∈ s.past, x.written <+: L.text x.label ∧ (x.left = true → x.written = L.text x.label)

omit [DecidableEq π] in
theorem Accounted.written_cur (h : Accounted L s) {c : Current ι α} (hc : s.cur = some c) :
    c.written <+: L.text c.label := by
  rw [h.cur c hc, List.append_assoc]
  exact List.prefix_append _ _

omit [DecidableEq π] in
theorem Accounted.close (h : Accounted L s) {c : Current ι α} (hc : s.cur = some c) {left : Bool}
    (hleft : left = true → c.written = L.text c.label) :
    ∀ x ∈ s.past ++ [c.close left],
      x.written <+: L.text x.label ∧ (x.left = true → x.written = L.text x.label) := by
  intro x hx
  rcases List.mem_append.1 hx with hx | hx
  · exact h.past x hx
  · obtain rfl := List.mem_singleton.1 hx
    exact ⟨h.written_cur hc, hleft⟩

theorem Accounted.buf_other (h : Accounted L s) {c : Current ι α} (hc : s.cur = some c)
    (v : List α) {p : π} (hp : L.home c.label ≠ p) :
    Function.update s.buf (L.home c.label) v p = [] := by
  rw [Function.update_of_ne (Ne.symm hp)]
  refine h.buf p fun c' hc' => ?_
  rwa [← Option.some.inj (hc.symm.trans hc')]

/-- The end of a party without a section changes nothing: its buffer is empty. -/
theorem Accounted.update_buf (h : Accounted L s) {p : π}
    (hp : ∀ c, s.cur = some c → L.home c.label ≠ p) : Function.update s.buf p [] = s.buf := by
  rw [← h.buf p hp, Function.update_eq_self]

theorem accounted_step (h : Accounted L s) (ht : Does L s e t) : Accounted L t := by
  cases ht with
  | nothing => exact h
  | enter l hcur =>
    have hempty : ∀ p, s.buf p = [] := fun p => h.buf p fun c hc => by rw [hcur] at hc; cases hc
    refine ⟨by simpa [St.pieces, hcur] using h.out, fun p _ => hempty p, fun c hc => ?_, h.past⟩
    cases hc
    simp [hempty]
  | put n c hcur =>
    refine ⟨by simpa [St.pieces, hcur] using h.out,
      fun p hp => h.buf_other hcur _ (hp { c with rest := c.rest.drop n } rfl),
      fun c' hc' => ?_, h.past⟩
    cases hc'
    dsimp only
    rw [h.cur c hcur, Function.update_self, List.append_assoc, List.append_assoc, List.append_assoc,
      List.take_append_drop]
  | drain n c hcur =>
    refine ⟨?_, fun p hp => h.buf_other hcur _ (hp { c with written := _ ++ _ } rfl),
      fun c' hc' => ?_, h.past⟩
    · have hout := h.out
      rw [St.pieces, hcur] at hout
      simp [St.pieces, hout]
    · cases hc'
      dsimp only
      rw [h.cur c hcur, Function.update_self, List.append_assoc c.written (List.take _ _),
        List.take_append_drop]
  | leave c hcur hrest hbuf =>
    refine ⟨by simpa [St.pieces, hcur, Current.close] using h.out, fun p _ => ?_,
      fun c' hc' => (by cases hc'), h.close hcur fun _ => ?_⟩
    · by_cases hp : L.home c.label = p
      · exact hp ▸ hbuf
      · refine h.buf p fun c' hc' => ?_
        rwa [← Option.some.inj (hcur.symm.trans hc')]
    · rw [h.cur c hcur, hrest, hbuf, List.append_nil, List.append_nil]
  | cut c hcur =>
    refine ⟨by simpa [St.pieces, hcur, Current.close] using h.out, fun p _ => ?_,
      fun c' hc' => (by cases hc'), h.close hcur fun hleft => (by cases hleft)⟩
    by_cases hp : L.home c.label = p
    · rw [← hp]
      exact Function.update_self ..
    · exact h.buf_other hcur _ hp
  | lose p hp =>
    rw [h.update_buf hp]
    exact h
  | spill p hp =>
    rw [h.update_buf hp, h.buf p hp, List.append_nil]
    exact h

/-- **No piece holds anything of another section**, whatever party ends or spills its buffer. -/
theorem accounted_run (es : List (Ev ι π)) : Accounted L (Runs.run (step L) {} es) :=
  Runs.run_invariant (G := fun _ => True) (fun s e h _ => accounted_step h (does_step L s e))
    ⟨rfl, fun _ _ => rfl, fun _ hc => (by cases hc), fun _ hx => (by cases hx)⟩ fun _ _ => trivial

/-! ### The sections and what has happened -/

/-- A section that was not left was cut by the end of its party. -/
def Recorded (L : Labelling ι π α) (es : List (Ev ι π)) (s : St ι π α) : Prop :=
  ∀ x ∈ s.past, x.left = false → .die (L.home x.label) ∈ es

theorem recorded_step {es : List (Ev ι π)} (h : Recorded L es s) (ht : Does L s e t) :
    Recorded L (es ++ [e]) t := by
  have hpast : Recorded L (es ++ [e]) s := fun x hx hleft =>
    List.mem_append_left _ (h x hx hleft)
  have hclose : ∀ (c : Current ι α) left, (left = false → e = .die (L.home c.label)) →
      ∀ x ∈ s.past ++ [c.close left], x.left = false → .die (L.home x.label) ∈ es ++ [e] := by
    intro c left hcut x hx hleft
    rcases List.mem_append.1 hx with hx | hx
    · exact hpast x hx hleft
    · obtain rfl := List.mem_singleton.1 hx
      rw [hcut hleft]
      exact List.mem_append_right _ (List.mem_singleton_self _)
  cases ht with
  | leave c => exact hclose c true fun h => (by cases h)
  | cut c => exact hclose c false fun _ => rfl
  | _ => exact hpast

theorem recorded_run (es : List (Ev ι π)) : Recorded L es (Runs.run (step L) {} es) :=
  Runs.run_history (P := Recorded L) (fun _ hx => (by cases hx))
    (fun _ s e h => recorded_step h (does_step L s e)) es

/-- An event adds at most the section it enters. -/
theorem labels_step (ht : Does L s e t) :
    t.labels = s.labels ∨ t.labels = s.labels ++ e.entered?.toList := by
  have hclose : ∀ (c : Current ι α) left, s.cur = some c →
      (s.past ++ [c.close left]).map Section.label = s.labels := by
    intro c left hcur
    rw [St.labels, hcur, List.map_append]
    rfl
  cases ht with
  | nothing => exact .inl rfl
  | enter l hcur =>
    right
    rw [St.labels, St.labels, hcur]
    simp [Ev.entered?]
  | put n c hcur =>
    left
    rw [St.labels, St.labels, hcur]
    rfl
  | drain n c hcur =>
    left
    rw [St.labels, St.labels, hcur]
    rfl
  | leave c hcur =>
    left
    rw [← hclose c true hcur]
    exact List.append_nil _
  | cut c hcur =>
    left
    rw [← hclose c false hcur]
    exact List.append_nil _
  | lose => exact .inl rfl
  | spill => exact .inl rfl

/-- **Each section was entered by an event of its own**, in this order. -/
theorem labels_run (es : List (Ev ι π)) :
    (Runs.run (step L) {} es).labels.Sublist (es.filterMap Ev.entered?) := by
  refine Runs.run_history
    (P := fun es (s : St ι π α) => s.labels.Sublist (es.filterMap Ev.entered?))
    (List.Sublist.refl _) (fun es s e h => ?_) es
  have hsnoc : (es ++ [e]).filterMap Ev.entered? =
      es.filterMap Ev.entered? ++ e.entered?.toList := by
    rw [List.filterMap_append]
    cases e <;> rfl
  rw [hsnoc]
  rcases labels_step (does_step L s e) with hs | hs
  · rw [hs]
    exact h.trans (List.sublist_append_left _ _)
  · rw [hs]
    exact h.append (List.Sublist.refl _)

end Sections

end ModDup
