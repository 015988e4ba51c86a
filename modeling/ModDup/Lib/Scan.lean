import Mathlib.Data.List.Basic

/-!
# Scanners

A scanner reads the beginning of a list, and gives a value and the rest or fails.  It is searched
for by trying it at every position from the left.  A scanner that cannot read over a separator is
searched for in the pieces between the separators, one after the other.

## Main definitions

* `Scan` : scanners; `Scan.char`, `Scan.lit`, `Scan.many1` are the ones to build others from.
* `Scan.search` : the leftmost success.
* `Scan.Local` : a scanner that cannot read over a separator.

## Main results

* `Scan.Local.bind`, `Scan.Local.orElse` : being local is kept by sequence and choice.
* `Scan.search_append_cons` : a search over a separator.
-/

namespace ModDup

/-- Scanners of lists over `α` with values in `β`. -/
abbrev Scan (α β : Type) := StateT (List α) Option β

namespace Scan

variable {α β γ : Type}

section Define

variable [DecidableEq α]

/-- One given character. -/
def char (c : α) : Scan α Unit
  | [] => none
  | x :: s => if x = c then some ((), s) else none

/-- A given text. -/
def lit : List α → Scan α Unit
  | [] => pure ()
  | c :: t => do
    char c
    lit t

end Define

/-- The longest text of characters in `p`, which is not empty. -/
def many1 (p : α → Bool) : Scan α (List α) := fun s =>
  if s.takeWhile p = [] then none else some (s.takeWhile p, s.dropWhile p)

/-- The value at the leftmost position where the scanner succeeds. -/
def search (m : Scan α β) : List α → Option β
  | [] => (m []).map Prod.fst
  | x :: s => ((m (x :: s)).map Prod.fst).or (search m s)

/-! ### Scanning what was written -/

theorem bind_eq_of_some {m : Scan α β} {f : β → Scan α γ} {s t : List α} {b : β}
    (h : m s = some (b, t)) : (m >>= f) s = f b t := by
  change (m s).bind (fun r => f r.1 r.2) = _
  rw [h]
  rfl

theorem lit_append [DecidableEq α] (l s : List α) : lit l (l ++ s) = some ((), s) := by
  induction l with
  | nil => rfl
  | cons c l ih =>
    have hchar : char c (c :: (l ++ s)) = some ((), l ++ s) := if_pos rfl
    rw [List.cons_append, lit, bind_eq_of_some hchar, ih]

theorem many1_append {p : α → Bool} {w s : List α} (hw : ∀ x ∈ w, p x = true) (hne : w ≠ [])
    (hs : s.takeWhile p = []) : many1 p (w ++ s) = some (w, s) := by
  have hdrop : s.dropWhile p = s := by
    have := List.takeWhile_append_dropWhile (p := p) (l := s)
    rwa [hs, List.nil_append] at this
  rw [many1, List.takeWhile_append_of_pos hw, List.dropWhile_append_of_pos hw, hs, hdrop,
    List.append_nil, if_neg hne]

/-! ### Separators -/

/-- The scanner does not see what comes at the separator. -/
def Local (sep : α) (m : Scan α β) : Prop :=
  ∀ s t, m (s ++ sep :: t) = (m s).map fun r => (r.1, r.2 ++ sep :: t)

section Local

variable {sep : α} {m m' : Scan α β} {f : β → Scan α γ}

theorem Local.pure (sep : α) (b : β) : Local sep (Pure.pure b : Scan α β) := fun _ _ => rfl

theorem Local.bind (h : Local sep m) (hf : ∀ b, Local sep (f b)) : Local sep (m >>= f) := by
  intro s t
  change (m (s ++ sep :: t)).bind (fun r => f r.1 r.2) = ((m s).bind fun r => f r.1 r.2).map _
  rw [h]
  cases m s with
  | none => rfl
  | some r => exact hf r.1 r.2 t

theorem Local.orElse (h : Local sep m) (h' : Local sep m') : Local sep (m <|> m') := by
  intro s t
  change (m (s ++ sep :: t) <|> m' (s ++ sep :: t)) = (m s <|> m' s).map _
  rw [h, h']
  cases m s <;> rfl

variable [DecidableEq α]

theorem Local.char {c : α} (hc : sep ≠ c) : Local sep (char c) := by
  intro s t
  cases s with
  | nil => exact if_neg hc
  | cons x s =>
    change (if x = c then _ else _) = Option.map _ (if x = c then _ else _)
    split_ifs <;> rfl

theorem Local.lit {l : List α} (hl : sep ∉ l) : Local sep (lit l) := by
  induction l with
  | nil => exact Local.pure sep ()
  | cons c l ih =>
    rw [List.mem_cons, not_or] at hl
    exact (Local.char hl.1).bind fun _ => ih hl.2

omit [DecidableEq α] in
theorem Local.many1 {p : α → Bool} (hp : p sep = false) : Local sep (many1 p) := by
  have hpieces : ∀ s t : List α, (s ++ sep :: t).takeWhile p = s.takeWhile p ∧
      (s ++ sep :: t).dropWhile p = s.dropWhile p ++ sep :: t := by
    intro s t
    induction s with
    | nil => simp [hp]
    | cons x s ih =>
      by_cases hx : p x = true
      · simp [hx, ih]
      · simp [hx]
  intro s t
  obtain ⟨htake, hdrop⟩ := hpieces s t
  unfold Scan.many1
  rw [htake, hdrop]
  split_ifs <;> rfl

end Local

/-! ### Searching -/

section Search

variable {sep : α} {m : Scan α β}

/-- **A search over a separator** is a search before it, and then one after it. -/
theorem search_append_cons (h : Local sep m) (hnil : m [] = none) (s t : List α) :
    search m (s ++ sep :: t) = (search m s).or (search m t) := by
  induction s with
  | nil =>
    have hsep : m (sep :: t) = none := by
      have hlocal := h [] t
      rw [hnil] at hlocal
      exact hlocal
    simp [search, hsep, hnil]
  | cons x s ih =>
    have hhead : (m (x :: (s ++ sep :: t))).map Prod.fst = (m (x :: s)).map Prod.fst := by
      rw [← List.cons_append, h, Option.map_map]
      rfl
    rw [List.cons_append, search, hhead, ih, search, Option.or_assoc]

theorem bind_eq_none {s : List α} (h : m s = none) (f : β → Scan α γ) :
    (m >>= f) s = none := by
  change (m s).bind _ = none
  rw [h]
  rfl

/-- What is not found is not found with a condition on what follows it. -/
theorem search_bind_eq_none {s : List α} (h : search m s = none) (f : β → Scan α γ) :
    search (m >>= f) s = none := by
  induction s with
  | nil =>
    rw [search, Option.map_eq_none_iff] at h
    rw [search, bind_eq_none h]
    rfl
  | cons x s ih =>
    rw [search, Option.or_eq_none_iff, Option.map_eq_none_iff] at h
    rw [search, bind_eq_none h.1, ih h.2]
    rfl

variable [DecidableEq α]

theorem lit_eq_none {l s : List α} (h : ¬ l <+: s) : lit l s = none := by
  induction l generalizing s with
  | nil => exact absurd List.nil_prefix h
  | cons c l ih =>
    cases s with
    | nil => rfl
    | cons x s =>
      by_cases hx : x = c
      · have hchar : char c (x :: s) = some ((), s) := if_pos hx
        rw [List.cons_prefix_cons, not_and] at h
        change (char c (x :: s)).bind (fun r => lit l r.2) = none
        rw [hchar]
        exact ih (h hx.symm)
      · exact bind_eq_none (if_neg hx) _

theorem search_lit_eq_none {c : α} {l s : List α} (hc : c ∉ s) :
    search (lit (c :: l)) s = none := by
  have hchar : ∀ s, c ∉ s → lit (c :: l) s = none := by
    intro s hs
    refine lit_eq_none fun h => hs ?_
    exact h.subset List.mem_cons_self
  induction s with
  | nil => rfl
  | cons x s ih =>
    rw [search, hchar _ hc, ih fun h => hc (List.mem_cons_of_mem x h)]
    rfl

end Search

end Scan

end ModDup
