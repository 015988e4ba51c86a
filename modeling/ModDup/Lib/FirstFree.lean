import Mathlib.Data.List.Nodup

/-!
# The first free candidate

A loop that runs through a sequence of candidates until one of them is not taken.  Where the
candidates are different and a list holds all that is taken, it stops after at most one test more
than the list is long.

## Main definitions

* `firstFree` : the loop, with a bound on its tests.

## Main results

* `firstFree_isSome` : it ends.
* `not_taken_of_firstFree`, `firstFree_mono` : what it ends with is free, and more tests do not
  change it.
-/

namespace ModDup

section FirstFree

variable {α : Type*}

/-- `while (taken (f i)) ++i`; `none` when it has not ended after `fuel` tests. -/
def firstFree (taken : α → Bool) (f : ℕ → α) : (fuel i : ℕ) → Option α
  | 0, _ => none
  | fuel + 1, i => if taken (f i) then firstFree taken f fuel (i + 1) else some (f i)

variable {taken : α → Bool} {f : ℕ → α}

theorem firstFree_eq_find? (taken : α → Bool) (f : ℕ → α) (fuel i : ℕ) :
    firstFree taken f fuel i = ((List.range' i fuel).map f).find? fun a => !taken a := by
  induction fuel generalizing i with
  | zero => rfl
  | succ fuel ih =>
    rw [firstFree, ih, List.range'_succ, List.map_cons, List.find?_cons]
    cases taken (f i) <;> rfl

/-- The candidates tried are pairwise different, so they are not all taken. -/
theorem firstFree_isSome [DecidableEq α] (hf : Function.Injective f) {l : List α}
    (hl : ∀ a, taken a = true → a ∈ l) {fuel : ℕ} (hfuel : l.length < fuel) (i : ℕ) :
    (firstFree taken f fuel i).isSome := by
  by_contra hnone
  rw [Option.not_isSome_iff_eq_none, firstFree_eq_find?, List.find?_eq_none] at hnone
  have hnodup : ((List.range' i fuel).map f).Nodup := (List.nodup_range' 1).map hf
  have hsub : (List.range' i fuel).map f ⊆ l := fun a ha => hl a (by simpa using hnone a ha)
  have hle := hnodup.length_le_of_subset hsub
  rw [List.length_map, List.length_range'] at hle
  exact absurd hle (Nat.not_le.2 hfuel)

theorem not_taken_of_firstFree {fuel i : ℕ} {a : α} (h : firstFree taken f fuel i = some a) :
    taken a = false := by
  rw [firstFree_eq_find?] at h
  simpa using List.find?_some h

theorem firstFree_mono {fuel fuel' i : ℕ} {a : α} (h : firstFree taken f fuel i = some a)
    (hle : fuel ≤ fuel') : firstFree taken f fuel' i = some a := by
  induction fuel generalizing fuel' i with
  | zero => cases h
  | succ fuel ih =>
    obtain ⟨fuel', rfl⟩ := Nat.exists_eq_add_of_le' hle
    rw [← Nat.add_assoc, firstFree]
    rw [firstFree] at h
    cases htaken : taken (f i) with
    | true =>
      rw [htaken] at h
      exact ih h (Nat.le_add_left fuel fuel')
    | false => simpa [htaken] using h

end FirstFree

end ModDup
