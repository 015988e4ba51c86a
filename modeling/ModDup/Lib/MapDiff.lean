import Mathlib.Logic.Basic
import ModDup.Lib.OrdMap

/-!
# Differences of two maps

A list of differences of two maps is exact if a key has one entry in it, with its two values,
when the maps differ at the key, and no entry otherwise.  Exact lists of the same two maps are
permutations of each other, and swapping the maps swaps the values.

## Main definitions

* `IsDiff s t ds` : `ds` is an exact list of the differences of `s` and `t`.
* `OrdMap.difference` : the entries of one map that are not in the other (`std::set_difference`).

## Main results

* `IsDiff.perm`, `IsDiff.swap` : exact lists are the same up to order, and can be swapped.
-/

namespace ModDup

/-- A key with its values on the two sides, `none` where it is absent. -/
abbrev Change (α β : Type*) := α × Option β × Option β

/-- The change seen from the other side. -/
def Change.swap {α β : Type*} (d : Change α β) : Change α β := (d.1, d.2.2, d.2.1)

section IsDiff

variable {α β : Type*} [DecidableEq α] [DecidableEq β]

/-- `ds` has, for each key, its two values if they differ, and nothing if they do not. -/
def IsDiff (s t : α → Option β) (ds : List (Change α β)) : Prop :=
  ∀ k, (ds.filter fun d => d.1 = k) = if s k = t k then [] else [(k, s k, t k)]

variable {s t : α → Option β} {ds ds' : List (Change α β)}

theorem IsDiff.count_eq (h : IsDiff s t ds) (d : Change α β) :
    ds.count d = (if s d.1 = t d.1 then [] else [(d.1, s d.1, t d.1)]).count d := by
  rw [← h d.1, List.count_filter (by simp)]

/-- There is one exact list, up to the order of its entries. -/
theorem IsDiff.perm (h : IsDiff s t ds) (h' : IsDiff s t ds') : ds.Perm ds' :=
  List.perm_iff_count.2 fun d => by rw [h.count_eq, h'.count_eq]

theorem IsDiff.swap (h : IsDiff s t ds) : IsDiff t s (ds.map Change.swap) := by
  intro k
  have hkey : ((fun d : Change α β => decide (d.1 = k)) ∘ Change.swap) =
      fun d => decide (d.1 = k) := rfl
  rw [List.filter_map, hkey, h k]
  by_cases hk : s k = t k
  · rw [if_pos hk, if_pos hk.symm, List.map_nil]
  · rw [if_neg hk, if_neg (Ne.symm hk)]
    rfl

end IsDiff

namespace OrdMap

variable {α β : Type*} [LinearOrder α]

theorem filter_key_lookup {l : List (α × β)} (hl : l.Pairwise fun a b => a.1 < b.1) (k : α) :
    (l.filter fun e => e.1 = k) = ((l.lookup k).map fun v => (k, v)).toList := by
  induction l with
  | nil => rfl
  | cons a l ih =>
    obtain ⟨ak, av⟩ := a
    obtain ⟨ha, hl⟩ := List.pairwise_cons.1 hl
    rw [lookup_cons_ite]
    by_cases h : k = ak
    · subst h
      have hnil : (l.filter fun e => e.1 = k) = [] :=
        List.filter_eq_nil_iff.2 fun e he => by simpa using (ha e he).ne'
      rw [List.filter_cons_of_pos (by simp), hnil, if_pos rfl]
      rfl
    · rw [List.filter_cons_of_neg (by simpa using Ne.symm h), if_neg h, ih hl]

theorem filter_key [DecidableEq α] (m : OrdMap α β) (k : α) :
    (m.entries.filter fun e => e.1 = k) = ((m.get? k).map fun v => (k, v)).toList :=
  (List.filter_congr fun _ _ => decide_eq_decide.2 Iff.rfl).trans (filter_key_lookup m.sorted k)

theorem lookup_entries [inst : BEq α] [LawfulBEq α] (m : OrdMap α β) (k : α) :
    m.entries.lookup k = m.get? k := by
  rw [get?, lawful_beq_subsingleton inst instBEqOfDecidableEq]

theorem isNone_get?_iff (m : OrdMap α β) (k : α) :
    (m.get? k).isNone = true ↔ k ∉ m.entries.map Prod.fst := by
  rw [Option.isNone_iff_eq_none, List.mem_map]
  constructor
  · rintro h ⟨⟨k', v⟩, he, rfl⟩
    rw [get?_eq_some_iff.2 he] at h
    cases h
  · intro h
    exact Option.eq_none_iff_forall_ne_some.2 fun v hv => h ⟨(k, v), get?_eq_some_iff.1 hv, rfl⟩

theorem filter_key_filterMap [DecidableEq α] {γ : Type*} (m : OrdMap α β)
    {f : α × β → Option (α × γ)} (hf : ∀ e d, f e = some d → d.1 = e.1) (k : α) :
    ((m.entries.filterMap f).filter fun d => d.1 = k) =
      ((m.get? k).bind fun v => f (k, v)).toList := by
  have hcomm : ∀ e, (f e).filter (fun d => decide (d.1 = k)) =
      if decide (e.1 = k) = true then f e else none := by
    intro e
    cases h : f e with
    | none => simp
    | some d => simp [Option.filter, hf e d h]
  rw [List.filter_filterMap, funext hcomm, ← List.filterMap_filter, filter_key]
  cases m.get? k with
  | none => rfl
  | some v => cases h : f (k, v) <;> simp [h]

theorem filter_key_map_filter [DecidableEq α] {γ : Type*} (m : OrdMap α β) (p : α × β → Bool)
    {f : α × β → α × γ} (hf : ∀ e, (f e).1 = e.1) (k : α) :
    (((m.entries.filter p).map f).filter fun d => d.1 = k) =
      ((m.get? k).bind fun v => if p (k, v) then some (f (k, v)) else none).toList := by
  rw [← List.filterMap_eq_map, List.filterMap_filter]
  refine filter_key_filterMap m (fun e d h => ?_) k
  split_ifs at h
  cases h
  exact hf e

theorem insertAux_of_lt {k : α} {v : β} {l : List (α × β)} (h : ∀ e ∈ l, e.1 < k) :
    insertAux k v l = l ++ [(k, v)] := by
  induction l with
  | nil => rfl
  | cons a l ih =>
    obtain ⟨ha, hl⟩ := List.forall_mem_cons.1 h
    rw [insertAux, if_neg (lt_asymm ha), if_neg ha.ne', ih hl, List.cons_append]

theorem entries_insertNew_of_lt {m : OrdMap α β} {k : α} {v : β} (h : ∀ e ∈ m.entries, e.1 < k) :
    (m.insertNew k v).entries = m.entries ++ [(k, v)] := by
  have hnone : m.get? k = none := by
    refine Option.eq_none_iff_forall_ne_some.2 fun w hw => ?_
    exact lt_irrefl k (h (k, w) (get?_eq_some_iff.1 hw))
  rw [insertNew, hnone, if_neg (by simp)]
  exact insertAux_of_lt h

/-- `std::set_difference` of the entries, put into a map. -/
def difference [DecidableEq β] (m m' : OrdMap α β) : OrdMap α β :=
  ⟨m.entries.filter fun e => e ∉ m'.entries, m.sorted.filter _⟩

theorem get?_difference [DecidableEq β] (m m' : OrdMap α β) (k : α) :
    (m.difference m').get? k = if m.get? k = m'.get? k then none else m.get? k := by
  refine Option.ext fun v => ?_
  rw [get?_eq_some_iff, difference, List.mem_filter, decide_eq_true_eq, ← get?_eq_some_iff,
    ← get?_eq_some_iff]
  split_ifs with h
  · rw [h]
    simp
  · constructor
    · exact fun h' => h'.1
    · exact fun h' => ⟨h', fun h'' => h (h'.trans h''.symm)⟩

end OrdMap

end ModDup
