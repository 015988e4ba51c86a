import Mathlib.Data.List.Lex
import Mathlib.Order.Defs.LinearOrder
import ModDup.Lib.Bytes

/-!
# Ordered maps

`std::map` is modelled by an association list whose keys strictly increase; the order is part
of the type, so a map has one representation and iterating over it follows the keys.

## Main definitions

* `OrdMap α β` : a map from `α` to `β`.
* `OrdMap.get?`, `OrdMap.set`, `OrdMap.insertNew`, `OrdMap.erase`, `OrdMap.setAll`,
  `OrdMap.insertAll`, `OrdMap.filterMap`.
* `OrdMap.ext_get?` : maps with the same lookups are equal.
-/

namespace ModDup

/-- Bytes are ordered as unsigned numbers. -/
instance instLinearOrderUInt8 : LinearOrder UInt8 where
  le_refl := UInt8.le_refl
  le_trans _ _ _ := UInt8.le_trans
  le_antisymm _ _ := UInt8.le_antisymm
  le_total := UInt8.le_total
  lt_iff_le_not_ge a b := by
    rw [UInt8.not_le]
    exact ⟨fun h => ⟨UInt8.le_of_lt h, h⟩, fun h => h.2⟩
  toDecidableLE := inferInstance
  toDecidableLT := inferInstance
  toDecidableEq := inferInstance

/-- A finite map as a list of entries with strictly increasing keys. -/
structure OrdMap (α β : Type*) [LinearOrder α] where
  /-- The entries, in key order. -/
  entries : List (α × β)
  /-- Keys strictly increase. -/
  sorted : entries.Pairwise fun a b => a.1 < b.1

namespace OrdMap

theorem lookup_cons_of_lawful {α β : Type*} [BEq α] [LawfulBEq α] [DecidableEq α] (k a : α) (b : β)
    (l : List (α × β)) : ((a, b) :: l).lookup k = if k = a then some b else l.lookup k := by
  rw [List.lookup_cons]
  by_cases h : k = a
  · simp [h]
  · rw [beq_eq_false_iff_ne.2 h, if_neg h]

variable {α β : Type*} [LinearOrder α]

/-- Replace or add the entry of `k`, keeping the order. -/
def insertAux (k : α) (v : β) : List (α × β) → List (α × β)
  | [] => [(k, v)]
  | e :: l =>
    if k < e.1 then (k, v) :: e :: l
    else if k = e.1 then (k, v) :: l
    else e :: insertAux k v l

theorem mem_insertAux {k : α} {v : β} {l : List (α × β)} {e : α × β} (h : e ∈ insertAux k v l) :
    e = (k, v) ∨ e ∈ l := by
  induction l with
  | nil => simpa [insertAux] using h
  | cons a l ih =>
    simp only [insertAux] at h
    split_ifs at h <;> grind

theorem sorted_insertAux (k : α) (v : β) {l : List (α × β)}
    (h : l.Pairwise fun a b => a.1 < b.1) :
    (insertAux k v l).Pairwise fun a b => a.1 < b.1 := by
  induction l with
  | nil => simp [insertAux]
  | cons a l ih =>
    obtain ⟨ha, hl⟩ := List.pairwise_cons.1 h
    simp only [insertAux]
    split_ifs with h1 h2
    · refine List.pairwise_cons.2 ⟨fun e he => ?_, h⟩
      rcases List.mem_cons.1 he with rfl | he
      · exact h1
      · exact h1.trans (ha e he)
    · subst h2
      exact List.pairwise_cons.2 ⟨ha, hl⟩
    · refine List.pairwise_cons.2 ⟨fun e he => ?_, ih hl⟩
      rcases mem_insertAux he with rfl | he
      · exact lt_of_le_of_ne (not_lt.1 h1) (Ne.symm h2)
      · exact ha e he

/-- The map without entries. -/
def empty : OrdMap α β := ⟨[], List.Pairwise.nil⟩

instance : Inhabited (OrdMap α β) := ⟨empty⟩

/-- The value bound to `k`. -/
def get? (m : OrdMap α β) (k : α) : Option β := m.entries.lookup k

/-- `m[k] = v`. -/
def set (m : OrdMap α β) (k : α) (v : β) : OrdMap α β :=
  ⟨insertAux k v m.entries, sorted_insertAux k v m.sorted⟩

/-- `m.insert({k, v})`: an entry that exists is kept. -/
def insertNew (m : OrdMap α β) (k : α) (v : β) : OrdMap α β :=
  if (m.get? k).isSome then m else m.set k v

/-- `m.erase(k)`. -/
def erase (m : OrdMap α β) (k : α) : OrdMap α β :=
  ⟨m.entries.filter (·.1 ≠ k), m.sorted.filter _⟩

/-- Assign the entries of a list one after the other. -/
def setAll (m : OrdMap α β) (l : List (α × β)) : OrdMap α β :=
  l.foldl (fun m e => m.set e.1 e.2) m

/-- The keys, in order. -/
def keys (m : OrdMap α β) : List α := m.entries.map Prod.fst

@[simp] theorem get?_empty (k : α) : (empty : OrdMap α β).get? k = none := rfl

theorem lookup_cons_ite (k a : α) (b : β) (l : List (α × β)) :
    ((a, b) :: l).lookup k = if k = a then some b else l.lookup k :=
  lookup_cons_of_lawful k a b l

theorem lookup_insertAux (k k' : α) (v : β) (l : List (α × β)) :
    (insertAux k v l).lookup k' = if k' = k then some v else l.lookup k' := by
  induction l with
  | nil => simp only [insertAux, lookup_cons_ite]
  | cons a l ih =>
    obtain ⟨ak, av⟩ := a
    simp only [insertAux]
    split_ifs with h1 h2 <;> simp only [lookup_cons_ite, ih] <;> grind

@[simp] theorem get?_set (m : OrdMap α β) (k k' : α) (v : β) :
    (m.set k v).get? k' = if k' = k then some v else m.get? k' :=
  lookup_insertAux k k' v m.entries

@[simp] theorem get?_erase (m : OrdMap α β) (k k' : α) :
    (m.erase k).get? k' = if k' = k then none else m.get? k' := by
  obtain ⟨l, hl⟩ := m
  simp only [erase, get?]
  clear hl
  induction l with
  | nil => simp
  | cons a l ih =>
    obtain ⟨ak, av⟩ := a
    by_cases h : ak = k
    · subst h
      rw [List.filter_cons_of_neg (by simp), ih, lookup_cons_ite]
      split_ifs <;> rfl
    · rw [List.filter_cons_of_pos (by simpa using h), lookup_cons_ite, lookup_cons_ite, ih]
      grind

theorem nodup_keys (m : OrdMap α β) : m.keys.Nodup :=
  (List.pairwise_map.2 m.sorted).imp fun h => h.ne

theorem lookup_eq_some_iff {l : List (α × β)} (hl : l.Pairwise fun a b => a.1 < b.1) {k : α}
    {v : β} : l.lookup k = some v ↔ (k, v) ∈ l := by
  induction l with
  | nil => simp
  | cons a l ih =>
    obtain ⟨ak, av⟩ := a
    obtain ⟨ha, hl⟩ := List.pairwise_cons.1 hl
    simp only [lookup_cons_ite, List.mem_cons, Prod.mk.injEq]
    by_cases h : k = ak
    · subst h
      have hnot : (k, v) ∉ l := fun hm => lt_irrefl _ (ha (k, v) hm)
      simp [hnot, eq_comm]
    · simp [h, ih hl]

theorem get?_eq_some_iff {m : OrdMap α β} {k : α} {v : β} :
    m.get? k = some v ↔ (k, v) ∈ m.entries :=
  lookup_eq_some_iff m.sorted

theorem mem_keys {m : OrdMap α β} {k : α} : k ∈ m.keys ↔ (m.get? k).isSome := by
  rw [Option.isSome_iff_exists]
  constructor
  · intro h
    obtain ⟨⟨k, v⟩, he, rfl⟩ := List.mem_map.1 h
    exact ⟨v, get?_eq_some_iff.2 he⟩
  · rintro ⟨v, hv⟩
    exact List.mem_map.2 ⟨(k, v), get?_eq_some_iff.1 hv, rfl⟩

theorem ext_get? {m m' : OrdMap α β} (h : ∀ k, m.get? k = m'.get? k) : m = m' := by
  have hmem : ∀ e, e ∈ m.entries ↔ e ∈ m'.entries := by
    rintro ⟨k, v⟩
    rw [← get?_eq_some_iff, ← get?_eq_some_iff, h]
  have hperm : m.entries.Perm m'.entries :=
    (List.perm_ext_iff_of_nodup m.nodup_keys.of_map m'.nodup_keys.of_map).2 hmem
  obtain ⟨l, hl⟩ := m
  obtain ⟨l', hl'⟩ := m'
  congr
  exact hperm.eq_of_pairwise (fun a b _ _ hab hba => absurd hab (lt_asymm hba)) hl hl'

/-- After assigning the entries of a list, a key is bound to its last occurrence there. -/
theorem get?_setAll (m : OrdMap α β) (l : List (α × β)) (k : α) :
    (m.setAll l).get? k = (l.reverse.lookup k).or (m.get? k) := by
  induction l generalizing m with
  | nil => simp [setAll]
  | cons e l ih =>
    have := ih (m.set e.1 e.2)
    simp only [setAll, List.foldl_cons] at this ⊢
    rw [this, get?_set, List.reverse_cons, List.lookup_append]
    cases h : l.reverse.lookup k with
    | some v => simp
    | none =>
      obtain ⟨ek, ev⟩ := e
      by_cases hk : k = ek <;> simp [hk, lookup_cons_ite]

theorem mem_keys_setAll {m : OrdMap α β} {l : List (α × β)} {k : α} :
    k ∈ (m.setAll l).keys ↔ k ∈ l.map Prod.fst ∨ k ∈ m.keys := by
  rw [mem_keys, mem_keys, get?_setAll, Option.isSome_or, Bool.or_eq_true, List.lookup_isSome_iff,
    List.mem_map]
  refine or_congr_left (exists_congr fun e => ?_)
  rw [List.mem_reverse, beq_iff_eq, eq_comm]

theorem setAll_append (m : OrdMap α β) (l l' : List (α × β)) :
    m.setAll (l ++ l') = (m.setAll l).setAll l' :=
  List.foldl_append

/-- Assigning the entries of a list changes nothing iff they make up a part of the map. -/
theorem setAll_eq_self_iff {m : OrdMap α β} {l : List (α × β)} :
    m.setAll l = m ↔ ∀ e ∈ (empty.setAll l).entries, e ∈ m.entries := by
  have hget : ∀ k, (empty.setAll l).get? k = l.reverse.lookup k := fun k => by
    rw [get?_setAll, get?_empty, Option.or_none]
  constructor
  · rintro h ⟨k, v⟩ he
    rw [← get?_eq_some_iff, hget] at he
    rw [← get?_eq_some_iff, ← h, get?_setAll, he, Option.some_or]
  · intro h
    refine ext_get? fun k => ?_
    rw [get?_setAll]
    cases hk : l.reverse.lookup k with
    | none => rw [Option.none_or]
    | some v =>
      rw [← hget, get?_eq_some_iff] at hk
      rw [get?_eq_some_iff.2 (h _ hk), Option.some_or]

theorem get?_setAll_of_ne (m : OrdMap α β) {l : List (α × β)} {k : α} (h : ∀ e ∈ l, k ≠ e.1) :
    (m.setAll l).get? k = m.get? k := by
  induction l generalizing m with
  | nil => rfl
  | cons e l ih =>
    obtain ⟨he, hl⟩ := List.forall_mem_cons.1 h
    exact (ih (m.set e.1 e.2) hl).trans (by rw [get?_set, if_neg he])

/-- `m.insert(first, last)`: the first entry of a key is kept. -/
def insertAll (m : OrdMap α β) (l : List (α × β)) : OrdMap α β :=
  l.foldl (fun m e => m.insertNew e.1 e.2) m

theorem get?_insertNew (m : OrdMap α β) (k k' : α) (v : β) :
    (m.insertNew k v).get? k' = (m.get? k').or (if k' = k then some v else none) := by
  unfold insertNew
  by_cases hk : k' = k
  · subst hk
    cases h : m.get? k' <;> simp [h]
  · split_ifs <;> simp [hk]

/-- After inserting the entries of a list, a key that was free is bound to its first occurrence
there. -/
theorem get?_insertAll (m : OrdMap α β) (l : List (α × β)) (k : α) :
    (m.insertAll l).get? k = (m.get? k).or (l.lookup k) := by
  induction l generalizing m with
  | nil => simp [insertAll]
  | cons e l ih =>
    obtain ⟨ek, ev⟩ := e
    have := ih (m.insertNew ek ev)
    simp only [insertAll, List.foldl_cons] at this ⊢
    rw [this, get?_insertNew, lookup_cons_ite, Option.or_assoc]
    by_cases hk : k = ek <;> simp [hk]

theorem insertAll_append (m : OrdMap α β) (l l' : List (α × β)) :
    m.insertAll (l ++ l') = (m.insertAll l).insertAll l' :=
  List.foldl_append

theorem insertAll_entries (m : OrdMap α β) (l : List (α × β)) :
    m.insertAll (empty.insertAll l).entries = m.insertAll l := by
  refine ext_get? fun k => ?_
  have hl : (empty.insertAll l).entries.lookup k = l.lookup k := by
    rw [← get?, get?_insertAll, get?_empty, Option.none_or]
  rw [get?_insertAll, get?_insertAll, hl]

/-- Change the values and drop the entries whose new value is `none`. -/
def filterMap (m : OrdMap α β) (f : α → β → Option β) : OrdMap α β where
  entries := m.entries.filterMap fun e => (f e.1 e.2).map fun v => (e.1, v)
  sorted := by
    refine m.sorted.filterMap _ fun a a' haa b hb b' hb' => ?_
    obtain ⟨v, -, rfl⟩ := Option.map_eq_some_iff.1 hb
    obtain ⟨v', -, rfl⟩ := Option.map_eq_some_iff.1 hb'
    exact haa

theorem get?_filterMap (m : OrdMap α β) (f : α → β → Option β) (k : α) :
    (m.filterMap f).get? k = (m.get? k).bind (f k) := by
  refine Option.ext fun v => ?_
  rw [get?_eq_some_iff, Option.bind_eq_some_iff, filterMap, List.mem_filterMap]
  constructor
  · rintro ⟨⟨k', w⟩, he, h⟩
    obtain ⟨v', hv', heq⟩ := Option.map_eq_some_iff.1 h
    obtain ⟨rfl, rfl⟩ := Prod.mk.inj heq
    exact ⟨w, get?_eq_some_iff.2 he, hv'⟩
  · rintro ⟨w, hw, hv⟩
    exact ⟨(k, w), get?_eq_some_iff.1 hw, by simp [hv]⟩

theorem filterMap_eq_iff {m : OrdMap α β} {f g : α → β → Option β} :
    m.filterMap f = m.filterMap g ↔ ∀ e ∈ m.entries, f e.1 e.2 = g e.1 e.2 := by
  constructor
  · rintro h ⟨k, v⟩ he
    have hget := congrArg (fun m => m.get? k) h
    simpa only [get?_filterMap, get?_eq_some_iff.2 he, Option.bind_some] using hget
  · intro h
    refine ext_get? fun k => ?_
    rw [get?_filterMap, get?_filterMap]
    cases hv : m.get? k with
    | none => rfl
    | some v => exact h (k, v) (get?_eq_some_iff.1 hv)

end OrdMap

end ModDup
