import Mathlib.Data.Nat.Digits.Lemmas
import Mathlib.Data.List.Infix
import Mathlib.Tactic.Ring

/-!
# Byte strings

A C++ `std::string` is a sequence of bytes of any value, so it is modelled by `List UInt8`.
This file gives the string primitives the modules are built from, with the behaviour the
standard library and Boost document for them, and the laws the round-trip proofs need.

## Main definitions

* `Bytes.find` : `std::string::find`, the first occurrence of a pattern.
* `Bytes.replaceAll` : `boost::replace_all`.
* `Bytes.getlines` : the lines a `std::getline` loop reads from a stream.
* `Bytes.tokens` : `boost::tokenizer` with one separator, empty tokens dropped.
* `Bytes.decimal`, `Bytes.padLeft` : integer output, and `setw`/`setfill` padding.
* `Bytes.ofDecimal`, `Bytes.lexicalCastUnsigned`, `Bytes.lexicalCastInt` : integer input.
* `Bytes.toUpper`, `Bytes.toLower` : case mapping in the classic locale.
-/

namespace ModDup

/-- Byte strings. -/
abbrev Bytes := List UInt8

namespace Bytes

/-- One name for the proof that membership in a list of byte strings is decided with. -/
instance instLawfulBEq : LawfulBEq Bytes := inferInstance

/-- The bytes of an ASCII literal. -/
def str (s : String) : Bytes := s.toList.map fun c => UInt8.ofNat c.toNat

/-- The line feed byte. -/
def nl : UInt8 := 10

theorem forall_byte {p : UInt8 → Prop} (h : ∀ n : Fin 256, p (UInt8.ofFin n)) (c : UInt8) :
    p c := by
  have := h c.toFin
  rwa [UInt8.ofFin_toFin] at this

/-- What a C function sees of a string: everything before the first NUL. -/
def cstr (s : Bytes) : Bytes := s.takeWhile (· ≠ 0)

/-! ### Searching -/

section Find

variable {α : Type*} [DecidableEq α]

/-- The index of the first occurrence of `pat`. -/
def find (pat : List α) : List α → Option ℕ
  | [] => if pat = [] then some 0 else none
  | c :: s => if pat.isPrefixOf (c :: s) then some 0 else (find pat s).map (· + 1)

theorem find_eq_none_iff {pat s : List α} : find pat s = none ↔ ¬ pat <:+: s := by
  induction s with
  | nil => simp [find]
  | cons c s ih =>
    simp only [find, List.isPrefixOf_iff_prefix, List.infix_cons_iff, not_or]
    split_ifs with h
    · simp [h]
    · simp [h, ih]

theorem find_isSome_iff {pat s : List α} : (find pat s).isSome ↔ pat <:+: s := by
  rw [← not_iff_not, ← find_eq_none_iff]
  cases find pat s <;> simp

theorem find_eq_some {pat s : List α} (hpat : pat ≠ []) {pos : ℕ} (h : find pat s = some pos) :
    ∃ a b, s = a ++ pat ++ b ∧ a.length = pos ∧ ¬ pat <:+: a := by
  induction s generalizing pos with
  | nil => simp [find, hpat] at h
  | cons c s ih =>
    simp only [find, List.isPrefixOf_iff_prefix] at h
    split_ifs at h with hprefix
    · obtain ⟨b, hb⟩ := hprefix
      refine ⟨[], b, hb.symm, by simpa using h, ?_⟩
      rwa [List.infix_nil]
    · obtain ⟨p, hp, rfl⟩ := Option.map_eq_some_iff.1 h
      obtain ⟨a, b, rfl, rfl, hnot⟩ := ih hp
      refine ⟨c :: a, b, rfl, rfl, fun hinfix => ?_⟩
      rcases List.infix_cons_iff.1 hinfix with hp' | hp'
      · refine hprefix (hp'.trans ⟨pat ++ b, ?_⟩)
        rw [List.cons_append, List.append_assoc]
      · exact hnot hp'

/-- A two-byte separator is found right after a text that does not hold it: the two bytes
being different, an occurrence cannot straddle the boundary. -/
theorem find_pair {x y : α} (hxy : x ≠ y) {a : List α} (b : List α) (h : ¬ [x, y] <:+: a) :
    find [x, y] (a ++ x :: y :: b) = some a.length := by
  induction a with
  | nil => simp [find]
  | cons c a ih =>
    rw [List.infix_cons_iff, not_or] at h
    have hpre : ¬ [x, y] <+: c :: (a ++ x :: y :: b) := by
      intro hp
      obtain ⟨rfl, hp'⟩ := List.cons_prefix_cons.1 hp
      cases a with
      | nil =>
        rw [List.nil_append] at hp'
        exact hxy (List.cons_prefix_cons.1 hp').1.symm
      | cons d a =>
        rw [List.cons_append] at hp'
        obtain ⟨rfl, -⟩ := List.cons_prefix_cons.1 hp'
        exact h.1 (by simp)
    simp only [List.cons_append, find, List.isPrefixOf_iff_prefix, hpre, ↓reduceIte, ih h.2,
      Option.map_some, List.length_cons]

theorem find_singleton {x : α} {a : List α} (b : List α) (h : x ∉ a) :
    find [x] (a ++ x :: b) = some a.length := by
  induction a with
  | nil => simp [find]
  | cons c a ih =>
    obtain ⟨hc, ha⟩ := not_or.1 (mt List.mem_cons.2 h)
    simp [find, hc, ih ha]

theorem find_singleton_eq_none {x : α} {s : List α} (h : x ∉ s) : find [x] s = none := by
  rw [find_eq_none_iff]
  exact fun hinf => h (hinf.subset (List.mem_singleton_self x))

/-- The loop of `replaceAll`: `skip` bytes of an occurrence already replaced remain to be passed
over. -/
def replaceAllAux (pat rep : List α) : ℕ → List α → List α
  | _, [] => []
  | skip + 1, _ :: s => replaceAllAux pat rep skip s
  | 0, c :: s =>
    if pat.isPrefixOf (c :: s) then rep ++ replaceAllAux pat rep (pat.length - 1) s
    else c :: replaceAllAux pat rep 0 s

/-- `boost::replace_all`: every occurrence of a text that is not empty, from left to right. -/
def replaceAll (pat rep s : List α) : List α :=
  if pat = [] then s else replaceAllAux pat rep 0 s

end Find

/-! ### Lines and tokens -/

section SplitOn

variable {α : Type*} [DecidableEq α] {a : α} {l w : List α}

/-- The pieces of a split hold no separator and are parts of the text; the first is even a
prefix, which is what the induction needs. -/
theorem splitOn_pieces (a : α) (l : List α) :
    (∀ w ∈ l.splitOn a, a ∉ w ∧ w <:+: l) ∧
      ∀ w, (l.splitOn a).head? = some w → w <+: l := by
  induction l with
  | nil => simp
  | cons c l ih =>
    obtain ⟨ihall, ihhead⟩ := ih
    rw [List.splitOn_cons_eq_if_modifyHead]
    split_ifs with hc
    · refine ⟨fun w hw => ?_, by simp⟩
      rcases List.mem_cons.1 hw with rfl | hw
      · simp
      · exact ⟨(ihall w hw).1, (ihall w hw).2.trans (List.suffix_cons c l).isInfix⟩
    · obtain ⟨p, ps, hps⟩ := List.exists_cons_of_ne_nil (List.splitOn_ne_nil a l)
      rw [hps, List.modifyHead_cons]
      have hpre : c :: p <+: c :: l := by
        rw [List.cons_prefix_cons]
        exact ⟨rfl, ihhead p (by rw [hps]; rfl)⟩
      refine ⟨fun w hw => ?_, by rintro w ⟨⟩; exact hpre⟩
      rcases List.mem_cons.1 hw with rfl | hw
      · have hp := (ihall p (by simp [hps])).1
        have hca : a ≠ c := fun h => hc (by simp [h])
        exact ⟨by simp [hca, hp], hpre.isInfix⟩
      · have hw' := ihall w (by simp [hps, hw])
        exact ⟨hw'.1, hw'.2.trans (List.suffix_cons c l).isInfix⟩

theorem of_mem_splitOn (h : w ∈ l.splitOn a) : a ∉ w ∧ w <:+: l := (splitOn_pieces a l).1 w h

theorem exists_mem_splitOn {c : α} (hc : c ∈ l) (hne : c ≠ a) : ∃ w ∈ l.splitOn a, c ∈ w := by
  induction l with
  | nil => cases hc
  | cons x l ih =>
    obtain ⟨p, ps, hps⟩ := List.exists_cons_of_ne_nil (List.splitOn_ne_nil a l)
    rw [List.splitOn_cons_eq_if_modifyHead, hps]
    rw [hps] at ih
    rcases List.mem_cons.1 hc with rfl | hc
    · exact ⟨c :: p, by simp [hne], List.mem_cons_self⟩
    · obtain ⟨w, hw, hcw⟩ := ih hc
      split_ifs with hxa
      · exact ⟨w, List.mem_cons_of_mem _ hw, hcw⟩
      · rcases List.mem_cons.1 hw with rfl | hw
        · exact ⟨x :: w, List.mem_cons_self, List.mem_cons_of_mem _ hcw⟩
        · exact ⟨w, List.mem_cons_of_mem _ hw, hcw⟩

theorem splitOn_append_of_not_mem (h : a ∉ w) (l : List α) :
    (w ++ l).splitOn a = (l.splitOn a).modifyHead (w ++ ·) := by
  induction w with
  | nil => cases h : l.splitOn a <;> simp [h]
  | cons c w ih =>
    obtain ⟨hc, hw⟩ := not_or.1 (mt List.mem_cons.2 h)
    have hca : (c == a) = false := by simpa using Ne.symm hc
    rw [List.cons_append, List.splitOn_cons_eq_if_modifyHead, hca, ih hw]
    cases l.splitOn a <;> simp

/-- Two texts put together share one piece: the last of the first and the first of the
second. -/
theorem splitOn_append (x y : List α) :
    (x ++ y).splitOn a = (x.splitOn a).dropLast ++
      ((x.splitOn a).getLastD [] ++ (y.splitOn a).headD []) :: (y.splitOn a).tail := by
  induction x with
  | nil =>
    obtain ⟨p, ps, hps⟩ := List.exists_cons_of_ne_nil (List.splitOn_ne_nil a y)
    simp [hps]
  | cons c x ih =>
    obtain ⟨p, ps, hps⟩ := List.exists_cons_of_ne_nil (List.splitOn_ne_nil a x)
    rw [List.cons_append, List.splitOn_cons_eq_if_modifyHead, List.splitOn_cons_eq_if_modifyHead,
      ih, hps]
    split_ifs
    · simp
    · cases ps <;> simp

theorem splitOn_intercalate_eq_flatMap {ls : List (List α)} (h : ls ≠ []) :
    ([a].intercalate ls).splitOn a = ls.flatMap (·.splitOn a) := by
  induction ls with
  | nil => exact absurd rfl h
  | cons l ls ih =>
    cases ls with
    | nil => simp
    | cons l' ls =>
      rw [List.intercalate_cons_cons, List.append_assoc, List.singleton_append,
        List.splitOn_append_cons_self, ih (List.cons_ne_nil _ _)]
      simp

end SplitOn

/-- The lines read by `while (std::getline(stream, line))`: the pieces between line feeds; what
follows the last line feed is a line only if it is not empty. -/
def getlines (s : Bytes) : List Bytes :=
  let ls := s.splitOn nl
  if ls.getLast? = some [] then ls.dropLast else ls

theorem getlines_nil : getlines [] = [] := by decide

/-- A line feed ends a line, whatever follows. -/
theorem getlines_append_cons (l s : Bytes) :
    getlines (l ++ nl :: s) = l.splitOn nl ++ getlines s := by
  have hne : s.splitOn nl ≠ [] := List.splitOn_ne_nil nl s
  simp only [getlines, List.splitOn_append_cons_self, List.getLast?_append_of_ne_nil _ hne,
    List.dropLast_append_of_ne_nil hne]
  split_ifs <;> rfl

/-- The non-empty pieces of `s` between separators. -/
def tokens (sep : UInt8) (s : Bytes) : List Bytes := (s.splitOn sep).filter (· ≠ [])

/-- `boost::split` on one separator with `token_compress_on`: separators in a row count for one,
so only the first and the last piece can be empty. -/
def splitCompress (sep : UInt8) (s : Bytes) : List Bytes :=
  match s.splitOn sep with
  | [] => []
  | [p] => [p]
  | p :: q :: ps => p :: ((q :: ps).dropLast.filter (· ≠ []) ++ [(q :: ps).getLastD []])

/-- `isspace` in the classic locale. -/
def isSpace (c : UInt8) : Bool := (9 ≤ c && c ≤ 13) || c = 32

/-- `boost::algorithm::trim`. -/
def trim (s : Bytes) : Bytes := ((s.dropWhile isSpace).reverse.dropWhile isSpace).reverse

/-! ### Case mapping -/

/-- `toupper` in the classic locale. -/
def upper (c : UInt8) : UInt8 := if 97 ≤ c ∧ c ≤ 122 then c - 32 else c

/-- `tolower` in the classic locale. -/
def lower (c : UInt8) : UInt8 := if 65 ≤ c ∧ c ≤ 90 then c + 32 else c

/-- `boost::to_upper_copy`. -/
def toUpper (s : Bytes) : Bytes := s.map upper

/-- A string with every letter in lower case. -/
def toLower (s : Bytes) : Bytes := s.map lower

theorem upper_upper (c : UInt8) : upper (upper c) = upper c := by
  revert c
  exact forall_byte (by decide +kernel)

theorem toUpper_toUpper (s : Bytes) : toUpper (toUpper s) = toUpper s := by
  simp [toUpper, upper_upper]

theorem upper_lower (c : UInt8) : upper (lower c) = upper c ∧ lower (upper c) = lower c := by
  revert c
  exact forall_byte (by decide +kernel)

theorem toUpper_eq_iff {s t : Bytes} : toUpper s = toUpper t ↔ toLower s = toLower t := by
  have hup : ∀ s, toUpper (toLower s) = toUpper s := fun s => by
    simp [toUpper, toLower, upper_lower]
  have hlow : ∀ s, toLower (toUpper s) = toLower s := fun s => by
    simp [toUpper, toLower, upper_lower]
  constructor
  · intro h
    rw [← hlow s, h, hlow]
  · intro h
    rw [← hup s, h, hup]

/-! ### Integers as text -/

/-- An unsigned integer in decimal, as an output stream writes it. -/
def decimal (n : ℕ) : Bytes :=
  if n = 0 then [48] else (Nat.digits 10 n).reverse.map fun d => UInt8.ofNat (48 + d)

/-- A signed integer in decimal. -/
def decimalInt (i : ℤ) : Bytes := if i < 0 then 45 :: decimal i.natAbs else decimal i.natAbs

/-- `setw(w)` with fill character `fill`: padding on the left up to width `w`. -/
def padLeft (fill : UInt8) (w : ℕ) (s : Bytes) : Bytes := List.replicate (w - s.length) fill ++ s

/-- The value of a decimal digit. -/
def digit? (c : UInt8) : Option ℕ := if 48 ≤ c ∧ c ≤ 57 then some (c.toNat - 48) else none

/-- Read decimal digits, starting from the value `acc`; any other byte is refused. -/
def ofDecimal (acc : ℕ) : Bytes → Option ℕ
  | [] => some acc
  | c :: s =>
    match digit? c with
    | some d => ofDecimal (acc * 10 + d) s
    | none => none

theorem ofDecimal_append (acc : ℕ) (a b : Bytes) :
    ofDecimal acc (a ++ b) = (ofDecimal acc a).bind fun m => ofDecimal m b := by
  induction a generalizing acc with
  | nil => rfl
  | cons c a ih =>
    simp only [List.cons_append, ofDecimal]
    cases digit? c with
    | none => rfl
    | some d => exact ih _

theorem ofDecimal_zeros (n : ℕ) : ofDecimal 0 (List.replicate n 48) = some 0 := by
  induction n with
  | zero => rfl
  | succ n ih => rw [List.replicate_succ]; exact ih

theorem digit?_ofNat {d : ℕ} (h : d < 10) : digit? (UInt8.ofNat (48 + d)) = some d := by
  interval_cases d <;> rfl

theorem ofDecimal_digits {ds : List ℕ} (h : ∀ d ∈ ds, d < 10) (acc : ℕ) :
    ofDecimal acc (ds.map fun d => UInt8.ofNat (48 + d)) =
      some (acc * 10 ^ ds.length + Nat.ofDigits 10 ds.reverse) := by
  induction ds generalizing acc with
  | nil => simp [ofDecimal]
  | cons d ds ih =>
    have hd : d < 10 := h d List.mem_cons_self
    simp only [List.map_cons, ofDecimal, digit?_ofNat hd,
      ih (fun e he => h e (List.mem_cons_of_mem _ he)), List.reverse_cons, Nat.ofDigits_append,
      Nat.ofDigits_singleton, List.length_reverse, List.length_cons]
    congr 1
    ring

theorem ofDecimal_decimal (n : ℕ) : ofDecimal 0 (decimal n) = some n := by
  unfold decimal
  split_ifs with hn
  · subst hn; rfl
  · have hlt : ∀ d ∈ (Nat.digits 10 n).reverse, d < 10 := fun d hd =>
      Nat.digits_lt_base (by norm_num) (List.mem_reverse.1 hd)
    rw [ofDecimal_digits hlt, List.reverse_reverse, Nat.ofDigits_digits, Nat.zero_mul,
      Nat.zero_add]

theorem decimal_injective : Function.Injective decimal := fun m n h => by
  have hm := ofDecimal_decimal m
  rw [h, ofDecimal_decimal] at hm
  exact (Option.some.inj hm).symm

theorem decimal_ne_nil (n : ℕ) : decimal n ≠ [] := by
  unfold decimal
  split_ifs with hn
  · exact List.cons_ne_nil _ _
  · simpa [Nat.digits_ne_nil_iff_ne_zero] using hn

theorem ofDecimal_bounds {acc n : ℕ} {s : Bytes} (h : ofDecimal acc s = some n) :
    acc * 10 ^ s.length ≤ n ∧ n < (acc + 1) * 10 ^ s.length := by
  induction s generalizing acc with
  | nil =>
    obtain rfl : acc = n := by simpa [ofDecimal] using h
    simp
  | cons c s ih =>
    rw [ofDecimal] at h
    cases hd : digit? c with
    | none => simp [hd] at h
    | some d =>
      simp only [hd] at h
      have hlt : d < 10 := by
        unfold digit? at hd
        split_ifs at hd with hc
        have := UInt8.le_iff_toNat_le.1 hc.2
        simp at hd this
        omega
      obtain ⟨hlo, hhi⟩ := ih h
      rw [List.length_cons, pow_succ]
      constructor
      · calc acc * (10 ^ s.length * 10) = acc * 10 * 10 ^ s.length := by ring
          _ ≤ (acc * 10 + d) * 10 ^ s.length := Nat.mul_le_mul_right _ (by omega)
          _ ≤ n := hlo
      · calc n < (acc * 10 + d + 1) * 10 ^ s.length := hhi
          _ ≤ (acc + 1) * 10 * 10 ^ s.length := Nat.mul_le_mul_right _ (by omega)
          _ = (acc + 1) * (10 ^ s.length * 10) := by ring

theorem digit?_inj {c c' : UInt8} {d : ℕ} (h : digit? c = some d) (h' : digit? c' = some d) :
    c = c' := by
  unfold digit? at h h'
  split_ifs at h h' with hc hc'
  have hlo := UInt8.le_iff_toNat_le.1 hc.1
  have hlo' := UInt8.le_iff_toNat_le.1 hc'.1
  simp at h h' hlo hlo'
  exact UInt8.toNat_inj.1 (by omega)

theorem ofDecimal_inj {acc n : ℕ} {s t : Bytes} (hlen : s.length = t.length)
    (hs : ofDecimal acc s = some n) (ht : ofDecimal acc t = some n) : s = t := by
  induction s generalizing acc t with
  | nil => exact (List.length_eq_zero_iff.1 hlen.symm).symm
  | cons c s ih =>
    cases t with
    | nil => cases hlen
    | cons c' t =>
      rw [ofDecimal] at hs ht
      cases hd : digit? c with
      | none => simp [hd] at hs
      | some d =>
        cases hd' : digit? c' with
        | none => simp [hd'] at ht
        | some d' =>
          simp only [hd] at hs
          simp only [hd'] at ht
          have hlen' : s.length = t.length := Nat.succ.inj hlen
          have hbound := ofDecimal_bounds hs
          have hbound' := ofDecimal_bounds ht
          rw [← hlen'] at hbound'
          -- both first digits are those of the value
          have hle : acc * 10 + d < acc * 10 + d' + 1 :=
            lt_of_mul_lt_mul_right (lt_of_le_of_lt hbound.1 hbound'.2) (Nat.zero_le _)
          have hle' : acc * 10 + d' < acc * 10 + d + 1 :=
            lt_of_mul_lt_mul_right (lt_of_le_of_lt hbound'.1 hbound.2) (Nat.zero_le _)
          obtain rfl : d = d' := by omega
          rw [digit?_inj hd hd', ih hlen' hs ht]

theorem digits_of_ofDecimal {acc n : ℕ} {s : Bytes} (h : ofDecimal acc s = some n) :
    ∀ c ∈ s, 48 ≤ c ∧ c ≤ 57 := by
  induction s generalizing acc with
  | nil => simp
  | cons c s ih =>
    rw [ofDecimal] at h
    cases hd : digit? c with
    | none => simp [hd] at h
    | some d =>
      simp only [hd] at h
      have hc : 48 ≤ c ∧ c ≤ 57 := by
        unfold digit? at hd
        split_ifs at hd with hc
        exact hc
      exact List.forall_mem_cons.2 ⟨hc, ih h⟩

theorem length_decimal_le {n k : ℕ} (hk : 0 < k) (h : n < 10 ^ k) : (decimal n).length ≤ k := by
  unfold decimal
  split_ifs with hn
  · exact hk
  · rw [List.length_map, List.length_reverse]
    exact (Nat.digits_length_le_iff (by norm_num) n).2 h

theorem digit_of_mem_decimal {n : ℕ} {c : UInt8} (h : c ∈ decimal n) : 48 ≤ c ∧ c ≤ 57 := by
  unfold decimal at h
  split_ifs at h with hn
  · simp only [List.mem_singleton] at h
    subst h; decide
  · obtain ⟨d, hd, rfl⟩ := List.mem_map.1 h
    have hlt : d < 10 := Nat.digits_lt_base (by norm_num) (List.mem_reverse.1 hd)
    interval_cases d <;> decide

theorem length_padLeft {fill : UInt8} {w : ℕ} {s : Bytes} (h : s.length ≤ w) :
    (padLeft fill w s).length = w := by
  simp only [padLeft, List.length_append, List.length_replicate]
  omega

theorem ofDecimal_padLeft (w : ℕ) (s : Bytes) :
    ofDecimal 0 (padLeft 48 w s) = ofDecimal 0 s := by
  rw [padLeft, ofDecimal_append, ofDecimal_zeros, Option.bind_some]

/-- `boost::lexical_cast` to an unsigned type of `w` bits: an optional sign, then at least one
digit and nothing else, within the range; a minus sign negates modulo `2 ^ w`. -/
def lexicalCastUnsigned (w : ℕ) (s : Bytes) : Option ℕ :=
  let body := match s with
    | 43 :: t => (false, t)
    | 45 :: t => (true, t)
    | t => (false, t)
  if body.2 = [] then none
  else match ofDecimal 0 body.2 with
    | none => none
    | some n =>
      if n < 2 ^ w then some (if body.1 then (2 ^ w - n) % 2 ^ w else n) else none

/-- `boost::lexical_cast` to a signed type of `w` bits. -/
def lexicalCastInt (w : ℕ) (s : Bytes) : Option ℤ :=
  let body := match s with
    | 43 :: t => (false, t)
    | 45 :: t => (true, t)
    | t => (false, t)
  if body.2 = [] then none
  else match ofDecimal 0 body.2 with
    | none => none
    | some n =>
      if body.1 then (if n ≤ 2 ^ (w - 1) then some (-(n : ℤ)) else none)
      else (if n < 2 ^ (w - 1) then some (n : ℤ) else none)

theorem lexicalCastUnsigned_of_digit {w : ℕ} {c : UInt8} {s : Bytes} (hc : 48 ≤ c) {n : ℕ}
    (hn : ofDecimal 0 (c :: s) = some n) (hlt : n < 2 ^ w) :
    lexicalCastUnsigned w (c :: s) = some n := by
  have h43 : c ≠ 43 := by rintro rfl; exact absurd hc (by decide)
  have h45 : c ≠ 45 := by rintro rfl; exact absurd hc (by decide)
  unfold lexicalCastUnsigned
  split
  · rename_i h; exact absurd (List.cons.inj h).1 h43
  · rename_i h; exact absurd (List.cons.inj h).1 h45
  · simp [hn, hlt]

end Bytes

end ModDup
