import ModDup.RequestInfo

/-!
# Reading the dup format

`mod_compare` receives the request body, the answer headers and the answer body of the original
request in one body: three sections, each after its size in eight characters
(`src/deserialize.cc`).

## Main definitions

* `getLength`, `readSection` : a size and the section it announces.
* `deserializeHeader` : the header block, line by line.
* `deserializeBody` : the whole, with what it leaves behind when it fails.
* `SizeField`, `Reads` : the sizes that are read, and the bodies.

## Main results

* `sizeField_iff`, `readSection_eq_some` : what is read as a size, and as a section.
* `deserializeLines_fst` : a header block is accepted iff each of its lines has a separator.
* `deserializeBody_reads` : what is made of a body that can be read.
* `deserializeBody_sections` : three serialised sections are read back.
-/

namespace ModDup

open Bytes RequestInfo

/-- `std::string::substr`, which throws when `pos` is beyond the end. -/
def substr (s : Bytes) (pos n : ℕ) : Option Bytes :=
  if pos ≤ s.length then some ((s.drop pos).take n) else none

/-- `MAX_SECTION_SIZE`. -/
def maxSectionSize : ℕ := 10 ^ sectionSizeChars - 1

/-- `getLength`; `none` when it throws, on a size that is no number or too large. -/
def getLength (pString : Bytes) (pFirst : ℕ) : Option ℕ :=
  (substr pString pFirst sectionSizeChars).bind fun t =>
    (lexicalCastUnsigned 32 t).bind fun res => if res > maxSectionSize then none else some res

/-- A size and the section after it, with the position that follows.  The section may be
shorter than announced. -/
def readSection (s : Bytes) (pos : ℕ) : Option (Bytes × ℕ) :=
  (getLength s pos).bind fun size =>
    (substr s (pos + sectionSizeChars) size).map fun t => (t, pos + sectionSizeChars + size)

/-- `lDelim`. -/
def lDelim : Bytes := str ": "

/-- The loop of `deserializeHeader`: whether every line was well formed, and the map with the
lines before the first that was not. -/
def deserializeLines (m : MapStr) : List Bytes → Bool × MapStr
  | [] => (true, m)
  | lLine :: lines =>
    match find lDelim lLine with
    | none => (false, m)
    | some lPos => deserializeLines (m.set (lLine.take lPos) (lLine.drop (lPos + 2))) lines

/-- `deserializeHeader`; the first component is false when it throws. -/
def deserializeHeader (m : MapStr) (header : Bytes) : Bool × MapStr :=
  deserializeLines m (getlines header)

/-- The status of `deserializeBody`. -/
inductive ApStatus where
  | ok
  | httpBadRequest
  deriving DecidableEq, Repr

/-- `deserializeBody`.  Fields that were read before a failure keep their new value. -/
def deserializeBody (r : RequestInfo) : ApStatus × RequestInfo :=
  if r.mBody.length < 3 * sectionSizeChars then (.httpBadRequest, r)
  else match readSection r.mBody 0 with
    | none => (.httpBadRequest, r)
    | some (reqBody, pos) =>
      let r := { r with mReqBody := reqBody }
      match readSection r.mBody pos with
      | none => (.httpBadRequest, r)
      | some (lResponseHeader, pos) =>
        match readSection r.mBody pos with
        | none => (.httpBadRequest, r)
        | some (responseBody, _) =>
          -- the header block is read last, into the map of the request
          let (accepted, header) := deserializeHeader r.mResponseHeader lResponseHeader
          (if accepted then .ok else .httpBadRequest,
            { r with mResponseBody := responseBody, mResponseHeader := header })

/-- A fresh request that has received `body`. -/
def RequestInfo.received (id : Bytes) (startTime : ℤ) (body : Bytes) : RequestInfo :=
  { RequestInfo.make id startTime with mBody := body }

/-! ### Sizes and sections -/

/-- A size as it is read: eight digits, a plus sign and seven digits, or minus zero. -/
def SizeField (f : Bytes) (n : ℕ) : Prop :=
  f.length = sectionSizeChars ∧ (ofDecimal 0 f = some n ∨
    (∃ t, f = 43 :: t ∧ ofDecimal 0 t = some n) ∨ (f = str "-0000000" ∧ n = 0))

theorem ofDecimal_lt {f : Bytes} {n k : ℕ} (h : ofDecimal 0 f = some n) (hlen : f.length ≤ k) :
    n < 10 ^ k := by
  have hbound := (ofDecimal_bounds h).2
  rw [Nat.zero_add, Nat.one_mul] at hbound
  exact lt_of_lt_of_le hbound (Nat.pow_le_pow_right (by norm_num) hlen)

theorem SizeField.lt {f : Bytes} {n : ℕ} (h : SizeField f n) : n < 10 ^ sectionSizeChars := by
  obtain ⟨hlen, hplain | ⟨t, rfl, ht⟩ | ⟨-, rfl⟩⟩ := h
  · exact ofDecimal_lt hplain hlen.le
  · rw [List.length_cons] at hlen
    exact ofDecimal_lt ht (by omega)
  · decide

/-- **The sizes `getLength` accepts.** -/
theorem sizeField_iff {f : Bytes} (hlen : f.length = sectionSizeChars) {n : ℕ} :
    (lexicalCastUnsigned 32 f = some n ∧ n ≤ maxSectionSize) ↔ SizeField f n := by
  have hmax : maxSectionSize = 99999999 := by decide
  have hlimit : 10 ^ sectionSizeChars = 100000000 := by decide
  constructor
  · rintro ⟨hcast, hle⟩
    refine ⟨hlen, ?_⟩
    unfold lexicalCastUnsigned at hcast
    split at hcast
    · rename_i t
      right; left
      refine ⟨t, rfl, ?_⟩
      cases ht : ofDecimal 0 t with
      | none => simp [ht] at hcast
      | some m => simp_all
    · rename_i t
      right; right
      rw [List.length_cons] at hlen
      have hlen' : t.length = (str "0000000").length := Nat.succ.inj hlen
      cases ht : ofDecimal 0 t with
      | none => simp [ht] at hcast
      | some m =>
        have hm : m < 10 ^ 7 := ofDecimal_lt ht hlen'.le
        -- the negative of a small number is far too large
        have hzero : m = 0 ∧ n = 0 := by
          simp only [ht] at hcast
          split_ifs at hcast with h1 h2
          have hvalue : (2 ^ 32 - m) % 2 ^ 32 = n := Option.some.inj hcast
          omega
        obtain ⟨rfl, rfl⟩ := hzero
        have hzeros : t = str "0000000" := ofDecimal_inj hlen' ht (by decide)
        exact ⟨by rw [hzeros]; rfl, rfl⟩
    · left
      cases ht : ofDecimal 0 f with
      | none => simp [ht] at hcast
      | some m => simp_all
  · intro h
    have hlt := h.lt
    refine ⟨?_, by omega⟩
    obtain ⟨-, hplain | ⟨t, rfl, ht⟩ | ⟨rfl, rfl⟩⟩ := h
    · cases f with
      | nil => cases hlen
      | cons c s =>
        have hc := digits_of_ofDecimal hplain c List.mem_cons_self
        exact lexicalCastUnsigned_of_digit hc.1 hplain (by omega)
    · have hne : t ≠ [] := by
        rintro rfl
        cases hlen
      simp [lexicalCastUnsigned, hne, ht]
      omega
    · decide

theorem sizeField_padLeft {n : ℕ} (h : n < 10 ^ sectionSizeChars) :
    SizeField (padLeft 48 sectionSizeChars (decimal n)) n :=
  ⟨length_padLeft (length_decimal_le (by decide) h),
    .inl (by rw [ofDecimal_padLeft, ofDecimal_decimal])⟩

/-- **What is read as a section**: as much as there is of what the size announces. -/
theorem readSection_eq_some {before s b : Bytes} {pos : ℕ} :
    readSection (before ++ s) before.length = some (b, pos) ↔
      ∃ f rest n, s = f ++ rest ∧ SizeField f n ∧ b = rest.take n ∧
        pos = before.length + sectionSizeChars + n := by
  have hsub : substr (before ++ s) before.length sectionSizeChars =
      some (s.take sectionSizeChars) := by
    simp [substr]
  constructor
  · intro h
    obtain ⟨n, hlength, hrest⟩ := Option.bind_eq_some_iff.1 h
    obtain ⟨t, ht, heq⟩ := Option.map_eq_some_iff.1 hrest
    obtain ⟨rfl, rfl⟩ := Prod.mk.inj heq
    rw [getLength, hsub, Option.bind_some] at hlength
    obtain ⟨m, hcast, hle⟩ := Option.bind_eq_some_iff.1 hlength
    unfold substr at ht
    split_ifs at ht hle with hpos hmax
    obtain rfl := Option.some.inj hle
    rw [List.length_append] at hpos
    have hlen : (s.take sectionSizeChars).length = sectionSizeChars := by
      rw [List.length_take]
      omega
    refine ⟨s.take sectionSizeChars, s.drop sectionSizeChars, m, (List.take_append_drop _ _).symm,
      (sizeField_iff hlen).1 ⟨hcast, not_lt.1 hmax⟩, ?_, rfl⟩
    have hdrop : (before ++ s).drop (before.length + sectionSizeChars) =
        s.drop sectionSizeChars := by
      rw [← List.drop_drop, List.drop_left]
    rw [← Option.some.inj ht, hdrop]
  · rintro ⟨f, rest, n, rfl, hf, rfl, rfl⟩
    obtain ⟨hcast, hle⟩ := (sizeField_iff hf.1).2 hf
    have htake : (f ++ rest).take sectionSizeChars = f := by rw [← hf.1, List.take_left]
    have hdrop : (before ++ (f ++ rest)).drop (before.length + sectionSizeChars) = rest := by
      rw [← List.drop_drop, List.drop_left, ← hf.1, List.drop_left]
    rw [readSection, getLength, hsub, htake, Option.bind_some, hcast, Option.bind_some,
      if_neg (by omega), Option.bind_some, substr, hdrop, if_pos, Option.map_some]
    simp [← hf.1]

/-! ### Header lines -/

theorem find_lDelim_isSome {l : Bytes} : (find lDelim l).isSome ↔ lDelim <:+: l := find_isSome_iff

/-- A header block is accepted iff every line has a separator. -/
theorem deserializeLines_fst (m : MapStr) (ls : List Bytes) :
    (deserializeLines m ls).1 = true ↔ ∀ l ∈ ls, lDelim <:+: l := by
  induction ls generalizing m with
  | nil => simp [deserializeLines]
  | cons l ls ih =>
    rw [List.forall_mem_cons, ← find_lDelim_isSome, deserializeLines]
    cases h : find lDelim l with
    | none => simp
    | some pos => simp [ih]

theorem find_lDelim_line {name : Bytes} (value : Bytes) (h : ¬ lDelim <:+: name) :
    find lDelim (name ++ lDelim ++ value) = some name.length := by
  rw [List.append_assoc]
  exact find_pair (by decide) value h

theorem deserializeLines_lines (m : MapStr) {H : KeyValList} (h : ∀ v ∈ H, ¬ lDelim <:+: v.1) :
    deserializeLines m (H.map fun v => v.1 ++ lDelim ++ v.2) = (true, m.setAll H) := by
  induction H generalizing m with
  | nil => rfl
  | cons v H ih =>
    obtain ⟨hv, hH⟩ := List.forall_mem_cons.1 h
    rw [List.map_cons, deserializeLines, find_lDelim_line v.2 hv]
    have htake : (v.1 ++ lDelim ++ v.2).take v.1.length = v.1 := by simp
    have hdrop : (v.1 ++ lDelim ++ v.2).drop (v.1.length + 2) = v.2 := by
      rw [← List.drop_drop, List.append_assoc, List.drop_left]
      rfl
    simp only [htake, hdrop]
    exact ih _ hH

theorem deserializeLines_append {m : MapStr} {ls : List Bytes}
    (h : (deserializeLines m ls).1 = true) (ls' : List Bytes) :
    deserializeLines m (ls ++ ls') = deserializeLines (deserializeLines m ls).2 ls' := by
  induction ls generalizing m with
  | nil => rfl
  | cons l ls ih =>
    rw [List.cons_append]
    simp only [deserializeLines] at h ⊢
    split
    · next hfind => simp [hfind] at h
    · next pos hfind =>
      simp only [hfind] at h
      exact ih h

/-! ### The three sections -/

/-- The three sections of a body and what stands around them: the sizes of the first two are right,
and the last section is what the third size takes of the rest. -/
def Reads (s b h a : Bytes) : Prop :=
  ∃ f₁ f₂ f₃ rest n, s = f₁ ++ b ++ (f₂ ++ h ++ (f₃ ++ rest)) ∧ SizeField f₁ b.length ∧
    SizeField f₂ h.length ∧ SizeField f₃ n ∧ a = rest.take n

/-- **What `deserializeBody` makes of a body it can read.** -/
theorem deserializeBody_reads {r : RequestInfo} {b h a : Bytes} (hr : Reads r.mBody b h a) :
    deserializeBody r =
      (if (deserializeHeader r.mResponseHeader h).1 then .ok else .httpBadRequest,
        { r with
          mReqBody := b, mResponseBody := a
          mResponseHeader := (deserializeHeader r.mResponseHeader h).2 }) := by
  obtain ⟨f₁, f₂, f₃, rest, n, hs, h₁, h₂, h₃, ha⟩ := hr
  have hsize : ¬ r.mBody.length < 3 * sectionSizeChars := by
    simp only [hs, List.length_append, h₁.1, h₂.1, h₃.1]
    omega
  have hread₁ : readSection r.mBody 0 = some (b, (f₁ ++ b).length) := by
    have := (@readSection_eq_some [] r.mBody b (f₁ ++ b).length).2
      ⟨f₁, b ++ (f₂ ++ h ++ (f₃ ++ rest)), b.length, by rw [hs, List.append_assoc], h₁,
        by rw [List.take_left], by simp [h₁.1]⟩
    simpa using this
  have hread₂ : readSection r.mBody (f₁ ++ b).length = some (h, (f₁ ++ b ++ (f₂ ++ h)).length) := by
    rw [hs]
    refine readSection_eq_some.2 ⟨f₂, h ++ (f₃ ++ rest), h.length, by rw [List.append_assoc], h₂,
      by rw [List.take_left], ?_⟩
    simp only [List.length_append, h₂.1]
    omega
  have hread₃ : readSection r.mBody (f₁ ++ b ++ (f₂ ++ h)).length =
      some (a, (f₁ ++ b ++ (f₂ ++ h)).length + sectionSizeChars + n) := by
    rw [hs, ← List.append_assoc]
    exact readSection_eq_some.2 ⟨f₃, rest, n, rfl, h₃, ha, rfl⟩
  simp only [deserializeBody, if_neg hsize, hread₁, hread₂, hread₃]

/-- Three serialised sections are read back; the status is the one of the header block. -/
theorem deserializeBody_sections (r : RequestInfo) {b h a : Bytes}
    (hr : r.mBody = serialize b ++ serialize h ++ serialize a)
    (hb : b.length < 10 ^ sectionSizeChars) (hh : h.length < 10 ^ sectionSizeChars)
    (ha : a.length < 10 ^ sectionSizeChars) :
    deserializeBody r =
      (if (deserializeHeader r.mResponseHeader h).1 then .ok else .httpBadRequest,
        { r with
          mReqBody := b, mResponseBody := a
          mResponseHeader := (deserializeHeader r.mResponseHeader h).2 }) := by
  refine deserializeBody_reads ⟨_, _, _, a, a.length, ?_, sizeField_padLeft hb,
    sizeField_padLeft hh, sizeField_padLeft ha, List.take_length.symm⟩
  rw [hr, serialize, serialize, serialize, List.append_assoc]

end ModDup
