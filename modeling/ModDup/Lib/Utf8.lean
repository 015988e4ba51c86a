import ModDup.Lib.Bytes

/-!
# Replacing invalid UTF-8

`utf8::replace_invalid` of the UTF8-CPP library (`extern/utf8`) copies a text and puts a
replacement mark for what is not valid UTF-8.  It throws when the text stops in the middle of a
sequence.

## Main results

* `Utf8.replaceInvalid_isSome_of_getLast` : it does not throw on a text that ends with an ASCII
  byte.
* `Utf8.isValid_of_replaceInvalid`, `Utf8.replaceInvalid_of_isValid` : its result is valid, and is
  the text itself when that was valid.
-/

namespace ModDup

namespace Utf8

open Bytes

/-- `utf8::internal::utf_error`, without its success value. -/
inductive UtfError where
  | notEnoughRoom
  | invalidLead
  | incompleteSequence
  | overlongSequence
  | invalidCodePoint
  deriving DecidableEq, Repr

/-- `is_trail`. -/
def isTrail (oc : UInt8) : Bool := oc.toNat >>> 6 = 2

/-- `is_code_point_valid`. -/
def isCodePointValid (cp : ℕ) : Bool := cp ≤ 0x10ffff && !(0xd800 ≤ cp && cp ≤ 0xdfff)

/-- `sequence_length`, from the lead byte. -/
def sequenceLength (lead : UInt8) : ℕ :=
  if lead < 0x80 then 1
  else if lead.toNat >>> 5 = 0x6 then 2
  else if lead.toNat >>> 4 = 0xe then 3
  else if lead.toNat >>> 3 = 0x1e then 4
  else 0

/-- `is_overlong_sequence`. -/
def isOverlongSequence (cp length : ℕ) : Bool :=
  if cp < 0x80 then length ≠ 1
  else if cp < 0x800 then length ≠ 2
  else if cp < 0x10000 then length ≠ 3
  else false

/-- `increase_safely`: the next byte, which has to be a trail byte, and what follows it. -/
def increaseSafely : Bytes → Except UtfError (ℕ × Bytes)
  | [] => .error .notEnoughRoom
  | oc :: s => if isTrail oc then .ok (oc.toNat, s) else .error .incompleteSequence

/-- `get_sequence_1` to `get_sequence_4`: the code point of a sequence of the given length. -/
def getSequence (lead : UInt8) (s : Bytes) : ℕ → Except UtfError ℕ
  | 1 => .ok lead.toNat
  | 2 => do
    let (b, _) ← increaseSafely s
    return ((lead.toNat <<< 6) &&& 0x7ff) + (b &&& 0x3f)
  | 3 => do
    let (b, s) ← increaseSafely s
    let (c, _) ← increaseSafely s
    return ((lead.toNat <<< 12) &&& 0xffff) + ((b <<< 6) &&& 0xfff) + (c &&& 0x3f)
  | 4 => do
    let (b, s) ← increaseSafely s
    let (c, s) ← increaseSafely s
    let (d, _) ← increaseSafely s
    return ((lead.toNat <<< 18) &&& 0x1fffff) + ((b <<< 12) &&& 0x3ffff) +
      ((c <<< 6) &&& 0xfff) + (d &&& 0x3f)
  | _ => .error .invalidLead

/-- `validate_next`: the length of the sequence that starts with `lead`, or what is wrong with
it. -/
def validateNext (lead : UInt8) (s : Bytes) : Except UtfError ℕ :=
  let length := sequenceLength lead
  match getSequence lead s length with
  | .error err => .error err
  | .ok cp =>
    if !isCodePointValid cp then .error .invalidCodePoint
    else if isOverlongSequence cp length then .error .overlongSequence
    else .ok length

/-- The bytes of U+FFFD. -/
def replacementMarker : Bytes := [0xef, 0xbf, 0xbd]

/-- Where `replace_invalid` stands: `n` more bytes of a valid sequence are copied as they are,
or the trail bytes of an invalid one are passed over. -/
inductive Mode where
  | copy (n : ℕ)
  | skip

/-- The loop of `replace_invalid`; `none` when it throws. -/
def replaceInvalidAux : Mode → Bytes → Option Bytes
  | _, [] => some []
  | mode, c :: s =>
    match mode with
    | .copy (n + 1) => (replaceInvalidAux (.copy n) s).map (c :: ·)
    | mode =>
      if (mode matches .skip) && isTrail c then replaceInvalidAux .skip s
      else match validateNext c s with
        | .ok length => (replaceInvalidAux (.copy (length - 1)) s).map (c :: ·)
        | .error .notEnoughRoom => none
        | .error .invalidLead => (replaceInvalidAux (.copy 0) s).map (replacementMarker ++ ·)
        | .error _ => (replaceInvalidAux .skip s).map (replacementMarker ++ ·)

/-- `utf8::replace_invalid`. -/
def replaceInvalid (s : Bytes) : Option Bytes := replaceInvalidAux (.copy 0) s

/-- The loop of `is_valid`: `n` more bytes of a valid sequence are to be passed over. -/
def isValidAux : ℕ → Bytes → Bool
  | _, [] => true
  | n + 1, _ :: s => isValidAux n s
  | 0, c :: s =>
    match validateNext c s with
    | .ok length => isValidAux (length - 1) s
    | .error _ => false

/-- `utf8::is_valid`: `validate_next` accepts the text throughout. -/
def isValid (s : Bytes) : Bool := isValidAux 0 s

/-! ### No exception -/

/-- A text whose last byte, if there is one, is ASCII. -/
def EndsAscii (s : Bytes) : Prop := ∀ c ∈ s.getLast?, c < 0x80

theorem EndsAscii.tail {c : UInt8} {s : Bytes} (h : EndsAscii (c :: s)) : EndsAscii s := by
  cases s with
  | nil => simp [EndsAscii]
  | cons d s => simpa [EndsAscii, List.getLast?_cons_cons] using h

theorem not_isTrail_of_lt (c : UInt8) (h : c < 0x80) : isTrail c = false := by
  revert c
  exact forall_byte (by decide +kernel)

/-- Inside a sequence the text does not stop before it has shown a byte that is no trail
byte. -/
theorem increaseSafely_spec {s : Bytes} (hne : s ≠ []) (h : EndsAscii s) :
    increaseSafely s = .error .incompleteSequence ∨
      ∃ b t, increaseSafely s = .ok (b, t) ∧ t ≠ [] ∧ EndsAscii t := by
  cases s with
  | nil => exact absurd rfl hne
  | cons c s =>
    by_cases hc : isTrail c
    · refine .inr ⟨c.toNat, s, by simp [increaseSafely, hc], ?_, h.tail⟩
      rintro rfl
      have : c < 0x80 := h c (by simp)
      rw [not_isTrail_of_lt c this] at hc
      cases hc
    · exact .inl (by simp [increaseSafely, hc])

theorem getSequence_ne_notEnoughRoom {lead : UInt8} {s : Bytes} (hne : s ≠ []) (h : EndsAscii s)
    (n : ℕ) : getSequence lead s n ≠ .error .notEnoughRoom := by
  unfold getSequence
  split
  · simp
  · rcases increaseSafely_spec hne h with h1 | ⟨b, t, h1, -⟩ <;>
      simp [h1, bind, Except.bind, pure, Except.pure]
  · rcases increaseSafely_spec hne h with h1 | ⟨b, t, h1, ht, hte⟩
    · simp [h1, bind, Except.bind]
    · rcases increaseSafely_spec ht hte with h2 | ⟨b', t', h2, -⟩ <;>
        simp [h1, h2, bind, Except.bind, pure, Except.pure]
  · rcases increaseSafely_spec hne h with h1 | ⟨b, t, h1, ht, hte⟩
    · simp [h1, bind, Except.bind]
    · rcases increaseSafely_spec ht hte with h2 | ⟨b', t', h2, ht', hte'⟩
      · simp [h1, h2, bind, Except.bind]
      · rcases increaseSafely_spec ht' hte' with h3 | ⟨b'', t'', h3, -⟩ <;>
          simp [h1, h2, h3, bind, Except.bind, pure, Except.pure]
  · simp

theorem validateNext_ne_notEnoughRoom {lead : UInt8} {s : Bytes} (h : EndsAscii (lead :: s)) :
    validateNext lead s ≠ .error .notEnoughRoom := by
  have hseq : getSequence lead s (sequenceLength lead) ≠ .error .notEnoughRoom := by
    by_cases hs : s = []
    · -- the lead byte is the last one, so it is ASCII and stands for itself
      subst hs
      have hlt : lead < 0x80 := h lead (by simp)
      simp [sequenceLength, hlt, getSequence]
    · exact getSequence_ne_notEnoughRoom hs h.tail _
  intro hval
  simp only [validateNext] at hval
  split at hval
  · rename_i err hget
    exact hseq (hget.trans hval)
  · split_ifs at hval <;> simp at hval

/-- A text that ends with an ASCII byte is copied without exception. -/
theorem replaceInvalid_isSome_of_getLast {s : Bytes} (h : EndsAscii s) :
    (replaceInvalid s).isSome := by
  suffices H : ∀ mode, (replaceInvalidAux mode s).isSome from H _
  induction s with
  | nil => intro mode; rfl
  | cons c s ih =>
    have ih := ih h.tail
    intro mode
    rw [replaceInvalidAux.eq_def]
    split
    · rfl
    · rename_i mode' c' s' heq
      obtain ⟨rfl, rfl⟩ := List.cons.inj heq
      split
      · simpa using ih _
      · split_ifs
        · exact ih _
        · split
          · simpa using ih _
          · rename_i herr
            exact absurd herr (validateNext_ne_notEnoughRoom h)
          · simpa using ih _
          · simpa using ih _

/-! ### The result is valid -/

/-- The code point depends on the bytes of its sequence only. -/
theorem getSequence_take (lead : UInt8) (s : Bytes) (n : ℕ) :
    getSequence lead (s.take (n - 1)) n = getSequence lead s n := by
  match n, s with
  | 0, _ => rfl
  | 1, _ => rfl
  | 2, [] => rfl
  | 2, b :: s => by_cases hb : isTrail b <;> simp [getSequence, increaseSafely, hb]
  | 3, [] => rfl
  | 3, [b] => rfl
  | 3, b :: c :: s =>
    by_cases hb : isTrail b <;> by_cases hc : isTrail c <;>
      simp [getSequence, increaseSafely, hb, hc, bind, Except.bind, pure, Except.pure]
  | 4, [] => rfl
  | 4, [b] => rfl
  | 4, [b, c] => rfl
  | 4, b :: c :: d :: s =>
    by_cases hb : isTrail b <;> by_cases hc : isTrail c <;> by_cases hd : isTrail d <;>
      simp [getSequence, increaseSafely, hb, hc, hd, bind, Except.bind, pure, Except.pure]
  | n + 5, _ => rfl

theorem validateNext_take (lead : UInt8) (s : Bytes) :
    validateNext lead (s.take (sequenceLength lead - 1)) = validateNext lead s := by
  simp only [validateNext, getSequence_take]

theorem eq_sequenceLength_of_validateNext {lead : UInt8} {s : Bytes} {length : ℕ}
    (h : validateNext lead s = .ok length) : length = sequenceLength lead := by
  simp only [validateNext] at h
  split at h
  · cases h
  · split_ifs at h
    exact (Except.ok.inj h).symm

theorem validateNext_congr {lead : UInt8} {s t : Bytes} {length : ℕ}
    (h : validateNext lead s = .ok length) (hst : t.take (length - 1) = s.take (length - 1)) :
    validateNext lead t = .ok length := by
  have hlen := eq_sequenceLength_of_validateNext h
  rw [hlen] at hst
  rw [← validateNext_take, hst, validateNext_take, h]

theorem isValidAux_replacementMarker (t : Bytes) :
    isValidAux 0 (replacementMarker ++ t) = isValidAux 0 t := rfl

theorem take_of_replaceInvalidAux {n : ℕ} {s t : Bytes}
    (h : replaceInvalidAux (.copy n) s = some t) : t.take n = s.take n := by
  induction s generalizing n t with
  | nil =>
    obtain rfl : [] = t := by simpa [replaceInvalidAux] using h
    rfl
  | cons c s ih =>
    cases n with
    | zero => rfl
    | succ n =>
      obtain ⟨t', ht', rfl⟩ : ∃ t', replaceInvalidAux (.copy n) s = some t' ∧ c :: t' = t := by
        simpa [replaceInvalidAux] using h
      rw [List.take_succ_cons, List.take_succ_cons, ih ht']

theorem replaceInvalidAux_skip_cons (c : UInt8) (s : Bytes) :
    replaceInvalidAux .skip (c :: s) =
      if isTrail c then replaceInvalidAux .skip s else replaceInvalidAux (.copy 0) (c :: s) := by
  simp [replaceInvalidAux]

/-- How many bytes of a valid sequence a mode still owes. -/
def Mode.owed : Mode → ℕ
  | .copy n => n
  | .skip => 0

theorem isValidAux_of_replaceInvalidAux {mode : Mode} {s t : Bytes}
    (h : replaceInvalidAux mode s = some t) : isValidAux mode.owed t = true := by
  induction s generalizing mode t with
  | nil =>
    obtain rfl : [] = t := by simpa [replaceInvalidAux] using h
    simp [isValidAux]
  | cons c s ih =>
    have hnext {t : Bytes} (h : replaceInvalidAux (.copy 0) (c :: s) = some t) :
        isValidAux 0 t = true := by
      simp only [replaceInvalidAux, Bool.false_and, Bool.false_eq_true, ↓reduceIte] at h
      split at h
      · rename_i length hval
        obtain ⟨t, ht, rfl⟩ := Option.map_eq_some_iff.1 h
        have hvalt := validateNext_congr hval (take_of_replaceInvalidAux ht)
        simpa only [isValidAux, hvalt, Mode.owed] using ih ht
      · cases h
      · obtain ⟨t, ht, rfl⟩ := Option.map_eq_some_iff.1 h
        rw [isValidAux_replacementMarker]
        exact ih ht
      · obtain ⟨t, ht, rfl⟩ := Option.map_eq_some_iff.1 h
        rw [isValidAux_replacementMarker]
        exact ih ht
    cases mode with
    | skip =>
      rw [replaceInvalidAux_skip_cons] at h
      split_ifs at h
      · exact ih h
      · exact hnext h
    | copy n =>
      cases n with
      | zero => exact hnext h
      | succ n =>
        simp only [replaceInvalidAux] at h
        obtain ⟨t, ht, rfl⟩ := Option.map_eq_some_iff.1 h
        have hvalid := ih ht
        exact hvalid

/-- **What `replace_invalid` writes is valid.** -/
theorem isValid_of_replaceInvalid {s t : Bytes} (h : replaceInvalid s = some t) :
    isValid t = true := isValidAux_of_replaceInvalidAux h

example : replaceInvalid [97, 0xe9, 98, nl] = some ([97] ++ replacementMarker ++ [98, nl]) := by
  decide

theorem replaceInvalidAux_of_isValidAux {n : ℕ} {s : Bytes} (h : isValidAux n s = true) :
    replaceInvalidAux (.copy n) s = some s := by
  induction s generalizing n with
  | nil => simp [replaceInvalidAux]
  | cons c s ih =>
    cases n with
    | succ n => simp [replaceInvalidAux, ih h]
    | zero =>
      simp only [isValidAux] at h
      cases hval : validateNext c s with
      | error err => simp [hval] at h
      | ok length =>
        rw [hval] at h
        simp [replaceInvalidAux, hval, ih h]

/-- A valid text is copied as it is. -/
theorem replaceInvalid_of_isValid {s : Bytes} (h : isValid s = true) :
    replaceInvalid s = some s := replaceInvalidAux_of_isValidAux h

end Utf8

end ModDup
