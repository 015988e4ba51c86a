import Mathlib.Data.List.TakeWhile
import ModDup.Lib.Bytes

/-!
# Buffers

A buffer has a fixed length, and reading or writing outside of it fails.  A writer fills a buffer
from the left.  A rewriter reads a buffer and writes over what it has read: as long as it writes
no more than it reads, what it will read next is still there.  A C string is a buffer that has a
NUL byte.

## Main definitions

* `writeAt` : one write.
* `Writer` : a buffer and the place of the next write.
* `Rewriter` : a buffer, the place of the next write and the place of the next read.
* `Writer.of`, `Rewriter.of` : the same by what is written and what is still to come.
* `strlen`, `strchr`, `strncpy`, `stringOf` : the functions on C strings.

## Main results

* `Writer.putAll_of` : a text is written where there is room for it.
* `Rewriter.peek_of`, `Rewriter.store_of`, `Rewriter.copy_of` : what a rewriter reads is what was
  there in the beginning.
* `stringOf_append` : a buffer is a C string from the first NUL on.
-/

namespace ModDup

section Buffer

variable {α : Type*}

/-- `buf[i] = a`. -/
def writeAt (buf : List α) (i : ℕ) (a : α) : Option (List α) :=
  if i < buf.length then some (buf.set i a) else none

theorem writeAt_append (out rest : List α) (r a : α) :
    writeAt (out ++ r :: rest) out.length a = some (out ++ a :: rest) := by
  rw [writeAt, if_pos (by simp), List.set_append_right _ _ (Nat.le_refl _), Nat.sub_self,
    List.set_cons_zero]

/-! ### Writers -/

/-- A buffer and the place of the next write. -/
structure Writer (α : Type*) where
  buf : List α
  pos : ℕ

namespace Writer

/-- `*d++ = a`. -/
def put (d : Writer α) (a : α) : Option (Writer α) :=
  (writeAt d.buf d.pos a).map fun buf => ⟨buf, d.pos + 1⟩

/-- One write after the other. -/
def putAll (d : Writer α) (l : List α) : Option (Writer α) := l.foldlM put d

/-- The writer that has written `out` and has `room` left. -/
def of (out room : List α) : Writer α := ⟨out ++ room, out.length⟩

theorem put_of (out room : List α) (r a : α) :
    (of out (r :: room)).put a = some (of (out ++ [a]) room) := by
  simp [put, of, writeAt_append]

theorem putAll_of (out : List α) {l room : List α} (h : l.length ≤ room.length) :
    (of out room).putAll l = some (of (out ++ l) (room.drop l.length)) := by
  induction l generalizing out room with
  | nil => simp [putAll]
  | cons a l ih =>
    cases room with
    | nil => simp at h
    | cons r room =>
      have hl : l.length ≤ room.length := by simpa using h
      have hrest := ih (out ++ [a]) hl
      rw [putAll] at hrest
      rw [putAll, List.foldlM_cons, put_of]
      simpa using hrest

end Writer

/-! ### Rewriters -/

/-- A buffer that is read at `y` and written at `x`. -/
structure Rewriter (α : Type*) where
  buf : List α
  x : ℕ
  y : ℕ

namespace Rewriter

/-- `*(y + i)`. -/
def peek (s : Rewriter α) (i : ℕ) : Option α := s.buf[s.y + i]?

/-- `*x = a`. -/
def store (s : Rewriter α) (a : α) : Option (Rewriter α) :=
  (writeAt s.buf s.x a).map fun buf => { s with buf := buf }

/-- `++x, ++y`. -/
def next (s : Rewriter α) : Rewriter α := { s with x := s.x + 1, y := s.y + 1 }

/-- `y += n`. -/
def skip (s : Rewriter α) (n : ℕ) : Rewriter α := { s with y := s.y + n }

/-- `*x++ = *y++`. -/
def copy (s : Rewriter α) : Option (Rewriter α) :=
  (s.peek 0).bind fun a => (s.store a).map next

/-- The rewriter that has written `out` and has `rest` to read.  Between them stands what was read
and is not overwritten. -/
def of (out gap rest : List α) : Rewriter α :=
  ⟨out ++ (gap ++ rest), out.length, out.length + gap.length⟩

theorem peek_of (out gap rest : List α) (i : ℕ) : (of out gap rest).peek i = rest[i]? := by
  rw [peek, of, ← List.append_assoc, List.getElem?_append_right (by simp)]
  congr 1
  simp

theorem skip_of (out gap l rest : List α) :
    (of out gap (l ++ rest)).skip l.length = of out (gap ++ l) rest := by
  simp [skip, of, Nat.add_assoc]

theorem next_skip (s : Rewriter α) (n : ℕ) : (s.skip n).next = s.next.skip n := by
  simp [skip, next, Nat.add_right_comm]

theorem store_of (out gap rest : List α) (r a : α) :
    ((of out gap (r :: rest)).store a).map next =
      some (of (out ++ [a]) ((gap ++ [r]).tail) rest) := by
  cases gap with
  | nil => simp [store, next, of, writeAt_append]
  | cons g gap => simp [store, next, of, writeAt_append, Nat.add_right_comm, Nat.add_assoc]

theorem exists_store_of (out gap rest : List α) (r a : α) :
    ∃ s, (of out gap (r :: rest)).store a = some s ∧
      s.buf = out ++ a :: ((gap ++ [r]).tail ++ rest) := by
  obtain ⟨s, hs, hnext⟩ := Option.map_eq_some_iff.1 (store_of out gap rest r a)
  refine ⟨s, hs, ?_⟩
  have hbuf := congrArg buf hnext
  simpa [next, of] using hbuf

theorem copy_of (out gap rest : List α) (r : α) :
    (of out gap (r :: rest)).copy = some (of (out ++ [r]) ((gap ++ [r]).tail) rest) := by
  rw [← store_of out gap rest r r, copy, peek_of]
  rfl

end Rewriter

end Buffer

/-! ### C strings -/

namespace Bytes

/-- `strlen`. -/
def strlen : Bytes → Option ℕ
  | [] => none
  | c :: s => if c = 0 then some 0 else (strlen s).map (· + 1)

/-- `strchr`, the place of `c` in the string if it is there. -/
def strchr (c : UInt8) : Bytes → Option (Option ℕ)
  | [] => none
  | b :: s =>
    if b = c then some (some 0)
    else if b = 0 then some none
    else (strchr c s).map fun i => i.map (· + 1)

/-- `strncpy`, which fills up with NUL bytes. -/
def strncpy (dst src : Bytes) (n : ℕ) : Option Bytes :=
  let text := cstr (src.take n)
  if n ≤ dst.length ∧ (0 ∈ src ∨ n ≤ src.length) then
    some (text ++ List.replicate (n - text.length) 0 ++ dst.drop n)
  else none

/-- `std::string(buf)`. -/
def stringOf (buf : Bytes) : Option Bytes := if 0 ∈ buf then some (cstr buf) else none

theorem cstr_append_zero (s tail : Bytes) : cstr (s ++ 0 :: tail) = cstr s := by
  induction s with
  | nil => rfl
  | cons c s ih =>
    rw [cstr, cstr] at ih ⊢
    rw [List.cons_append, List.takeWhile_cons, List.takeWhile_cons, ih]

/-- A C function sees the same of `c_str()`, which ends with a NUL byte. -/
theorem exists_cstr_append (s : Bytes) : ∃ tail, s ++ [0] = cstr s ++ 0 :: tail := by
  induction s with
  | nil => exact ⟨[], rfl⟩
  | cons c s ih =>
    by_cases hc : c = 0
    · exact ⟨s ++ [0], by simp [cstr, hc]⟩
    · obtain ⟨tail, ih⟩ := ih
      refine ⟨tail, ?_⟩
      rw [cstr, List.takeWhile_cons_of_pos (by simpa using hc), List.cons_append, ih]
      rfl

theorem zero_not_mem_cstr (s : Bytes) : 0 ∉ cstr s := fun h => by
  simpa using List.mem_takeWhile_imp h

theorem stringOf_append (s tail : Bytes) : stringOf (s ++ 0 :: tail) = some (cstr s) := by
  rw [stringOf, if_pos (by simp), cstr_append_zero]

theorem strlen_append {s : Bytes} (h : 0 ∉ s) (tail : Bytes) :
    strlen (s ++ 0 :: tail) = some s.length := by
  induction s with
  | nil => rfl
  | cons c s ih =>
    obtain ⟨hc, hs⟩ := List.ne_and_not_mem_of_not_mem_cons h
    rw [List.cons_append, strlen, if_neg (Ne.symm hc), ih hs]
    rfl

theorem strchr_append_of_not_mem {c : UInt8} {s : Bytes} (hc : c ≠ 0) (hs : 0 ∉ s) (h : c ∉ s)
    (tail : Bytes) : strchr c (s ++ 0 :: tail) = some none := by
  induction s with
  | nil => simp [strchr, hc.symm]
  | cons b s ih =>
    obtain ⟨hb, hs⟩ := List.ne_and_not_mem_of_not_mem_cons hs
    obtain ⟨hbc, h⟩ := List.ne_and_not_mem_of_not_mem_cons h
    rw [List.cons_append, strchr, if_neg (Ne.symm hbc), if_neg (Ne.symm hb), ih hs h]
    rfl

theorem strchr_append_cons {c : UInt8} {s : Bytes} (hs : 0 ∉ s) (h : c ∉ s) (rest : Bytes) :
    strchr c (s ++ c :: rest) = some (some s.length) := by
  induction s with
  | nil => simp [strchr]
  | cons b s ih =>
    obtain ⟨hb, hs⟩ := List.ne_and_not_mem_of_not_mem_cons hs
    obtain ⟨hbc, h⟩ := List.ne_and_not_mem_of_not_mem_cons h
    rw [List.cons_append, strchr, if_neg (Ne.symm hbc), if_neg (Ne.symm hb), ih hs h]
    rfl

/-- A copy of `c_str()` into a buffer of its length: the text to the first NUL, and NUL bytes. -/
theorem strncpy_c_str {dst : Bytes} (s : Bytes) (h : dst.length = s.length + 1) :
    ∃ tail, strncpy dst (s ++ [0]) (s.length + 1) = some (cstr s ++ 0 :: tail) := by
  have htext : cstr ((s ++ [0]).take (s.length + 1)) = cstr s := by
    rw [List.take_of_length_le (by simp), cstr_append_zero]
  have hlen : (cstr s).length ≤ s.length := (List.takeWhile_prefix _).length_le
  refine ⟨List.replicate (s.length - (cstr s).length) 0, ?_⟩
  rw [strncpy, htext, if_pos (by simp [h]), Nat.sub_add_comm hlen, List.replicate_succ,
    List.drop_of_length_le (by omega), List.append_nil]

end Bytes

end ModDup
