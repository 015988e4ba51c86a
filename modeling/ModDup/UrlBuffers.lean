import ModDup.Lib.Buffer
import ModDup.UrlCodec

/-!
# The URL codecs on their buffers

The Apache functions under the codecs work on memory: `unescape_url` rewrites its argument in
place through two pointers, `ap_escape_path_segment` fills a buffer it has made, and the codecs
copy strings into and out of such buffers.  Here they are as they run, where an access outside of
a buffer fails, and they are shown to compute the functions of `ModDup.UrlCodec`.

## Main definitions

* `CBuffer.unescapeUrl`, `CBuffer.apEscapePathSegment` : the Apache functions.
* `CBuffer.decode`, `CBuffer.encode` : the codecs.
* `pieces` : a text as `unescape_url` reads it.

## Main results

* `CBuffer.unescapeUrl_append` : what `unescape_url` leaves and returns.
* `CBuffer.decode_eq`, `CBuffer.encode_eq` : the codecs compute `decode` and `encode`.
* `CBuffer.url_codec_round_trip` : what was encoded is decoded again.
-/

namespace ModDup

open Bytes UrlCodec

/-- `chars && ap_strchr_c(chars, decoded)`, for a byte that is not NUL. -/
def listed (chars : Option Bytes) (decoded : UInt8) : Bool := chars.any (·.contains decoded)

/-- `decoded == '\0' || (forbid && ap_strchr_c(forbid, decoded))`. -/
def badByte (forbid : Option Bytes) (decoded : UInt8) : Bool := decoded = 0 || listed forbid decoded

/-! ### The pieces of an escaped text -/

/-- A piece of a text as `unescape_url` reads it. -/
inductive Piece where
  | char (c : UInt8)
  /-- A `%` that two hexadecimal digits do not follow. -/
  | percent
  | escape (a b : UInt8)
  deriving DecidableEq, Repr

/-- The pieces of a text. -/
def pieces : Bytes → List Piece
  | [] => []
  | 37 :: a :: b :: s =>
    if isXdigit a && isXdigit b then .escape a b :: pieces s else .percent :: pieces (a :: b :: s)
  | c :: s => (if c = 37 then .percent else .char c) :: pieces s

namespace Piece

/-- The escape of a byte the caller does not want to have in the path. -/
def forbidden (forbid : Option Bytes) : Piece → Bool
  | .escape a b => badByte forbid (x2c a b)
  | _ => false

/-- What is written for a piece: a reserved byte stays escaped, unless it is forbidden. -/
def write (forbid reserved : Option Bytes) : Piece → Bytes
  | .char c => [c]
  | .percent => [37]
  | .escape a b =>
    if badByte forbid (x2c a b) then [x2c a b]
    else if listed reserved (x2c a b) then [37, a, b]
    else [x2c a b]

end Piece

theorem pieces_cons {c : UInt8} {s : Bytes} (h : ∀ a b s', c = 37 → s = a :: b :: s' → False) :
    pieces (c :: s) = (if c = 37 then .percent else .char c) :: pieces s := by
  rw [pieces]
  exact h

theorem pieces_cons_of_ne {c : UInt8} (h : c ≠ 37) (s : Bytes) :
    pieces (c :: s) = .char c :: pieces s := by
  rw [pieces_cons fun _ _ _ hc => (h hc).elim, if_neg h]

theorem pieces_append {s : Bytes} (h : 37 ∉ s) (t : Bytes) :
    pieces (s ++ t) = s.map .char ++ pieces t := by
  induction s with
  | nil => rfl
  | cons c s ih =>
    obtain ⟨hc, hs⟩ := List.ne_and_not_mem_of_not_mem_cons h
    rw [List.cons_append, pieces_cons_of_ne (Ne.symm hc), ih hs]
    rfl

theorem Piece.any_forbidden_char (forbid : Option Bytes) (s : Bytes) :
    (s.map Piece.char).any (Piece.forbidden forbid) = false := by
  simp [List.any_eq_false, Piece.forbidden]

theorem Piece.flatMap_write_char (forbid reserved : Option Bytes) (s : Bytes) :
    (s.map Piece.char).flatMap (Piece.write forbid reserved) = s := by
  rw [List.flatMap_map]
  exact List.flatMap_singleton' s

theorem Piece.write_escape (forbid : Option Bytes) (a b : UInt8) :
    (Piece.escape a b).write forbid none = [x2c a b] := by
  simp [Piece.write, listed]

theorem unescapeUrl_eq_flatMap (forbid : Option Bytes) (s : Bytes) :
    unescapeUrl s = (pieces s).flatMap (Piece.write forbid none) := by
  induction s using pieces.induct with
  | case1 => rfl
  | case2 a b s h ih =>
    rw [unescapeUrl, pieces, if_pos h, if_pos h, ih, List.flatMap_cons, Piece.write_escape]
    rfl
  | case3 a b s h ih =>
    rw [unescapeUrl, pieces, if_neg h, if_neg h, ih]
    rfl
  | case4 c s hne ih =>
    rw [unescapeUrl, pieces_cons hne, ih, List.flatMap_cons]
    · split_ifs with hc
      · rw [hc]
        rfl
      · rfl
    · exact hne

/-- The status of `ap_unescape_url`: `OK`, `HTTP_BAD_REQUEST`, `HTTP_NOT_FOUND`. -/
inductive UnescapeStatus where
  | ok
  | badRequest
  | notFound
  deriving DecidableEq, Repr

/-- The status by the two flags. -/
def UnescapeStatus.ofFlags (badesc badpath : Bool) : UnescapeStatus :=
  if badesc then .badRequest else if badpath then .notFound else .ok

theorem UnescapeStatus.ofFlags_eq_badRequest {badesc badpath : Bool} :
    ofFlags badesc badpath = .badRequest ↔ badesc = true := by
  cases badesc <;> cases badpath <;> decide

namespace CBuffer

/-! ### `unescape_url` -/

/-- The variables of `unescape_url`. -/
structure Unescape extends Rewriter UInt8 where
  badesc : Bool := false
  badpath : Bool := false

/-- `apr_isxdigit(*(y + 1)) && apr_isxdigit(*(y + 2))`, where the second byte is only looked at
after a digit. -/
def hexFollows (s : Rewriter UInt8) : Option Bool := do
  if isXdigit (← s.peek 1) then return isXdigit (← s.peek 2) else return false

/-- The body of the loop of `unescape_url`. -/
def unescapeBody (forbid reserved : Option Bytes) (s : Unescape) : Option Unescape := do
  let c ← s.peek 0
  if c ≠ 37 then
    return { s with toRewriter := ← s.store c }
  else if !(← hexFollows s.toRewriter) then
    return { s with toRewriter := ← s.store 37, badesc := true }
  else
    let decoded := x2c (← s.peek 1) (← s.peek 2)
    if badByte forbid decoded then
      return { s with toRewriter := (← s.store decoded).skip 2, badpath := true }
    else if listed reserved decoded then
      let r ← (← s.copy).copy
      return { s with toRewriter := ← r.store (← r.peek 0) }
    else
      return { s with toRewriter := (← s.store decoded).skip 2 }

/-- The loop of `unescape_url`, which ends at the NUL byte; `none` when it has not ended after
`fuel` turns. -/
def unescapeLoop (forbid reserved : Option Bytes) : ℕ → Unescape → Option Unescape
  | 0, _ => none
  | fuel + 1, s => do
    if (← s.peek 0) = 0 then return s
    let s ← unescapeBody forbid reserved s
    unescapeLoop forbid reserved fuel { s with toRewriter := s.next }

/-- `unescape_url`, which begins at the first `%`. -/
def unescapeUrl (forbid reserved : Option Bytes) (url : Bytes) :
    Option (UnescapeStatus × Bytes) := do
  match ← strchr 37 url with
  | none => return (.ok, url)
  | some y =>
    let s ← unescapeLoop forbid reserved (url.length + 1) { buf := url, x := y, y := y }
    let r ← s.store 0
    return (.ofFlags s.badesc s.badpath, r.buf)

/-- `ap_unescape_url`, with `SLASHES` of a system where only `/` is one. -/
def apUnescapeUrl (url : Bytes) : Option (UnescapeStatus × Bytes) :=
  unescapeUrl (some [47]) none url

/-! ### What it computes -/

section Unescape

/-- The state that has written `out` and has `rest` to read. -/
def state (out gap rest : Bytes) (badesc badpath : Bool) : Unescape :=
  { toRewriter := .of out gap rest, badesc := badesc, badpath := badpath }

variable (forbid reserved : Option Bytes) (out gap : Bytes) (e p : Bool) (fuel : ℕ)

theorem hexFollows_of (a b : UInt8) (rest : Bytes) :
    hexFollows (.of out gap (37 :: a :: b :: rest)) = some (isXdigit a && isXdigit b) := by
  simp only [hexFollows, Rewriter.peek_of]
  cases h : isXdigit a <;> simp [h]

theorem loop_zero (rest : Bytes) :
    unescapeLoop forbid reserved (fuel + 1) (state out gap (0 :: rest) e p) =
      some (state out gap (0 :: rest) e p) := by
  simp [unescapeLoop, state, Rewriter.peek_of]

theorem loop_char {c : UInt8} (h0 : c ≠ 0) (hc : c ≠ 37) (rest : Bytes) :
    unescapeLoop forbid reserved (fuel + 1) (state out gap (c :: rest) e p) =
      unescapeLoop forbid reserved fuel (state (out ++ [c]) (gap ++ [c]).tail rest e p) := by
  obtain ⟨r, hr, hnext⟩ := Option.map_eq_some_iff.1 (Rewriter.store_of out gap rest c c)
  simp [unescapeLoop, unescapeBody, state, Rewriter.peek_of, h0, hc, hr, hnext]

/-- A `%` that no two digits follow is copied. -/
theorem loop_percent {rest : Bytes} (h : hexFollows (.of out gap (37 :: rest)) = some false) :
    unescapeLoop forbid reserved (fuel + 1) (state out gap (37 :: rest) e p) =
      unescapeLoop forbid reserved fuel (state (out ++ [37]) (gap ++ [37]).tail rest true p) := by
  obtain ⟨r, hr, hnext⟩ := Option.map_eq_some_iff.1 (Rewriter.store_of out gap rest 37 37)
  simp [unescapeLoop, unescapeBody, state, Rewriter.peek_of, h, hr, hnext]

theorem skip_store_of (a b d : UInt8) (rest : Bytes) :
    ∃ r, (Rewriter.of out gap (37 :: a :: b :: rest)).store d = some r ∧
      (r.skip 2).next = .of (out ++ [d]) ((gap ++ [37]).tail ++ [a, b]) rest := by
  obtain ⟨r, hr, hnext⟩ :=
    Option.map_eq_some_iff.1 (Rewriter.store_of out gap (a :: b :: rest) 37 d)
  refine ⟨r, hr, ?_⟩
  rw [Rewriter.next_skip, hnext]
  exact Rewriter.skip_of _ _ [a, b] rest

/-- An escape is decoded, or copied when its byte is reserved. -/
theorem loop_escape {a b : UInt8} (h : (isXdigit a && isXdigit b) = true) (rest : Bytes) :
    ∃ gap', unescapeLoop forbid reserved (fuel + 1) (state out gap (37 :: a :: b :: rest) e p) =
      unescapeLoop forbid reserved fuel
        (state (out ++ (Piece.escape a b).write forbid reserved) gap' rest e
          (p || (Piece.escape a b).forbidden forbid)) := by
  have hhex := hexFollows_of out gap a b rest
  rw [h] at hhex
  obtain ⟨r, hr, hnext⟩ := skip_store_of out gap a b (x2c a b) rest
  cases hbad : badByte forbid (x2c a b) with
  | true =>
    refine ⟨(gap ++ [37]).tail ++ [a, b], ?_⟩
    simp [unescapeLoop, unescapeBody, state, Rewriter.peek_of, hhex, hbad, hr, hnext, Piece.write,
      Piece.forbidden]
  | false =>
    cases hres : listed reserved (x2c a b) with
    | false =>
      refine ⟨(gap ++ [37]).tail ++ [a, b], ?_⟩
      simp [unescapeLoop, unescapeBody, state, Rewriter.peek_of, hhex, hbad, hres, hr, hnext,
        Piece.write, Piece.forbidden]
    | true =>
      -- the three bytes are copied one after the other
      have hcopy₁ := Rewriter.copy_of out gap (a :: b :: rest) 37
      generalize (gap ++ [37]).tail = gap₁ at hcopy₁
      have hcopy₂ := Rewriter.copy_of (out ++ [37]) gap₁ (b :: rest) a
      generalize (gap₁ ++ [a]).tail = gap₂ at hcopy₂
      obtain ⟨r', hr', hnext'⟩ := Option.map_eq_some_iff.1
        (Rewriter.store_of (out ++ [37, a]) gap₂ rest b b)
      refine ⟨(gap₂ ++ [b]).tail, ?_⟩
      simp [unescapeLoop, unescapeBody, state, Rewriter.peek_of, hhex, hbad, hres, Piece.write,
        Piece.forbidden, hcopy₁, hcopy₂, hr', hnext']

/-- At the end of the text the NUL byte is no digit. -/
theorem hexFollows_eq_false {t : Bytes}
    (h : ∀ a b s, t = a :: b :: s → (isXdigit a && isXdigit b) = false) (tail : Bytes) :
    hexFollows (.of out gap (37 :: (t ++ 0 :: tail))) = some false := by
  have hzero : isXdigit 0 = false := by decide
  match t with
  | [] => simp [hexFollows, Rewriter.peek_of, hzero]
  | [a] =>
    simp only [hexFollows, Rewriter.peek_of]
    cases isXdigit a <;> simp [hzero]
  | a :: b :: s =>
    rw [List.cons_append, List.cons_append, hexFollows_of, h a b s rfl]

/-- **The loop of `unescape_url`** reads the text piece by piece up to its NUL byte. -/
theorem loop_eq {t : Bytes} (ht : 0 ∉ t) (tail : Bytes) {fuel : ℕ} (hfuel : t.length < fuel) :
    ∃ gap', unescapeLoop forbid reserved fuel (state out gap (t ++ 0 :: tail) e p) =
      some (state (out ++ (pieces t).flatMap (Piece.write forbid reserved)) gap' (0 :: tail)
        (e || (pieces t).contains .percent) (p || (pieces t).any (Piece.forbidden forbid))) := by
  induction t using pieces.induct generalizing out gap e p fuel with
  | case1 =>
    obtain ⟨fuel, rfl⟩ := Nat.exists_eq_succ_of_ne_zero (Nat.ne_zero_of_lt hfuel)
    exact ⟨gap, by simp [loop_zero, pieces]⟩
  | case2 a b s h ih =>
    obtain ⟨fuel, rfl⟩ := Nat.exists_eq_succ_of_ne_zero (Nat.ne_zero_of_lt hfuel)
    obtain ⟨gap₁, h₁⟩ := loop_escape forbid reserved out gap e p fuel h (s ++ 0 :: tail)
    obtain ⟨gap₂, h₂⟩ := ih (out ++ (Piece.escape a b).write forbid reserved) gap₁ e
      (p || (Piece.escape a b).forbidden forbid) (by simp_all)
      (show s.length < fuel by simp at hfuel; omega)
    refine ⟨gap₂, h₁.trans (h₂.trans ?_)⟩
    rw [pieces, if_pos h]
    simp [Bool.or_assoc]
  | case3 a b s h ih =>
    obtain ⟨fuel, rfl⟩ := Nat.exists_eq_succ_of_ne_zero (Nat.ne_zero_of_lt hfuel)
    have hhex : hexFollows (.of out gap (37 :: (a :: b :: s ++ 0 :: tail))) = some false := by
      refine hexFollows_eq_false out gap (fun a' b' s' heq => ?_) tail
      cases heq
      exact Bool.eq_false_iff.2 h
    obtain ⟨gap₂, h₂⟩ := ih (out ++ [37]) (gap ++ [37]).tail true p (by simp_all)
      (show (a :: b :: s).length < fuel by simpa using hfuel)
    refine ⟨gap₂, (loop_percent forbid reserved out gap e p fuel hhex).trans (h₂.trans ?_)⟩
    rw [pieces, if_neg h]
    simp [Piece.write, Piece.forbidden]
  | case4 c s hne ih =>
    obtain ⟨fuel, rfl⟩ := Nat.exists_eq_succ_of_ne_zero (Nat.ne_zero_of_lt hfuel)
    obtain ⟨hc0, hs⟩ := List.ne_and_not_mem_of_not_mem_cons ht
    have hlen : s.length < fuel := by simpa using hfuel
    rw [pieces_cons hne]
    by_cases hc : c = 37
    · subst hc
      have hhex : hexFollows (.of out gap (37 :: (s ++ 0 :: tail))) = some false :=
        hexFollows_eq_false out gap (fun a b s' heq => (hne a b s' rfl heq).elim) tail
      obtain ⟨gap₂, h₂⟩ := ih (out ++ [37]) (gap ++ [37]).tail true p hs hlen
      refine ⟨gap₂, (loop_percent forbid reserved out gap e p fuel hhex).trans (h₂.trans ?_)⟩
      simp [Piece.write, Piece.forbidden]
    · obtain ⟨gap₂, h₂⟩ := ih (out ++ [c]) (gap ++ [c]).tail e p hs hlen
      have h₁ := loop_char forbid reserved out gap e p fuel (Ne.symm hc0) hc (s ++ 0 :: tail)
      refine ⟨gap₂, h₁.trans (h₂.trans ?_)⟩
      simp [hc, Piece.write, Piece.forbidden]

theorem start_eq (pre rest : Bytes) :
    ({ buf := pre ++ rest, x := pre.length, y := pre.length } : Unescape) =
      state pre [] rest false false := by
  simp [state, Rewriter.of]

/-- **What `unescape_url` does to a C string**: it stays inside of the buffer, and leaves and
returns what the pieces of the text say. -/
theorem unescapeUrl_append (forbid reserved : Option Bytes) {t : Bytes} (ht : 0 ∉ t)
    (tail : Bytes) :
    ∃ buf, unescapeUrl forbid reserved (t ++ 0 :: tail) =
        some (.ofFlags ((pieces t).contains .percent) ((pieces t).any (Piece.forbidden forbid)),
          buf) ∧
      stringOf buf = some (cstr ((pieces t).flatMap (Piece.write forbid reserved))) := by
  by_cases h : 37 ∈ t
  · obtain ⟨pre, post, rfl, hpre⟩ := List.eq_append_cons_of_mem h
    have hpre0 : 0 ∉ pre := fun h0 => ht (List.mem_append_left _ h0)
    have hpost0 : 0 ∉ 37 :: post := fun h0 => ht (List.mem_append_right _ h0)
    obtain ⟨gap, hloop⟩ := loop_eq forbid reserved pre [] false false hpost0 tail
      (show (37 :: post).length < (pre ++ (37 :: post ++ 0 :: tail)).length + 1 by simp; omega)
    set out := pre ++ (pieces (37 :: post)).flatMap (Piece.write forbid reserved) with hout
    obtain ⟨r, hr, hbuf⟩ := Rewriter.exists_store_of out gap tail 0 0
    refine ⟨r.buf, ?_, ?_⟩
    · have hchr := strchr_append_cons hpre0 hpre (post ++ 0 :: tail)
      have hstore : (state out gap (0 :: tail) ((pieces (37 :: post)).contains .percent)
          ((pieces (37 :: post)).any (Piece.forbidden forbid))).store 0 = some r := hr
      rw [List.append_assoc, unescapeUrl, List.cons_append, hchr]
      simp only [Option.bind_eq_bind, Option.bind_some]
      rw [← List.cons_append, start_eq, hloop]
      simp only [Option.bind_some, Bool.false_or, hstore]
      rw [pieces_append hpre, List.any_append, Piece.any_forbidden_char, Bool.false_or]
      simp [state]
    · rw [hbuf, stringOf_append, pieces_append hpre, hout, List.flatMap_append,
        Piece.flatMap_write_char]
  · have hpieces : pieces t = t.map .char := by simpa [pieces] using pieces_append h []
    refine ⟨t ++ 0 :: tail, ?_, ?_⟩
    · rw [unescapeUrl, strchr_append_of_not_mem (by decide) ht h, hpieces,
        Piece.any_forbidden_char]
      simp [UnescapeStatus.ofFlags]
    · rw [stringOf_append, hpieces, Piece.flatMap_write_char]

/-- A reserved byte stays escaped; behind the end stands what was read and not overwritten. -/
example : unescapeUrl none (some [47]) (str "%2f%41%z" ++ [0]) =
    some (.badRequest, str "%2fA%z" ++ [0] ++ str "z" ++ [0]) := by
  decide

end Unescape

/-! ### `ap_escape_path_segment` -/

/-- What the allocator gives: a buffer of the length asked for, with anything in it. -/
structure Memory where
  fresh : ℕ → Bytes
  length_fresh : ∀ n, (fresh n).length = n

/-- `c2x`. -/
def c2x (what pre : UInt8) (d : Writer UInt8) : Option (Writer UInt8) := do
  let d ← d.put pre
  let d ← d.put (c2xTable.getD (what.toNat / 16) 0)
  d.put (c2xTable.getD (what.toNat % 16) 0)

/-- The body of the loop of `ap_escape_path_segment`. -/
def putEscaped (c : UInt8) (d : Writer UInt8) : Option (Writer UInt8) :=
  if escapesPathSegment c then c2x c 37 d else d.put c

/-- The loop of `ap_escape_path_segment`. -/
def escapeLoop : Bytes → Writer UInt8 → Option (Writer UInt8)
  | [], _ => none
  | c :: s, d => if c = 0 then some d else (putEscaped c d).bind (escapeLoop s)

/-- `ap_escape_path_segment`. -/
def apEscapePathSegment (mem : Memory) (segment : Bytes) : Option Bytes := do
  let copy := mem.fresh (3 * (← strlen segment) + 1)
  let d ← escapeLoop segment ⟨copy, 0⟩
  let d ← d.put 0
  return d.buf

theorem c2x_eq_putAll (c : UInt8) (d : Writer UInt8) : c2x c 37 d = d.putAll (ModDup.c2x c) := by
  simp [c2x, ModDup.c2x, Writer.putAll]

theorem putEscaped_eq_putAll (c : UInt8) (d : Writer UInt8) :
    putEscaped c d = d.putAll (escapeByte c) := by
  rw [putEscaped, escapeByte]
  split_ifs
  · exact c2x_eq_putAll c d
  · simp [Writer.putAll]

theorem length_escapeByte_le (c : UInt8) : (escapeByte c).length ≤ 3 := by
  rw [escapeByte]
  split_ifs <;> simp [ModDup.c2x]

/-- Three bytes for each are enough. -/
theorem length_flatMap_escapeByte_le (s : Bytes) :
    (s.flatMap escapeByte).length ≤ 3 * s.length := by
  induction s with
  | nil => simp
  | cons c s ih =>
    have := length_escapeByte_le c
    rw [List.flatMap_cons, List.length_append, List.length_cons]
    omega

theorem escapeLoop_eq (out room : Bytes) {t : Bytes} (ht : 0 ∉ t) (tail : Bytes)
    (hroom : (t.flatMap escapeByte).length ≤ room.length) :
    escapeLoop (t ++ 0 :: tail) (.of out room) =
      some (.of (out ++ t.flatMap escapeByte) (room.drop (t.flatMap escapeByte).length)) := by
  induction t generalizing out room with
  | nil => simp [escapeLoop]
  | cons c t ih =>
    obtain ⟨hc, ht⟩ := List.ne_and_not_mem_of_not_mem_cons ht
    rw [List.flatMap_cons, List.length_append] at hroom ⊢
    have hput : (Writer.of out room).putAll (escapeByte c) = _ := Writer.putAll_of out (by omega)
    have hrest := ih (out ++ escapeByte c) (room.drop (escapeByte c).length) ht
      (by rw [List.length_drop]; omega)
    rw [List.cons_append, escapeLoop, if_neg (Ne.symm hc), putEscaped_eq_putAll, hput,
      Option.bind_some, hrest, List.append_assoc, List.drop_drop]

/-- **`ap_escape_path_segment`** stays inside of the buffer it has made. -/
theorem apEscapePathSegment_append (mem : Memory) {t : Bytes} (ht : 0 ∉ t) (tail : Bytes) :
    ∃ buf, apEscapePathSegment mem (t ++ 0 :: tail) = some buf ∧
      stringOf buf = some (cstr (t.flatMap escapeByte)) := by
  set copy := mem.fresh (3 * t.length + 1) with hcopy
  have hlen : copy.length = 3 * t.length + 1 := mem.length_fresh _
  have hle := length_flatMap_escapeByte_le t
  have hloop := escapeLoop_eq [] copy ht tail (by omega)
  -- one byte is left for the end of the string
  obtain ⟨r, room, hroom⟩ : ∃ r room, copy.drop (t.flatMap escapeByte).length = r :: room :=
    List.exists_cons_of_length_pos (by rw [List.length_drop]; omega)
  rw [hroom, List.nil_append] at hloop
  refine ⟨t.flatMap escapeByte ++ 0 :: room, ?_, stringOf_append _ _⟩
  have hstart : (⟨copy, 0⟩ : Writer UInt8) = .of [] copy := rfl
  rw [apEscapePathSegment, strlen_append ht]
  simp only [Option.bind_eq_bind, Option.bind_some, ← hcopy, hstart, hloop, Writer.put_of]
  simp [Writer.of]

/-! ### The codecs -/

/-- What both codecs do with a text: a copy of its C string is unescaped.  The flag says that
the text is reported as badly escaped. -/
def decodeText (mem : Memory) (text : Bytes) : Option (Bool × Bytes) := do
  let lBuffer ← strncpy (mem.fresh (text.length + 1)) (text ++ [0]) (text.length + 1)
  let (status, lBuffer) ← apUnescapeUrl lBuffer
  return (status = .badRequest, ← stringOf lBuffer)

/-- `IUrlCodec::decode`. -/
def decode (mem : Memory) : UrlCodec → Bytes → Option (Bool × Bytes)
  | .apache, pIn => decodeText mem pIn
  | .default, pIn => decodeText mem (plusToSpace pIn)

/-- `IUrlCodec::encode`. -/
def encode (mem : Memory) : UrlCodec → Bytes → Option Bytes
  | .apache, pIn => do stringOf (← apEscapePathSegment mem (pIn ++ [0]))
  | .default, pIn => do return plusToHex (← stringOf (← apEscapePathSegment mem (pIn ++ [0])))

theorem decodeText_eq (mem : Memory) (text : Bytes) :
    decodeText mem text =
      some ((pieces (cstr text)).contains .percent, ModDup.apUnescapeUrl text) := by
  obtain ⟨tail, hcopy⟩ := strncpy_c_str text (mem.length_fresh (text.length + 1))
  obtain ⟨buf, hun, hbuf⟩ := unescapeUrl_append (some [47]) none (zero_not_mem_cstr text) tail
  rw [← unescapeUrl_eq_flatMap] at hbuf
  rw [decodeText, hcopy]
  simp only [Option.bind_eq_bind, Option.bind_some, apUnescapeUrl, hun, hbuf,
    UnescapeStatus.ofFlags_eq_badRequest]
  simp [ModDup.apUnescapeUrl]

/-- **Decoding as it runs** is `decode`, and reports a `%` that is no escape. -/
theorem decode_eq (mem : Memory) (u : UrlCodec) (s : Bytes) :
    decode mem u s =
      some ((pieces (cstr (s.map u.preDecode))).contains .percent, u.decode s) := by
  rw [UrlCodec.decode_eq]
  cases u with
  | apache =>
    have hid : s.map (preDecode .apache) = s := List.map_id s
    rw [hid]
    exact decodeText_eq mem s
  | default => exact decodeText_eq mem (plusToSpace s)

theorem stringOf_apEscapePathSegment (mem : Memory) (s : Bytes) :
    (apEscapePathSegment mem (s ++ [0])).bind stringOf = some (ModDup.apEscapePathSegment s) := by
  obtain ⟨tail, hs⟩ := exists_cstr_append s
  obtain ⟨buf, hesc, hbuf⟩ := apEscapePathSegment_append mem (zero_not_mem_cstr s) tail
  have hnul : NulFree ((cstr s).flatMap escapeByte) := by
    intro d hd
    obtain ⟨c, hc, hdc⟩ := List.mem_flatMap.1 hd
    exact encodeByte_ne_zero .apache (fun h0 => zero_not_mem_cstr s (h0 ▸ hc)) hdc
  rw [hs, hesc, Option.bind_some, hbuf, cstr_eq_self hnul]
  rfl

/-- **Encoding as it runs** is `encode`. -/
theorem encode_eq (mem : Memory) (u : UrlCodec) (s : Bytes) :
    encode mem u s = some (u.encode s) := by
  have h := stringOf_apEscapePathSegment mem s
  cases u with
  | apache => exact h
  | default =>
    obtain ⟨buf, hbuf, hstring⟩ := Option.bind_eq_some_iff.1 h
    simp only [encode, hbuf, hstring, Option.bind_eq_bind, Option.bind_some]
    rfl

/-! ### The round trip -/

theorem pieces_encodeByte (u : UrlCodec) (c : UInt8) (s : Bytes) :
    ∃ p : Piece, pieces ((u.encodeByte c).map u.preDecode ++ s) = p :: pieces s ∧ p ≠ .percent ∧
      (c ≠ 0 → p.forbidden (some [47]) = (47 == c)) := by
  rcases encodeByte_cases u c with ⟨h, hne, hp⟩ | ⟨a, b, h, ha, hb, hx⟩
  · refine ⟨.char c, ?_, by simp, fun _ => ?_⟩
    · rw [h, List.map_singleton, hp, List.singleton_append, pieces_cons_of_ne hne]
    · -- a slash is always escaped
      have hslash : c ≠ 47 := by
        rintro rfl
        cases u <;> exact absurd h (by decide)
      change false = (47 == c)
      rw [eq_comm, beq_eq_false_iff_ne]
      exact hslash.symm
  · refine ⟨.escape a b, ?_, by simp, fun h0 => ?_⟩
    · simp [h, preDecode_percent, preDecode_xdigit u a ha, preDecode_xdigit u b hb, pieces, ha, hb]
    · rw [Bool.eq_iff_iff, beq_iff_eq, eq_comm (b := c)]
      simp [Piece.forbidden, badByte, listed, hx, h0]

theorem pieces_encode (u : UrlCodec) {v : Bytes} (hv : NulFree v) :
    Piece.percent ∉ pieces ((u.encode v).map u.preDecode) ∧
      (pieces ((u.encode v).map u.preDecode)).any (Piece.forbidden (some [47])) =
        v.contains 47 := by
  rw [encode_eq_flatMap u hv]
  induction v with
  | nil => simp [pieces]
  | cons c v ih =>
    obtain ⟨p, hpieces, hpercent, hslash⟩ :=
      pieces_encodeByte u c ((v.flatMap u.encodeByte).map u.preDecode)
    obtain ⟨hnot, hany⟩ := ih fun d hd => hv d (List.mem_cons_of_mem _ hd)
    rw [List.flatMap_cons, List.map_append, hpieces, List.any_cons, hany,
      hslash (hv c List.mem_cons_self)]
    refine ⟨?_, List.contains_cons.symm⟩
    simp [hnot, hpercent.symm]

/-- The status for an encoded text, which the codecs do not look at unless it is
`HTTP_BAD_REQUEST`: a slash is decoded and answered with `HTTP_NOT_FOUND`. -/
theorem status_encode (u : UrlCodec) {v : Bytes} (hv : NulFree v) (tail : Bytes) :
    (apUnescapeUrl ((u.encode v).map u.preDecode ++ 0 :: tail)).map Prod.fst =
      some (if v.contains 47 then .notFound else .ok) := by
  have hnul : 0 ∉ (u.encode v).map u.preDecode := fun h0 => nulFree_map_encode u hv 0 h0 rfl
  obtain ⟨buf, hun, -⟩ := unescapeUrl_append (some [47]) none hnul tail
  obtain ⟨hpercent, hslash⟩ := pieces_encode u hv
  rw [apUnescapeUrl, hun, hslash]
  simp [UnescapeStatus.ofFlags, hpercent]

/-- **What was encoded is decoded again**, without a report, for both codecs and every text
without a NUL byte. -/
theorem url_codec_round_trip (mem mem' : Memory) (u : UrlCodec) {v : Bytes} (hv : NulFree v) :
    ∃ e, encode mem u v = some e ∧ decode mem' u e = some (false, v) := by
  refine ⟨u.encode v, encode_eq mem u v, ?_⟩
  have hpercent := (pieces_encode u hv).1
  rw [decode_eq, cstr_eq_self (nulFree_map_encode u hv), decode_encode_of_nulFree u hv]
  simp [hpercent]

/-- A memory that is filled with NUL bytes. -/
def zeroMemory : Memory := ⟨fun n => List.replicate n 0, fun _ => List.length_replicate⟩

/-- A percent sign, a plus sign, a slash, a space, an escape and a byte above 127. -/
theorem url_codec_round_trip_mixed :
    ∃ e, encode zeroMemory .default (str "100%+/ %2b" ++ [233]) = some e ∧
      decode zeroMemory .default e = some (false, str "100%+/ %2b" ++ [233]) :=
  url_codec_round_trip zeroMemory zeroMemory .default (by decide +kernel)

end CBuffer

end ModDup
