import Mathlib.Data.List.TakeWhile
import ModDup.Lib.Bytes

/-!
# The URL codecs

The value of a query-string parameter is decoded when the request is parsed and encoded again
when a substitution rewrites it (`src/UrlCodec.cc`).  Both codecs are built on two Apache
functions, modelled here after the copy in `testing/unit/ApacheCopyPaste.cc`; they work on C
strings, so a NUL byte ends the text.  `ModDup.UrlBuffers` has them as they run in memory.

## Main results

* `UrlCodec.decode_encode_of_nulFree` : decoding undoes encoding on texts without NUL.
* `UrlCodec.encode_eq_flatMap` : such a text is encoded byte by byte.
-/

namespace ModDup

open Bytes

/-- `test_char_table`: what each byte needs in the different escaping functions. -/
def testCharTable : List ℕ := [
  32,62,62,62,62,62,62,62,62,62,63,62,62,62,62,62,62,62,62,62,
  62,62,62,62,62,62,62,62,62,62,62,62,14,0,31,6,1,38,1,1,
  9,9,1,0,8,0,0,10,0,0,0,0,0,0,0,0,0,0,40,15,
  15,8,15,15,8,0,0,0,0,0,0,0,0,0,0,0,0,0,0,0,
  0,0,0,0,0,0,0,0,0,0,0,15,31,15,7,0,7,0,0,0,
  0,0,0,0,0,0,0,0,0,0,0,0,0,0,0,0,0,0,0,0,
  0,0,0,15,39,15,1,62,54,54,54,54,54,54,54,54,54,54,54,54,
  54,54,54,54,54,54,54,54,54,54,54,54,54,54,54,54,54,54,54,54,
  54,54,54,54,54,54,54,54,54,54,54,54,54,54,54,54,54,54,54,54,
  54,54,54,54,54,54,54,54,54,54,54,54,54,54,54,54,54,54,54,54,
  54,54,54,54,54,54,54,54,54,54,54,54,54,54,54,54,54,54,54,54,
  54,54,54,54,54,54,54,54,54,54,54,54,54,54,54,54,54,54,54,54,
  54,54,54,54,54,54,54,54,54,54,54,54,54,54,54,54]

/-- `TEST_CHAR(c, T_ESCAPE_PATH_SEGMENT)`. -/
def escapesPathSegment (c : UInt8) : Bool := (testCharTable.getD c.toNat 0) &&& 2 != 0

/-- `c2x_table`, the hexadecimal digits. -/
def c2xTable : Bytes := [48, 49, 50, 51, 52, 53, 54, 55, 56, 57, 97, 98, 99, 100, 101, 102]

/-- `c2x` with the prefix `%`. -/
def c2x (what : UInt8) : Bytes :=
  [37, c2xTable.getD (what.toNat / 16) 0, c2xTable.getD (what.toNat % 16) 0]

/-- `apr_isxdigit`. -/
def isXdigit (c : UInt8) : Bool :=
  (48 ≤ c && c ≤ 57) || (65 ≤ c && c ≤ 70) || (97 ≤ c && c ≤ 102)

/-- The value `x2c` gives to one hexadecimal digit. -/
def xdigitVal (c : UInt8) : UInt8 := if 65 ≤ c then (c &&& 0xdf) - 65 + 10 else c - 48

/-- `x2c`. -/
def x2c (a b : UInt8) : UInt8 := xdigitVal a * 16 + xdigitVal b

/-- The loop of `unescape_url`, which writes over the text it reads.  A `%` that two
hexadecimal digits do not follow is kept; a forbidden or NUL byte is decoded like the others
and only changes the status, which the codecs do not use. -/
def unescapeUrl : Bytes → Bytes
  | [] => []
  | 37 :: a :: b :: s =>
    if isXdigit a && isXdigit b then x2c a b :: unescapeUrl s else 37 :: unescapeUrl (a :: b :: s)
  | c :: s => c :: unescapeUrl s

/-- `ap_unescape_url`, on the C string of its argument. -/
def apUnescapeUrl (s : Bytes) : Bytes := cstr (unescapeUrl (cstr s))

/-- What `ap_escape_path_segment` writes for one byte. -/
def escapeByte (c : UInt8) : Bytes := if escapesPathSegment c then c2x c else [c]

/-- `ap_escape_path_segment`. -/
def apEscapePathSegment (s : Bytes) : Bytes := (cstr s).flatMap escapeByte

/-- The two codecs of `getUrlCodec`. -/
inductive UrlCodec where
  | apache
  | default
  deriving DecidableEq, Repr

namespace UrlCodec

/-- `replace_all_copy(s, "+", " ")`. -/
def plusToSpace (s : Bytes) : Bytes := s.map fun c => if c = 43 then 32 else c

/-- `replace_all_copy(s, "+", "%2b")`. -/
def plusToHex (s : Bytes) : Bytes := s.flatMap fun c => if c = 43 then [37, 50, 98] else [c]

/-- `IUrlCodec::decode`. -/
def decode : UrlCodec → Bytes → Bytes
  | .apache, s => apUnescapeUrl s
  | .default, s => apUnescapeUrl (plusToSpace s)

/-- `IUrlCodec::encode`. -/
def encode : UrlCodec → Bytes → Bytes
  | .apache, s => apEscapePathSegment s
  | .default, s => plusToHex (apEscapePathSegment s)

/-- `getUrlCodec`. -/
def getUrlCodec (pUrlCodec : Bytes) : UrlCodec :=
  if pUrlCodec = str "apache" then .apache else .default

/-! ### Encoding byte by byte -/

/-- No NUL byte in the text. -/
def NulFree (s : Bytes) : Prop := ∀ c ∈ s, c ≠ 0

instance (s : Bytes) : Decidable (NulFree s) := inferInstanceAs (Decidable (∀ c ∈ s, c ≠ 0))

theorem cstr_eq_self {s : Bytes} (h : NulFree s) : cstr s = s :=
  List.takeWhile_eq_self_iff.2 fun c hc => by simpa using h c hc

/-- What a codec writes for one byte. -/
def encodeByte : UrlCodec → UInt8 → Bytes
  | .apache, c => escapeByte c
  | .default, c => plusToHex (escapeByte c)

theorem encode_eq_flatMap (u : UrlCodec) {s : Bytes} (h : NulFree s) :
    u.encode s = s.flatMap u.encodeByte := by
  cases u with
  | apache => simp only [encode, apEscapePathSegment, cstr_eq_self h]; rfl
  | default =>
    simp only [encode, apEscapePathSegment, cstr_eq_self h, plusToHex, List.flatMap_assoc]
    rfl

/-- The text a codec hands to `ap_unescape_url`. -/
def preDecode : UrlCodec → UInt8 → UInt8
  | .apache, c => c
  | .default, c => if c = 43 then 32 else c

theorem decode_eq (u : UrlCodec) (s : Bytes) : u.decode s = apUnescapeUrl (s.map u.preDecode) := by
  cases u with
  | apache => exact congrArg apUnescapeUrl (List.map_id s).symm
  | default => rfl

theorem unescapeUrl_cons_ne {c : UInt8} (h : c ≠ 37) (s : Bytes) :
    unescapeUrl (c :: s) = c :: unescapeUrl s := by
  rw [unescapeUrl]
  exact fun _ _ _ hc => absurd hc h

theorem c2x_spec (c : UInt8) :
    ∃ a b, c2x c = [37, a, b] ∧ isXdigit a ∧ isXdigit b ∧ x2c a b = c := by
  have key : isXdigit (c2xTable.getD (c.toNat / 16) 0) ∧ isXdigit (c2xTable.getD (c.toNat % 16) 0) ∧
      x2c (c2xTable.getD (c.toNat / 16) 0) (c2xTable.getD (c.toNat % 16) 0) = c := by
    revert c
    exact forall_byte (by decide +kernel)
  exact ⟨_, _, rfl, key⟩

theorem plusToHex_c2x (c : UInt8) : plusToHex (c2x c) = c2x c := by
  revert c
  exact forall_byte (by decide +kernel)

/-- A byte is written as itself, when decoding leaves it alone, or as an escape that decodes
to it. -/
theorem encodeByte_cases (u : UrlCodec) (c : UInt8) :
    (u.encodeByte c = [c] ∧ c ≠ 37 ∧ u.preDecode c = c) ∨
      ∃ a b, u.encodeByte c = [37, a, b] ∧ isXdigit a ∧ isXdigit b ∧ x2c a b = c := by
  have hpct : escapesPathSegment 37 = true := by decide
  cases hesc : escapesPathSegment c with
  | true =>
    refine .inr ?_
    obtain ⟨a, b, hab⟩ := c2x_spec c
    refine ⟨a, b, ?_, hab.2⟩
    rw [← hab.1]
    cases u with
    | apache => simp [encodeByte, escapeByte, hesc]
    | default => simp [encodeByte, escapeByte, hesc, plusToHex_c2x]
  | false =>
    have hne : c ≠ 37 := by rintro rfl; rw [hpct] at hesc; cases hesc
    cases u with
    | apache => exact .inl ⟨by simp [encodeByte, escapeByte, hesc], hne, rfl⟩
    | default =>
      -- the plus sign is the one byte the default codec escapes by itself
      by_cases h43 : c = 43
      · subst h43
        exact .inr ⟨50, 98, by decide, rfl, rfl, rfl⟩
      · refine .inl ⟨by simp [encodeByte, escapeByte, hesc, plusToHex, h43], hne, ?_⟩
        simp [preDecode, h43]

theorem preDecode_xdigit (u : UrlCodec) (c : UInt8) (hc : isXdigit c) : u.preDecode c = c := by
  revert c
  cases u <;> exact forall_byte (by decide +kernel)

theorem preDecode_percent (u : UrlCodec) : u.preDecode 37 = 37 := by cases u <;> rfl

/-- Decoding reads one encoded byte at a time. -/
theorem unescapeUrl_encodeByte (u : UrlCodec) (c : UInt8) (s : Bytes) :
    unescapeUrl ((u.encodeByte c).map u.preDecode ++ s) = c :: unescapeUrl s := by
  rcases encodeByte_cases u c with ⟨h, hne, hp⟩ | ⟨a, b, h, ha, hb, hx⟩
  · rw [h, List.map_singleton, hp, List.singleton_append, unescapeUrl_cons_ne hne]
  · simp only [h, List.map_cons, List.map_nil, preDecode_percent, preDecode_xdigit u a ha,
      preDecode_xdigit u b hb, List.cons_append, List.nil_append, unescapeUrl, ha, hb,
      Bool.and_self, ↓reduceIte, hx]

theorem encodeByte_ne_zero (u : UrlCodec) {c d : UInt8} (hc : c ≠ 0) (hd : d ∈ u.encodeByte c) :
    u.preDecode d ≠ 0 := by
  rcases encodeByte_cases u c with ⟨h, -, hp⟩ | ⟨a, b, h, ha, hb, -⟩
  · rw [h, List.mem_singleton] at hd
    rw [hd, hp]; exact hc
  · have hx : ∀ x, isXdigit x → x ≠ 0 := by rintro x hx rfl; exact absurd hx (by decide)
    simp only [h, List.mem_cons, List.not_mem_nil, or_false] at hd
    rcases hd with rfl | rfl | rfl
    · rw [preDecode_percent]; decide
    · rw [preDecode_xdigit u _ ha]; exact hx _ ha
    · rw [preDecode_xdigit u _ hb]; exact hx _ hb

/-- What `ap_unescape_url` gets of an encoded text has no NUL byte either. -/
theorem nulFree_map_encode (u : UrlCodec) {s : Bytes} (h : NulFree s) :
    NulFree ((u.encode s).map u.preDecode) := by
  rw [encode_eq_flatMap u h]
  intro d hd
  obtain ⟨e, he, rfl⟩ := List.mem_map.1 hd
  obtain ⟨c, hc, hec⟩ := List.mem_flatMap.1 he
  exact encodeByte_ne_zero u (h c hc) hec

/-- **Decoding undoes encoding** on every text without a NUL byte, for both codecs. -/
theorem decode_encode_of_nulFree (u : UrlCodec) {s : Bytes} (h : NulFree s) :
    u.decode (u.encode s) = s := by
  have hun : unescapeUrl ((s.flatMap u.encodeByte).map u.preDecode) = s := by
    induction s with
    | nil => rfl
    | cons c s ih =>
      have hs : NulFree s := fun d hd => h d (List.mem_cons_of_mem _ hd)
      rw [List.flatMap_cons, List.map_append, unescapeUrl_encodeByte, ih hs]
  rw [decode_eq, apUnescapeUrl, cstr_eq_self (nulFree_map_encode u h), encode_eq_flatMap u h, hun,
    cstr_eq_self h]

end UrlCodec

end ModDup
