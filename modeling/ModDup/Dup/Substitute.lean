import ModDup.Dup.Filter

/-!
# Substitutions

Before a request is sent to a destination, the substitutions declared there rewrite its path,
query string, input headers and body (`src/RequestProcessor.cc`).  A substitution on the
value of a parameter rewrites the whole query string: every parameter is encoded again.

## Main definitions

* `keySubstitute`, `headerSubstitute`, `substituteRequest`.
* `substituted` : the value a parameter should have afterwards.

## Main results

* `parseArgs_join` : parsing the rewritten query string, when no value holds an `&`.
* `keySubstitute_preserves_iff` : when the rewritten query string means what it should.
-/

namespace ModDup

open Bytes UrlCodec

/-- The loop of `keySubstitute` and `headerSubstitute` over the substitutions declared on the
key of a pair: the new value, and whether one was in scope. -/
def substituteVal (pSubs : FieldSubstitutionMap) (scope : ApplicationScope) (lKeyVal : KeyVal) :
    Bytes × Bool :=
  match pSubs.get? lKeyVal.1 with
  | none => (lKeyVal.2, false)
  | some substs =>
    substs.foldl (fun (lVal, did) lSubst =>
      if scope.has lSubst.mScope then (lSubst.mRegex.replace lVal lSubst.mReplacement, true)
      else (lVal, did)) (lKeyVal.2, false)

/-- The text of one parameter of the new query string. -/
def newArg (u : UrlCodec) (kv : KeyVal) : Bytes :=
  if kv.2 = [] then kv.1 else kv.1 ++ 61 :: u.encode kv.2

/-- `RequestProcessor::keySubstitute`: whether something was substituted, and the new
`result`. -/
def keySubstitute (u : UrlCodec) (pSubs : FieldSubstitutionMap) (pParsedArgs : KeyValList)
    (scope : ApplicationScope) (result : Bytes) : Bool × Bytes :=
  -- all pairs are written again, also those without substitution
  let lNewArgs := pParsedArgs.map fun kv => newArg u (kv.1, (substituteVal pSubs scope kv).1)
  let lDidSubstitute := pParsedArgs.any fun kv => (substituteVal pSubs scope kv).2
  (lDidSubstitute, if lDidSubstitute then [38].intercalate lNewArgs else result)

/-- `RequestProcessor::headerSubstitute`: whether something was substituted, and the new
headers. -/
def headerSubstitute (pSubs : FieldSubstitutionMap) (pHeadersIn : KeyValList) :
    Bool × KeyValList :=
  (pHeadersIn.any fun kv => (substituteVal pSubs .headers kv).2,
    pHeadersIn.map fun kv => (kv.1, (substituteVal pSubs .headers kv).1))

/-- A key substitution looks at `scope`. -/
def keySubOn (pSubs : FieldSubstitutionMap) (scope : ApplicationScope) : Bool :=
  pSubs.entries.any fun f => f.2.any fun s => s.mScope.has scope

/-- One raw substitution.  The path is rewritten as soon as the scope holds one of the two
parts of the URL. -/
def rawSubstitute (pRequest : RequestInfo) (s : TSubstitute) : RequestInfo :=
  { pRequest with
    mPath := if s.mScope.has .url then s.mRegex.replace pRequest.mPath s.mReplacement
      else pRequest.mPath
    mBody := if s.mScope.has .body then s.mRegex.replace pRequest.mBody s.mReplacement
      else pRequest.mBody
    mArgs := if s.mScope.has .queryString then s.mRegex.replace pRequest.mArgs s.mReplacement
      else pRequest.mArgs }

/-- The first half of `substituteRequest`, the key substitutions: query string, headers, body. -/
def keySubstituteRequest (u : UrlCodec) (pRequest : RequestInfo) (pSubs : FieldSubstitutionMap) :
    Bool × RequestInfo :=
  let args := if keySubOn pSubs .queryString then
    keySubstitute u pSubs pRequest.mParsedArgs .queryString pRequest.mArgs
    else (false, pRequest.mArgs)
  let headers := if keySubOn pSubs .headers then headerSubstitute pSubs pRequest.mHeadersIn
    else (false, pRequest.mHeadersIn)
  let body := if keySubOn pSubs .body then
    keySubstitute u pSubs (parseArgs u pRequest.mBody) .body pRequest.mBody
    else (false, pRequest.mBody)
  (args.1 || headers.1 || body.1,
    { pRequest with mArgs := args.2, mHeadersIn := headers.2, mBody := body.2 })

/-- `RequestProcessor::substituteRequest`: whether something was substituted, and the new
request. -/
def substituteRequest (u : UrlCodec) (pRequest : RequestInfo) (pCommands : Commands) :
    Bool × RequestInfo :=
  let keyed := keySubstituteRequest u pRequest pCommands.mSubstitutions
  (keyed.1 || pCommands.mRawSubstitutions ≠ [],
    pCommands.mRawSubstitutions.foldl rawSubstitute keyed.2)

/-! ### The value a parameter should have -/

/-- The value of a pair after the substitutions declared on its key that look at `scope`, in
the order of their declaration. -/
def substituted (pSubs : FieldSubstitutionMap) (scope : ApplicationScope) (kv : KeyVal) : Bytes :=
  (((pSubs.get? kv.1).getD []).filter fun s => s.mScope.has scope).foldl
    (fun v s => s.mRegex.replace v s.mReplacement) kv.2

theorem has_comm (s t : ApplicationScope) : s.has t = t.has s := by
  rw [ApplicationScope.has, ApplicationScope.has, Nat.and_comm]

theorem substituteVal_fst (pSubs : FieldSubstitutionMap) (scope : ApplicationScope) (kv : KeyVal) :
    (substituteVal pSubs scope kv).1 = substituted pSubs scope kv := by
  unfold substituteVal substituted
  cases pSubs.get? kv.1 with
  | none => rfl
  | some substs =>
    simp only [Option.getD_some]
    generalize kv.2 = v, false = did
    induction substs generalizing v did with
    | nil => rfl
    | cons s substs ih =>
      rw [List.foldl_cons, List.filter_cons, has_comm scope]
      split_ifs with h
      · exact ih _ _
      · exact ih _ _

/-! ### Parsing the rewritten query string -/

theorem parseToken_of_not_mem (u : UrlCodec) {t : Bytes} (h : 61 ∉ t) :
    parseToken u t = (toUpper t, []) := by
  rw [parseToken, find_singleton_eq_none h]

theorem parseToken_append (u : UrlCodec) {k : Bytes} (h : 61 ∉ k) (v : Bytes) :
    parseToken u (k ++ 61 :: v) = (toUpper k, u.decode v) := by
  rw [parseToken, find_singleton v h]
  simp

/-- What holds of the names `parseArgs` returns: upper case, no separator. -/
def KeyOk (k : Bytes) : Prop := toUpper k = k ∧ 61 ∉ k ∧ 38 ∉ k

theorem upper_eq_sep (c : UInt8) : (upper c = 61 → c = 61) ∧ (upper c = 38 → c = 38) := by
  revert c
  exact forall_byte (by decide +kernel)

theorem keyOk_toUpper {t : Bytes} (h61 : 61 ∉ t) (h38 : 38 ∉ t) : KeyOk (toUpper t) := by
  refine ⟨toUpper_toUpper t, fun h => ?_, fun h => ?_⟩
  · obtain ⟨c, hc, he⟩ := List.mem_map.1 h
    exact h61 ((upper_eq_sep c).1 he ▸ hc)
  · obtain ⟨c, hc, he⟩ := List.mem_map.1 h
    exact h38 ((upper_eq_sep c).2 he ▸ hc)

theorem keyOk_of_mem_parseArgs {u : UrlCodec} {q : Bytes} {kv : KeyVal} (h : kv ∈ parseArgs u q) :
    KeyOk kv.1 := by
  obtain ⟨t, ht, rfl⟩ := List.mem_map.1 h
  have h38 : 38 ∉ t := (of_mem_splitOn (List.mem_of_mem_filter ht)).1
  by_cases h61 : 61 ∈ t
  · obtain ⟨k, v, rfl, hk⟩ := List.eq_append_cons_of_mem h61
    rw [parseToken_append u hk]
    exact keyOk_toUpper hk fun hm => h38 (List.mem_append_left _ hm)
  · rw [parseToken_of_not_mem u h61]
    exact keyOk_toUpper h61 h38

section Join

variable {u : UrlCodec} {E : KeyValList}

theorem mem_encodeByte_amp {c : UInt8} (h : 38 ∈ u.encodeByte c) : c = 38 := by
  rcases encodeByte_cases u c with ⟨he, -⟩ | ⟨a, b, he, ha, hb, -⟩
  · rw [he, List.mem_singleton] at h
    exact h.symm
  · rw [he] at h
    have hx : ∀ x, isXdigit x → x ≠ 38 := by rintro x hx rfl; exact absurd hx (by decide)
    simp only [List.mem_cons, List.not_mem_nil, or_false] at h
    rcases h with h | h | h
    · exact absurd h (by decide)
    · exact absurd h.symm (hx a ha)
    · exact absurd h.symm (hx b hb)

theorem amp_not_mem_encode {v : Bytes} (hnul : NulFree v) (h : 38 ∉ v) : 38 ∉ u.encode v := by
  rw [encode_eq_flatMap u hnul, List.mem_flatMap]
  rintro ⟨c, hc, he⟩
  exact h (mem_encodeByte_amp he ▸ hc)

theorem newArg_eq_nil {kv : KeyVal} : newArg u kv = [] ↔ kv = ([], []) := by
  obtain ⟨k, v⟩ := kv
  by_cases h : v = [] <;> simp [newArg, h]

theorem amp_not_mem_newArg {kv : KeyVal} (hk : KeyOk kv.1) (hnul : NulFree kv.2)
    (h : 38 ∉ kv.2) : 38 ∉ newArg u kv := by
  unfold newArg
  split_ifs
  · exact hk.2.2
  · simp [hk.2.2, amp_not_mem_encode hnul h]

theorem parseToken_newArg {kv : KeyVal} (hk : KeyOk kv.1) (hnul : NulFree kv.2) :
    parseToken u (newArg u kv) = kv := by
  obtain ⟨k, v⟩ := kv
  unfold newArg
  split_ifs with hv
  · rw [parseToken_of_not_mem u hk.2.1, hk.1]
    simp at hv
    simp [hv]
  · rw [parseToken_append u hk.2.1, hk.1, decode_encode_of_nulFree u hnul]

/-- Parsing a joined list of parameters without `&` gives them back, except those that are
empty altogether. -/
theorem parseArgs_join (hok : ∀ kv ∈ E, KeyOk kv.1 ∧ NulFree kv.2) (hamp : ∀ kv ∈ E, 38 ∉ kv.2) :
    parseArgs u ([38].intercalate (E.map (newArg u))) = E.filter (· ≠ ([], [])) := by
  cases hE : E with
  | nil => rfl
  | cons e es =>
    rw [← hE]
    have hsplit : ([38].intercalate (E.map (newArg u))).splitOn 38 = E.map (newArg u) := by
      refine List.splitOn_intercalate 38 (fun t ht => ?_) (by simp [hE])
      obtain ⟨kv, hkv, rfl⟩ := List.mem_map.1 ht
      exact amp_not_mem_newArg (hok kv hkv).1 (hok kv hkv).2 (hamp kv hkv)
    rw [parseArgs, tokens, hsplit, List.filter_map, List.map_map]
    have hfilter : E.filter ((fun t => decide (t ≠ [])) ∘ newArg u) = E.filter (· ≠ ([], [])) :=
      List.filter_congr fun kv _ => by simp [newArg_eq_nil]
    rw [hfilter]
    refine (List.map_congr_left fun kv hkv => ?_).trans (List.map_id _)
    have hkv := hok kv (List.mem_of_mem_filter hkv)
    exact parseToken_newArg hkv.1 hkv.2

/-! ### An `&` does not survive -/

/-- The escape of the `&`. -/
def escapedAmp : Bytes := [37, 50, 54]

theorem xdigitVal_spec (c : UInt8) (h : isXdigit c) :
    (xdigitVal c).toNat < 16 ∧ ((xdigitVal c).toNat = 2 → c = 50) ∧
      ((xdigitVal c).toNat = 6 → c = 54) := by
  revert c
  exact forall_byte (by decide +kernel)

theorem x2c_eq_amp {a b : UInt8} (ha : isXdigit a) (hb : isXdigit b) (h : x2c a b = 38) :
    a = 50 ∧ b = 54 := by
  obtain ⟨ha16, ha2, -⟩ := xdigitVal_spec a ha
  obtain ⟨hb16, -, hb6⟩ := xdigitVal_spec b hb
  have hval : ((xdigitVal a).toNat * 16 % 256 + (xdigitVal b).toNat) % 256 = 38 := by
    have := congrArg UInt8.toNat h
    simpa [x2c] using this
  exact ⟨ha2 (by omega), hb6 (by omega)⟩

theorem amp_mem_unescapeUrl {s : Bytes} (h : 38 ∈ unescapeUrl s) : 38 ∈ s ∨ escapedAmp <:+: s := by
  fun_induction unescapeUrl s with
  | case1 => exact .inl h
  | case2 a b s hx ih =>
    simp only [Bool.and_eq_true] at hx
    rcases List.mem_cons.1 h with h | h
    · obtain ⟨rfl, rfl⟩ := x2c_eq_amp hx.1 hx.2 h.symm
      exact .inr ⟨[], s, rfl⟩
    · rcases ih h with h | h
      · exact .inl (by simp [h])
      · exact .inr (h.trans ⟨[37, a, b], [], by simp⟩)
  | case3 a b s hx ih =>
    rcases List.mem_cons.1 h with h | h
    · exact absurd h (by decide)
    · exact (ih h).imp (List.mem_cons_of_mem _) fun hi => hi.trans (List.suffix_cons _ _).isInfix
  | case4 c s hne ih =>
    rcases List.mem_cons.1 h with rfl | h
    · exact .inl List.mem_cons_self
    · exact (ih h).imp (List.mem_cons_of_mem _) fun hi => hi.trans (List.suffix_cons _ _).isInfix

theorem preDecode_eq_escapedAmp (u : UrlCodec) (c : UInt8) :
    (u.preDecode c = 37 → c = 37) ∧ (u.preDecode c = 50 → c = 50) ∧
      (u.preDecode c = 54 → c = 54) ∧ (u.preDecode c = 38 → c = 38) := by
  revert c
  cases u <;> exact forall_byte (by decide +kernel)

theorem amp_mem_decode {s : Bytes} (h : 38 ∈ u.decode s) : 38 ∈ s ∨ escapedAmp <:+: s := by
  rw [decode_eq] at h
  have hcstr : cstr (s.map u.preDecode) <+: s.map u.preDecode := List.takeWhile_prefix _
  have h1 : 38 ∈ unescapeUrl (cstr (s.map u.preDecode)) := (List.takeWhile_prefix _).subset h
  rcases amp_mem_unescapeUrl h1 with h2 | h2
  · obtain ⟨c, hc, he⟩ := List.mem_map.1 (hcstr.subset h2)
    exact .inl ((preDecode_eq_escapedAmp u c).2.2.2 he ▸ hc)
  · obtain ⟨l, hl, he⟩ := List.infix_map_iff.1 (h2.trans hcstr.isInfix)
    obtain ⟨a, l, rfl, ha, he⟩ := List.map_eq_cons_iff.1 he.symm
    obtain ⟨b, l, rfl, hb, he⟩ := List.map_eq_cons_iff.1 he
    obtain ⟨c, l, rfl, hc, he⟩ := List.map_eq_cons_iff.1 he
    obtain rfl := List.map_eq_nil_iff.1 he
    obtain rfl := (preDecode_eq_escapedAmp u a).1 ha
    obtain rfl := (preDecode_eq_escapedAmp u b).2.1 hb
    obtain rfl := (preDecode_eq_escapedAmp u c).2.2.1 hc
    exact .inr hl

/-- Encoding never writes the escape of the `&`: it would be for an `&`, which is not
escaped. -/
theorem escapedAmp_not_infix_encode {v : Bytes} (hnul : NulFree v) :
    ¬ escapedAmp <:+: u.encode v := by
  rw [encode_eq_flatMap u hnul]
  clear hnul
  have hx : ∀ x, isXdigit x → x ≠ 37 := by rintro x hx rfl; exact absurd hx (by decide)
  have hamp : u.encodeByte 38 = [38] := by cases u <;> decide
  induction v with
  | nil => simp [escapedAmp]
  | cons c v ih =>
    rw [List.flatMap_cons]
    rcases encodeByte_cases u c with ⟨he, hne, -⟩ | ⟨a, b, he, ha, hb, hc⟩
    · rw [he, List.singleton_append, List.infix_cons_iff, not_or]
      exact ⟨fun h => hne (List.cons_prefix_cons.1 h).1.symm, ih⟩
    · rw [he]
      simp only [List.cons_append, List.nil_append, List.infix_cons_iff, not_or, escapedAmp,
        List.cons_prefix_cons, true_and]
      -- it cannot start in the middle of an escape, and an escape of its own is not written
      refine ⟨?_, fun h => hx a ha h.1.symm, fun h => hx b hb h.1.symm, ih⟩
      rintro ⟨rfl, rfl, -⟩
      obtain rfl : c = 38 := hc.symm.trans (by decide)
      rw [hamp] at he
      exact absurd he (by decide)

/-- The value of a token of the text of a parameter is a part of the encoded value. -/
theorem parseToken_snd_of_mem {kv : KeyVal} (hk : KeyOk kv.1) {t : Bytes}
    (ht : t ∈ (newArg u kv).splitOn 38) :
    (parseToken u t).2 = [] ∨
      ∃ w, w <:+: u.encode kv.2 ∧ 38 ∉ w ∧ (parseToken u t).2 = u.decode w := by
  by_cases h61 : 61 ∈ t
  swap
  · exact .inl (by rw [parseToken_of_not_mem u h61])
  obtain ⟨k, w, rfl, hkw⟩ := List.eq_append_cons_of_mem h61
  refine .inr ⟨w, ?_, fun h => (of_mem_splitOn ht).1 (by simp [h]), by rw [parseToken_append u hkw]⟩
  have hsuff : w <:+: k ++ 61 :: w :=
    ((List.suffix_cons 61 w).trans (List.suffix_append k _)).isInfix
  unfold newArg at ht
  split_ifs at ht with hv
  · rw [List.splitOn_eq_singleton hk.2.2, List.mem_singleton] at ht
    exact absurd (by simp [← ht]) hk.2.1
  · have hhead : 38 ∉ kv.1 ++ [61] := by simp [hk.2.2]
    rw [show kv.1 ++ 61 :: u.encode kv.2 = (kv.1 ++ [61]) ++ u.encode kv.2 by simp,
      splitOn_append_of_not_mem hhead] at ht
    obtain ⟨p, ps, hps⟩ := List.exists_cons_of_ne_nil (List.splitOn_ne_nil 38 (u.encode kv.2))
    rw [hps, List.modifyHead_cons, List.mem_cons] at ht
    rcases ht with ht | ht
    · -- the first piece: the name, then the start of the value
      rw [List.append_assoc, List.singleton_append] at ht
      have hlen : k.length = kv.1.length :=
        Option.some.inj ((find_singleton w hkw).symm.trans (ht ▸ find_singleton p hk.2.1))
      rw [(List.cons.inj (List.append_inj ht hlen).2).2]
      exact (of_mem_splitOn (by rw [hps]; exact List.mem_cons_self)).2
    · exact hsuff.trans (of_mem_splitOn (by rw [hps]; exact List.mem_cons_of_mem _ ht)).2

theorem amp_not_mem_parseArgs_join (hok : ∀ kv ∈ E, KeyOk kv.1 ∧ NulFree kv.2) {kv : KeyVal}
    (h : kv ∈ parseArgs u ([38].intercalate (E.map (newArg u)))) : 38 ∉ kv.2 := by
  obtain ⟨t, ht, rfl⟩ := List.mem_map.1 h
  have ht := List.mem_of_mem_filter ht
  by_cases hE : E = []
  · subst hE
    rw [List.map_nil, List.intercalate_nil, List.splitOn_nil, List.mem_singleton] at ht
    subst ht
    simp [parseToken, find]
  · rw [splitOn_intercalate_eq_flatMap (by simpa using hE)] at ht
    obtain ⟨a, ha, hta⟩ := List.mem_flatMap.1 ht
    obtain ⟨e, he, rfl⟩ := List.mem_map.1 ha
    rcases parseToken_snd_of_mem (hok e he).1 hta with hnil | ⟨w, hw, hw38, hdec⟩
    · simp [hnil]
    · rw [hdec]
      intro h38
      rcases amp_mem_decode h38 with h' | h'
      · exact hw38 h'
      · exact escapedAmp_not_infix_encode (hok e he).2 (h'.trans hw)

end Join

/-- **When a key substitution preserves the query string.**  Parsing the rewritten text gives
the pairs of the original with the substituted values iff no such value holds an `&` and no
pair is left without name and value.  The law is the same for the body, with its scope. -/
theorem keySubstitute_preserves_iff (u : UrlCodec) (pSubs : FieldSubstitutionMap)
    (scope : ApplicationScope) (q q' : Bytes)
    (hnul : ∀ kv ∈ parseArgs u q, NulFree (substituted pSubs scope kv))
    (hsubst : keySubstitute u pSubs (parseArgs u q) scope q = (true, q')) :
    parseArgs u q' = (parseArgs u q).map (fun kv => (kv.1, substituted pSubs scope kv)) ↔
      ∀ kv ∈ parseArgs u q, 38 ∉ substituted pSubs scope kv ∧
        ¬ (kv.1 = [] ∧ substituted pSubs scope kv = []) := by
  set E := (parseArgs u q).map fun kv => (kv.1, substituted pSubs scope kv) with hE
  have hok : ∀ kv ∈ E, KeyOk kv.1 ∧ NulFree kv.2 := by
    rw [hE, List.forall_mem_map]
    intro kv hkv
    exact ⟨(keyOk_of_mem_parseArgs hkv : KeyOk kv.1), hnul kv hkv⟩
  have hq' : q' = [38].intercalate (E.map (newArg u)) := by
    simp only [keySubstitute, substituteVal_fst, Prod.mk.injEq] at hsubst
    rw [hsubst.1, if_pos rfl] at hsubst
    rw [← hsubst.2, hE, List.map_map]
    rfl
  have hcond : (∀ kv ∈ parseArgs u q, 38 ∉ substituted pSubs scope kv ∧
      ¬ (kv.1 = [] ∧ substituted pSubs scope kv = [])) ↔
      (∀ kv ∈ E, 38 ∉ kv.2) ∧ ∀ kv ∈ E, kv ≠ ([], []) := by
    simp only [hE, List.forall_mem_map, ne_eq, Prod.mk.injEq, ← forall₂_and]
  rw [hcond, hq']
  constructor
  · intro h
    -- the pairs were read from the new text, and no value that is read holds an `&`
    have hamp : ∀ kv ∈ E, 38 ∉ kv.2 := fun kv hkv =>
      amp_not_mem_parseArgs_join hok (h.symm ▸ hkv)
    rw [parseArgs_join hok hamp, List.filter_eq_self] at h
    exact ⟨hamp, fun kv hkv => by simpa using h kv hkv⟩
  · rintro ⟨hamp, hne⟩
    rw [parseArgs_join hok hamp, List.filter_eq_self]
    exact fun kv hkv => by simpa using hne kv hkv

/-- One substitution, on the parameter `b` of the query string. -/
def sampleSubs : FieldSubstitutionMap :=
  OrdMap.empty.set (str "B") [⟨.queryString, .literal (str "1"), str "2"⟩]

theorem keySubstitute_preserves_plain :
    parseArgs .default (str "A=x&B=2") = [(str "A", str "x"), (str "B", str "2")] :=
  (keySubstitute_preserves_iff .default sampleSubs .queryString (str "a=x&b=1") (str "A=x&B=2")
    (by decide +kernel) (by decide +kernel)).2 (by decide +kernel)

/-- The value `x&y` of another parameter is written without escaping its `&`, so the rewritten
query string has one parameter more. -/
theorem keySubstitute_amp_splits :
    (∀ kv ∈ parseArgs .default (str "a=x%26y&b=1"),
      NulFree (substituted sampleSubs .queryString kv)) ∧
    keySubstitute .default sampleSubs (parseArgs .default (str "a=x%26y&b=1")) .queryString
      (str "a=x%26y&b=1") = (true, str "A=x&y&B=2") ∧
    parseArgs .default (str "A=x&y&B=2") ≠
      (parseArgs .default (str "a=x%26y&b=1")).map
        fun kv => (kv.1, substituted sampleSubs .queryString kv) := by
  decide +kernel

end ModDup
