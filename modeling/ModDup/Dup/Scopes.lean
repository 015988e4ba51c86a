import ModDup.Dup.Substitute

/-!
# What a substitution may touch

A substitution is declared with a scope, and one on a field also with the name of the field
(`src/RequestProcessor.cc`).  This file says which parts of a request a list of substitutions
changes, and into what.

## Main definitions

* `substitutionsOf` : the map that a list of declarations makes.
* `Applies` : a substitution is declared on the key of a pair, with a given scope.
* `ofScope`, `substituteAll` : the substitutions of a scope, one after the other.

## Main results

* `key_substitutions_frame` : what key substitutions leave alone, and the flag returned.
* `headerSubstitute_reaches_iff` : when they reach all the headers they are declared on.
* `raw_substitutions_scope` : when raw substitutions stay in their scope.
-/

namespace ModDup

open Bytes

/-- Substitutions one after the other. -/
def substituteAll (substs : List TSubstitute) (text : Bytes) : Bytes :=
  substs.foldl (fun v s => s.mRegex.replace v s.mReplacement) text

/-! ### Key substitutions -/

/-- A substitution with this scope is declared on the key of the pair. -/
def Applies (pSubs : FieldSubstitutionMap) (scope : ApplicationScope) (kv : KeyVal) : Prop :=
  ∃ s ∈ (pSubs.get? kv.1).getD [], s.mScope.has scope

section Key

variable {pSubs : FieldSubstitutionMap} {scope : ApplicationScope} {kv : KeyVal}

theorem foldl_flag {α β : Type} {f : β × Bool → α → β × Bool} (test : α → Bool)
    (hf : ∀ acc a, (f acc a).2 = (acc.2 || test a)) (l : List α) (acc : β × Bool) :
    (l.foldl f acc).2 = true ↔ acc.2 = true ∨ ∃ a ∈ l, test a = true := by
  induction l generalizing acc with
  | nil => simp
  | cons a l ih => rw [List.foldl_cons, ih, hf, Bool.or_eq_true, List.exists_mem_cons_iff, or_assoc]

theorem substituteVal_snd : (substituteVal pSubs scope kv).2 = true ↔ Applies pSubs scope kv := by
  unfold substituteVal Applies
  cases pSubs.get? kv.1 with
  | none => simp
  | some substs =>
    dsimp only
    rw [foldl_flag (fun s : TSubstitute => s.mScope.has scope)]
    · simp
    · intro acc s
      rw [has_comm]
      split_ifs with hs
      · simp [hs]
      · simp [hs]

theorem substituted_of_not_applies (h : ¬ Applies pSubs scope kv) :
    substituted pSubs scope kv = kv.2 := by
  have hnil : (((pSubs.get? kv.1).getD []).filter fun s => s.mScope.has scope) = [] := by
    rw [List.filter_eq_nil_iff]
    exact fun s hs hscope => h ⟨s, hs, hscope⟩
  rw [substituted, hnil]
  rfl

/-- The scan of the whole map only spares work. -/
theorem keySubOn_of_applies (h : Applies pSubs scope kv) : keySubOn pSubs scope = true := by
  obtain ⟨s, hs, hscope⟩ := h
  cases hget : pSubs.get? kv.1 with
  | none => simp [hget] at hs
  | some substs =>
    have hentry : (kv.1, substs) ∈ pSubs.entries := OrdMap.get?_eq_some_iff.1 hget
    rw [hget, Option.getD_some] at hs
    refine List.any_eq_true.2 ⟨_, hentry, List.any_eq_true.2 ⟨s, hs, hscope⟩⟩

/-- `keySubstitute`, behind its scan: the flag, and the text when the flag is not set. -/
theorem keySubstitute_scan (u : UrlCodec) (pSubs : FieldSubstitutionMap)
    (scope : ApplicationScope) (args : KeyValList) (result : Bytes) :
    let out := if keySubOn pSubs scope then keySubstitute u pSubs args scope result
      else (false, result)
    (out.1 = true ↔ ∃ kv ∈ args, Applies pSubs scope kv) ∧ (out.1 = false → out.2 = result) := by
  intro out
  have hany : (keySubstitute u pSubs args scope result).1 = true ↔
      ∃ kv ∈ args, Applies pSubs scope kv := by
    simp only [keySubstitute, List.any_eq_true, substituteVal_snd]
  by_cases hon : keySubOn pSubs scope = true
  · have hout : out = keySubstitute u pSubs args scope result := if_pos hon
    rw [hout]
    refine ⟨hany, fun hfalse => ?_⟩
    unfold keySubstitute at hfalse ⊢
    simp only at hfalse ⊢
    rw [hfalse]
    rfl
  · have hout : out = (false, result) := if_neg hon
    rw [hout]
    refine ⟨⟨fun h => absurd h (by simp), ?_⟩, fun _ => rfl⟩
    rintro ⟨kv, -, happ⟩
    exact absurd (keySubOn_of_applies happ) hon

theorem headerSubstitute_scan (pSubs : FieldSubstitutionMap) (headers : KeyValList) :
    let out := if keySubOn pSubs .headers then headerSubstitute pSubs headers
      else (false, headers)
    (out.1 = true ↔ ∃ kv ∈ headers, Applies pSubs .headers kv) ∧
      out.2 = headers.map fun kv => (kv.1, substituted pSubs .headers kv) := by
  intro out
  by_cases hon : keySubOn pSubs .headers = true
  · have hout : out = headerSubstitute pSubs headers := if_pos hon
    rw [hout]
    refine ⟨?_, ?_⟩
    · simp only [headerSubstitute, List.any_eq_true, substituteVal_snd]
    · simp only [headerSubstitute, substituteVal_fst]
  · have hout : out = (false, headers) := if_neg hon
    have hnone : ∀ kv, ¬ Applies pSubs .headers kv := fun kv happ => hon (keySubOn_of_applies happ)
    rw [hout]
    refine ⟨⟨fun h => absurd h (by simp), ?_⟩, ?_⟩
    · rintro ⟨kv, -, happ⟩
      exact absurd happ (hnone kv)
    · symm
      refine (List.map_congr_left fun kv _ => ?_).trans (List.map_id headers)
      rw [substituted_of_not_applies (hnone kv)]
      rfl

end Key

/-- **Key substitutions touch only what they name.**  The query string and the body stay byte for
byte unless a substitution with their scope is declared on one of their keys; of the headers only
values change, and only where a substitution is declared; the rest of the request stays, and the
flag says whether a substitution was applied. -/
theorem key_substitutions_frame (u : UrlCodec) (r : RequestInfo) (c : Commands)
    (hargs : r.mParsedArgs = parseArgs u r.mArgs) (hraw : c.mRawSubstitutions = []) :
    let pSubs := c.mSubstitutions
    let r' := (substituteRequest u r c).2
    ((¬ ∃ kv ∈ parseArgs u r.mArgs, Applies pSubs .queryString kv) → r'.mArgs = r.mArgs) ∧
      ((¬ ∃ kv ∈ parseArgs u r.mBody, Applies pSubs .body kv) → r'.mBody = r.mBody) ∧
      r'.mHeadersIn = (r.mHeadersIn.map fun kv => (kv.1, substituted pSubs .headers kv)) ∧
      (∀ kv ∈ r.mHeadersIn, ¬ Applies pSubs .headers kv →
        substituted pSubs .headers kv = kv.2) ∧
      r' = { r with mArgs := r'.mArgs, mHeadersIn := r'.mHeadersIn, mBody := r'.mBody } ∧
      ((substituteRequest u r c).1 = true ↔
        (∃ kv ∈ parseArgs u r.mArgs, Applies pSubs .queryString kv) ∨
          (∃ kv ∈ r.mHeadersIn, Applies pSubs .headers kv) ∨
          ∃ kv ∈ parseArgs u r.mBody, Applies pSubs .body kv) := by
  intro pSubs r'
  obtain ⟨hqs, hqsText⟩ := keySubstitute_scan u pSubs .queryString
    (parseArgs u r.mArgs) r.mArgs
  obtain ⟨hhdr, hhdrText⟩ := headerSubstitute_scan pSubs r.mHeadersIn
  obtain ⟨hbody, hbodyText⟩ := keySubstitute_scan u pSubs .body (parseArgs u r.mBody) r.mBody
  -- without raw substitutions only the first half of the function is left
  have hkey : substituteRequest u r c = keySubstituteRequest u r pSubs := by
    simp [substituteRequest, hraw, pSubs]
  have hr' : r' = (keySubstituteRequest u r pSubs).2 := congrArg Prod.snd hkey
  rw [hkey, hr']
  simp only [keySubstituteRequest, hargs]
  refine ⟨fun hno => ?_, fun hno => ?_, hhdrText, fun kv _ => substituted_of_not_applies,
    trivial, ?_⟩
  · exact hqsText (Bool.eq_false_iff.2 fun htrue => hno (hqs.1 htrue))
  · exact hbodyText (Bool.eq_false_iff.2 fun htrue => hno (hbody.1 htrue))
  · rw [Bool.or_eq_true, Bool.or_eq_true, hqs, hhdr, hbody, or_assoc]

/-- A request with a query string the codec would not give back: no rule is on its keys. -/
def untouchedRequest : RequestInfo :=
  { RequestInfo.make (str "1") 0 with
    mArgs := str "a=%41&&c", mParsedArgs := [(str "A", str "A"), (str "C", [])] }

theorem key_substitutions_frame_untouched :
    (substituteRequest .default untouchedRequest { mSubstitutions := sampleSubs }).2.mArgs =
      str "a=%41&&c" :=
  (key_substitutions_frame .default untouchedRequest { mSubstitutions := sampleSubs }
    (by decide +kernel) rfl).1 (by
      have hkeys : parseArgs .default untouchedRequest.mArgs =
          [(str "A", str "A"), (str "C", [])] := by decide +kernel
      have hA : sampleSubs.get? (str "A") = none := by rfl
      have hC : sampleSubs.get? (str "C") = none := by rfl
      rw [hkeys]
      simp [Applies, hA, hC])

/-! ### The headers a substitution is declared on -/

/-- The map that `addSubstitution` makes of one more declaration, on `field`. -/
def declare (pSubs : FieldSubstitutionMap) (decl : Bytes × TSubstitute) : FieldSubstitutionMap :=
  pSubs.set (toUpper decl.1) ((pSubs.get? (toUpper decl.1)).getD [] ++ [decl.2])

/-- The map that a list of declarations makes. -/
def substitutionsOf (decls : List (Bytes × TSubstitute)) : FieldSubstitutionMap :=
  decls.foldl declare .empty

theorem addSubstitution_eq (p : RequestProcessor) (pField : Bytes) (pMatch : Regex)
    (pReplace : Bytes) (c : ℕ) (conf : DupConf) :
    p.addSubstitution pField pMatch pReplace c conf =
      p.modifyCommands c conf.currentDupDestination fun cmds =>
        { cmds with
          mSubstitutions := declare cmds.mSubstitutions
            (pField, ⟨conf.currentApplicationScope, pMatch, pReplace⟩) } := rfl

/-- A property of commands that every change of one destination keeps. -/
theorem commands?_modifyCommands_of {Q : Commands → Prop} {p : RequestProcessor}
    (h : ∀ c d cmds, p.commands? c d = some cmds → Q cmds) (hnew : Q {}) (c : ℕ) (d : Bytes)
    {f : Commands → Commands} (hf : ∀ cmds, Q cmds → Q (f cmds)) :
    ∀ c' d' cmds, (p.modifyCommands c d f).commands? c' d' = some cmds → Q cmds := by
  intro c' d' cmds hget
  rw [RequestProcessor.commands?_modifyCommands] at hget
  split_ifs at hget with hcd
  · obtain rfl := Option.some.inj hget
    refine hf _ ?_
    cases hold : p.commands? c d with
    | none => exact hnew
    | some old => exact h c d old hold
  · exact h c' d' cmds hget

/-- **Every map of a configuration is made by declarations.** -/
theorem substitutions_run (ops : List ConfOp) {c : ℕ} {d : Bytes} {cmds : Commands}
    (hget : (ConfState.run ops).proc.commands? c d = some cmds) :
    ∃ decls, cmds.mSubstitutions = substitutionsOf decls := by
  have hall : ∀ c d cmds, (ConfState.run ops).proc.commands? c d = some cmds →
      ∃ decls, cmds.mSubstitutions = substitutionsOf decls := by
    refine List.foldlRecOn (motive := fun s : ConfState => ∀ c d cmds,
      s.proc.commands? c d = some cmds → ∃ decls, cmds.mSubstitutions = substitutionsOf decls)
      ops ConfState.step ?_ fun s hs op _ => ?_
    · intro c d cmds hget
      simp [RequestProcessor.commands?] at hget
    · have hmod := commands?_modifyCommands_of hs ⟨[], rfl⟩
      cases op with
      | setUrlCodec pUrlCodec => exact hs
      | setActive c path => exact hs
      | setSynchronous c => exact hs
      | setCurrentDuplicationType c dt => exact hs
      | setCurrentDupDestination c destination => exact hs
      | setCurrentApplicationScope c scope => exact hs
      | addFilter c pField pFilter fType =>
        simp only [ConfState.step, RequestProcessor.addFilter]
        split_ifs
        · exact hmod _ _ fun _ hcmds => hcmds
        · exact hs
      | addRawFilter c pFilter fType => exact hmod _ _ fun _ hcmds => hcmds
      | addRawSubstitution c pRegex pReplace => exact hmod _ _ fun _ hcmds => hcmds
      | setDestinationDuplicationPercentage c destination percentage =>
        exact hmod _ _ fun _ hcmds => hcmds
      | addSubstitution c pField pMatch pReplace =>
        simp only [ConfState.step, addSubstitution_eq]
        refine hmod _ _ fun cmds hcmds => ?_
        obtain ⟨decls, hdecls⟩ := hcmds
        refine ⟨decls ++ [(pField, ⟨(s.confs c).currentApplicationScope, pMatch, pReplace⟩)], ?_⟩
        rw [hdecls, substitutionsOf, substitutionsOf, List.foldl_append]
        rfl
  exact hall c d cmds hget

/-- The declarations on a field, ignoring case, that look at the headers. -/
def onHeader (decls : List (Bytes × TSubstitute)) (name : Bytes) : List TSubstitute :=
  (decls.filter fun decl => toLower decl.1 = toLower name && decl.2.mScope.has .headers).map
    Prod.snd

/-- `headerSubstitute` assigns to the value of the header. -/
def headerRewritten (pSubs : FieldSubstitutionMap) (kv : KeyVal) : Bool :=
  (substituteVal pSubs .headers kv).2

theorem get?_substitutionsOf (decls : List (Bytes × TSubstitute)) (k : Bytes) :
    ((substitutionsOf decls).get? k).getD [] =
      (decls.filter fun decl => toUpper decl.1 = k).map Prod.snd := by
  induction decls using List.reverseRecOn with
  | nil => rfl
  | append_singleton decls decl ih =>
    rw [substitutionsOf, List.foldl_append, List.foldl_cons, List.foldl_nil, ← substitutionsOf,
      declare, OrdMap.get?_set, List.filter_append, List.map_append]
    split_ifs with hk
    · subst hk
      simp [ih]
    · simp [ih, Ne.symm hk]

theorem onHeader_of_upper (decls : List (Bytes × TSubstitute)) {name : Bytes}
    (h : toUpper name = name) :
    ((((substitutionsOf decls).get? name).getD []).filter fun s => s.mScope.has .headers) =
      onHeader decls name := by
  rw [get?_substitutionsOf, onHeader, List.filter_map, List.filter_filter]
  congr 1
  refine List.filter_congr fun decl _ => ?_
  have hname : toUpper decl.1 = name ↔ toLower decl.1 = toLower name := by
    rw [← toUpper_eq_iff, h]
  simp only [Function.comp, hname, Bool.and_comm]

theorem get?_of_not_upper (decls : List (Bytes × TSubstitute)) {name : Bytes}
    (h : toUpper name ≠ name) : ((substitutionsOf decls).get? name).getD [] = [] := by
  rw [get?_substitutionsOf, List.map_eq_nil_iff, List.filter_eq_nil_iff]
  intro decl _ heq
  have heq : toUpper decl.1 = name := by simpa using heq
  refine h ?_
  rw [← heq, toUpper_toUpper]

theorem headerRewritten_iff (decls : List (Bytes × TSubstitute)) (kv : KeyVal) :
    headerRewritten (substitutionsOf decls) kv = true ↔
      toUpper kv.1 = kv.1 ∧ onHeader decls kv.1 ≠ [] := by
  rw [headerRewritten, substituteVal_snd]
  by_cases hup : toUpper kv.1 = kv.1
  · rw [← onHeader_of_upper decls hup, Applies]
    simp [hup, List.filter_eq_nil_iff]
  · simp [Applies, get?_of_not_upper decls hup, hup]

/-- **When header substitutions reach the headers they are declared on**, ignoring case, with
these substitutions in their order and nothing else changed: iff none is declared on the name of a
header that is not in upper case. -/
theorem headerSubstitute_reaches_iff (decls : List (Bytes × TSubstitute)) (headers : KeyValList) :
    ((headerSubstitute (substitutionsOf decls) headers).2 =
          (headers.map fun kv => (kv.1, substituteAll (onHeader decls kv.1) kv.2)) ∧
        ∀ kv ∈ headers, headerRewritten (substitutionsOf decls) kv = true ↔
          ∃ decl ∈ decls, toLower decl.1 = toLower kv.1 ∧ decl.2.mScope.has .headers) ↔
      ∀ kv ∈ headers, toUpper kv.1 ≠ kv.1 →
        ∀ decl ∈ decls, toLower decl.1 = toLower kv.1 → ¬ decl.2.mScope.has .headers := by
  have hdecl : ∀ name, onHeader decls name ≠ [] ↔
      ∃ decl ∈ decls, toLower decl.1 = toLower name ∧ decl.2.mScope.has .headers := by
    intro name
    simp [onHeader, List.filter_eq_nil_iff]
  constructor
  · rintro ⟨-, hreach⟩ kv hkv hup decl hmem hname hscope
    exact hup ((headerRewritten_iff decls kv).1
      ((hreach kv hkv).2 ⟨decl, hmem, hname, hscope⟩)).1
  · intro hcond
    have hnil : ∀ kv ∈ headers, toUpper kv.1 ≠ kv.1 → onHeader decls kv.1 = [] := by
      intro kv hkv hup
      by_contra hne
      obtain ⟨decl, hmem, hname, hscope⟩ := (hdecl kv.1).1 hne
      exact hcond kv hkv hup decl hmem hname hscope
    refine ⟨?_, fun kv hkv => ?_⟩
    · simp only [headerSubstitute, substituteVal_fst]
      refine List.map_congr_left fun kv hkv => ?_
      by_cases hup : toUpper kv.1 = kv.1
      · rw [substituted, onHeader_of_upper decls hup, substituteAll]
      · rw [hnil kv hkv hup, substituted, get?_of_not_upper decls hup]
        rfl
    · rw [headerRewritten_iff, ← hdecl]
      exact ⟨fun h => h.2, fun h => ⟨not_not.1 fun hup => h (hnil kv hkv hup), h⟩⟩

/-- The header `Cookie` is filtered by a filter on `cookie`, but a substitution on `cookie` does
not reach it. -/
theorem headerSubstitute_misses :
    let decls := [(str "cookie", (⟨.headers, .literal (str "1"), str "2"⟩ : TSubstitute))]
    (∃ decl ∈ decls, toLower decl.1 = toLower (str "Cookie") ∧ decl.2.mScope.has .headers) ∧
      headerRewritten (substitutionsOf decls) (str "Cookie", str "id=1") = false ∧
      headerSubstitute (substitutionsOf decls) [(str "Cookie", str "id=1")] =
        (false, [(str "Cookie", str "id=1")]) ∧
      substituteAll (onHeader decls (str "Cookie")) (str "id=1") = str "id=2" := by
  refine ⟨⟨_, List.mem_singleton_self _, ?_, ?_⟩, ?_, ?_, ?_⟩
  all_goals decide +kernel

/-! ### Raw substitutions -/

/-- The raw substitutions of a scope, in their order. -/
def ofScope (scope : ApplicationScope) (substs : List TSubstitute) : List TSubstitute :=
  substs.filter fun s => s.mScope.has scope

/-- Raw substitutions do as they are declared: path, query string and body go through those of
their scope, and stay where there is none; the rest of the request stays. -/
structure InScope (u : UrlCodec) (r : RequestInfo) (c : Commands) : Prop where
  result : (substituteRequest u r c).2 = { r with
    mPath := substituteAll (ofScope .path c.mRawSubstitutions) r.mPath
    mArgs := substituteAll (ofScope .queryString c.mRawSubstitutions) r.mArgs
    mBody := substituteAll (ofScope .body c.mRawSubstitutions) r.mBody }
  path : (∀ s ∈ c.mRawSubstitutions, ¬ s.mScope.has .path) →
    (substituteRequest u r c).2.mPath = r.mPath
  args : (∀ s ∈ c.mRawSubstitutions, ¬ s.mScope.has .queryString) →
    (substituteRequest u r c).2.mArgs = r.mArgs
  body : (∀ s ∈ c.mRawSubstitutions, ¬ s.mScope.has .body) →
    (substituteRequest u r c).2.mBody = r.mBody

theorem substituteAll_cons (scope : ApplicationScope) (s : TSubstitute) (substs : List TSubstitute)
    (text : Bytes) :
    substituteAll (ofScope scope (s :: substs)) text =
      substituteAll (ofScope scope substs)
        (if s.mScope.has scope then s.mRegex.replace text s.mReplacement else text) := by
  rw [ofScope, List.filter_cons]
  split_ifs
  · rfl
  · rfl

/-- What the raw substitutions make of a request: the path goes through those of the whole URL. -/
theorem foldl_rawSubstitute (substs : List TSubstitute) (r : RequestInfo) :
    substs.foldl rawSubstitute r = { r with
      mPath := substituteAll (ofScope .url substs) r.mPath
      mArgs := substituteAll (ofScope .queryString substs) r.mArgs
      mBody := substituteAll (ofScope .body substs) r.mBody } := by
  induction substs generalizing r with
  | nil => rfl
  | cons s substs ih =>
    rw [List.foldl_cons, ih, substituteAll_cons, substituteAll_cons, substituteAll_cons]
    rfl

theorem substituteRequest_raw {u : UrlCodec} {r : RequestInfo} {c : Commands}
    (h : c.mSubstitutions.entries = []) :
    (substituteRequest u r c).2 = { r with
      mPath := substituteAll (ofScope .url c.mRawSubstitutions) r.mPath
      mArgs := substituteAll (ofScope .queryString c.mRawSubstitutions) r.mArgs
      mBody := substituteAll (ofScope .body c.mRawSubstitutions) r.mBody } := by
  have hkey : (keySubstituteRequest u r c.mSubstitutions).2 = r := by
    simp [keySubstituteRequest, keySubOn, h]
  rw [substituteRequest, hkey]
  exact foldl_rawSubstitute c.mRawSubstitutions r

theorem substituteAll_of_none {scope : ApplicationScope} {substs : List TSubstitute}
    (h : ∀ s ∈ substs, ¬ s.mScope.has scope) (text : Bytes) :
    substituteAll (ofScope scope substs) text = text := by
  have hnil : ofScope scope substs = [] := List.filter_eq_nil_iff.2 h
  rw [hnil]
  rfl

/-- For one request: only the path can go wrong, and does iff it comes out differently. -/
theorem inScope_iff {u : UrlCodec} {r : RequestInfo} {c : Commands}
    (h : c.mSubstitutions.entries = []) :
    InScope u r c ↔ substituteAll (ofScope .url c.mRawSubstitutions) r.mPath =
      substituteAll (ofScope .path c.mRawSubstitutions) r.mPath := by
  have hraw := substituteRequest_raw (u := u) (r := r) h
  constructor
  · intro hin
    have hpath := congrArg RequestInfo.mPath hin.result
    rwa [hraw] at hpath
  · intro hpath
    rw [hpath] at hraw
    refine ⟨hraw, fun hnone => ?_, fun hnone => ?_, fun hnone => ?_⟩
    · rw [hraw]
      exact substituteAll_of_none hnone r.mPath
    · rw [hraw]
      exact substituteAll_of_none hnone r.mArgs
    · rw [hraw]
      exact substituteAll_of_none hnone r.mBody

/-- Only the query string alone has a bit of the URL and not that of the path. -/
theorem has_url_eq (s : ApplicationScope) (h : s ≠ .queryString) : s.has .url = s.has .path := by
  cases s with
  | queryString => exact absurd rfl h
  | _ => rfl

/-- A substitution for every scope: only the one of the query string alone has something to do
on the path `1`. -/
def probe (scope : ApplicationScope) : TSubstitute :=
  if scope = .queryString then ⟨scope, .literal (str "1"), str "2"⟩
  else ⟨scope, .literal (str "0"), str "0"⟩

theorem probe_path (scopes : List ApplicationScope) :
    substituteAll (ofScope .path (scopes.map probe)) (str "1") = str "1" := by
  induction scopes with
  | nil => rfl
  | cons s scopes ih =>
    have hstep : (if (probe s).mScope.has .path then
        (probe s).mRegex.replace (str "1") (probe s).mReplacement else str "1") = str "1" := by
      cases s <;> decide +kernel
    rw [List.map_cons, substituteAll_cons, hstep, ih]

theorem probe_url {scopes : List ApplicationScope} :
    substituteAll (ofScope .url (scopes.map probe)) (str "2") = str "2" ∧
      (.queryString ∈ scopes →
        substituteAll (ofScope .url (scopes.map probe)) (str "1") = str "2") := by
  induction scopes with
  | nil => exact ⟨rfl, fun h => absurd h (by simp)⟩
  | cons s scopes ih =>
    have hstep : (if (probe s).mScope.has .url then
        (probe s).mRegex.replace (str "2") (probe s).mReplacement else str "2") = str "2" ∧
        (if (probe s).mScope.has .url then
          (probe s).mRegex.replace (str "1") (probe s).mReplacement else str "1") =
          if s = .queryString then str "2" else str "1" := by
      cases s <;> decide +kernel
    rw [List.map_cons, substituteAll_cons, substituteAll_cons, hstep.1, hstep.2]
    refine ⟨ih.1, fun hmem => ?_⟩
    split_ifs with hs
    · exact ih.1
    · exact ih.2 (List.mem_of_ne_of_mem (Ne.symm hs) hmem)

/-- **When raw substitutions stay in their scope.**  For one request: iff the path comes out of
those of the URL as it comes out of those of the path.  For given scopes, whatever the expressions
and the replacements, for every request: iff none of the scopes is the query string alone. -/
theorem raw_substitutions_scope (u : UrlCodec) :
    (∀ (r : RequestInfo) (c : Commands), c.mSubstitutions.entries = [] →
      (InScope u r c ↔ substituteAll (ofScope .url c.mRawSubstitutions) r.mPath =
        substituteAll (ofScope .path c.mRawSubstitutions) r.mPath)) ∧
    ∀ scopes : List ApplicationScope,
      (∀ (r : RequestInfo) (c : Commands), c.mSubstitutions.entries = [] →
        c.mRawSubstitutions.map TSubstitute.mScope = scopes → InScope u r c) ↔
        .queryString ∉ scopes := by
  refine ⟨fun r c => inScope_iff, fun scopes => ⟨fun h hmem => ?_, ?_⟩⟩
  · have hscope : TSubstitute.mScope ∘ probe = id := by
      funext s
      cases s <;> rfl
    have hin := h { RequestInfo.make [] 0 with mPath := str "1" }
      { mRawSubstitutions := scopes.map probe } rfl (by rw [List.map_map, hscope, List.map_id])
    rw [inScope_iff rfl] at hin
    simp only [probe_path, probe_url.2 hmem] at hin
    exact absurd hin (by decide)
  · rintro hnot r c hkey rfl
    rw [inScope_iff hkey]
    congr 1
    refine List.filter_congr fun s hs => has_url_eq s.mScope ?_
    intro hqs
    exact hnot (List.mem_map.2 ⟨s, hs, hqs⟩)

/-- The case of the tests, with a path that holds the text too: the scope is the query string, and
the path is rewritten. -/
theorem raw_substitution_rewrites_path :
    let c : Commands :=
      { mRawSubstitutions := [⟨.queryString, .literal (str "1"), str "2"⟩] }
    let r : RequestInfo := { RequestInfo.make [] 0 with mPath := str "/1", mArgs := str "a=1" }
    (∀ s ∈ c.mRawSubstitutions, ¬ s.mScope.has .path) ∧
      (substituteRequest .default r c).2.mPath = str "/2" ∧ r.mPath = str "/1" ∧
      ¬ InScope .default r c := by
  intro c r
  have hnone : ∀ s ∈ c.mRawSubstitutions, ¬ s.mScope.has .path := by
    intro s hs
    obtain rfl := List.mem_singleton.1 hs
    decide
  have hpath : (substituteRequest .default r c).2.mPath = str "/2" := by decide +kernel
  refine ⟨hnone, hpath, rfl, fun hin => ?_⟩
  have hsame := hin.path hnone
  rw [hpath] at hsame
  exact absurd hsame (by decide)

end ModDup
