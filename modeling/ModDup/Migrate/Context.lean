import ModDup.Migrate.Filters

/-!
# The variables `mod_migrate` sets

Every directive is tried on the query string, the body and the headers, as far as they are in its
scope, and what `regex_replace` leaves of a text is the value (`enrichContext` in
`src/filters_migrate.cc`).  With `format_no_copy` and no `format_first_only` that is what the
format gives for all matches of the text, one after the other.  A body or a header text that is
empty is not looked at, an empty query string is.

## Main definitions

* `assignments` : the values a list of pairs of a directive and a text gives.
* `made`, `wanted` : the values of all matches, and those of the first matches.

## Main results

* `enrichContext_eq` : the variables are assigned in order, and their number is counted.
* `enrichContext_wanted_iff` : when the values are those of the first matches.
* `enrichContext_of_plain` : a condition on each pair alone.
-/

namespace ModDup

open Bytes

/-! ### Assigning the entries of a list to a table -/

theorem aprTableGet_congr (t : AprTable) {key key' : Bytes} (h : sameName key key' = true) :
    aprTableGet t key = aprTableGet t key' := by
  have hname : toLower key = toLower key' := by simpa [sameName] using h
  simp only [aprTableGet, sameName, hname]

/-- The value of the last entry of that name. -/
def lastFor (l : KeyValList) (key : Bytes) : Option Bytes :=
  (l.filter fun e => sameName e.1 key).getLast?.map Prod.snd

theorem lastFor_append_singleton (l : KeyValList) (e : KeyVal) (key : Bytes) :
    lastFor (l ++ [e]) key = if sameName e.1 key then some e.2 else lastFor l key := by
  unfold lastFor
  rw [List.filter_append]
  by_cases h : sameName e.1 key = true <;> simp [h]

theorem aprTableGet_foldl_set (l : KeyValList) (t : AprTable) (key : Bytes) :
    aprTableGet (l.foldl (fun t e => aprTableSet t e.1 e.2) t) key =
      (lastFor l key).or (aprTableGet t key) := by
  induction l using List.reverseRecOn with
  | nil => rfl
  | append_singleton l e ih =>
    rw [List.foldl_append, List.foldl_cons, List.foldl_nil, lastFor_append_singleton]
    by_cases h : sameName e.1 key = true
    · rw [if_pos h, ← aprTableGet_congr _ h, aprTableGet_set_self, Option.some_or]
    · rw [if_neg h, aprTableGet_set_of_ne (Bool.eq_false_iff.2 h), ih]

namespace Migrate

/-! ### What is set -/

/-- A directive with a text it is tried on. -/
abbrev Pair := MigrateEnv × Bytes

/-- The pairs `enrichContext` goes through. -/
def triedPairs (conf : MigrateConf) (info : MigrateInfo) : List Pair :=
  conf.mEnvLists.flatMap fun ctx =>
    (scopeTexts info ctx.mApplicationScope).map fun text => (ctx, text)

/-- The texts in a scope, empty or not. -/
def allTexts (info : MigrateInfo) (scope : ApplicationScope) : List Bytes :=
  (if scope.has .queryString then [info.mArgs] else []) ++
    (if scope.has .body then [info.mBody] else []) ++
    (if scope.has .headers then [info.mHeader] else [])

/-- All pairs of a directive and a text in its scope. -/
def allPairs (conf : MigrateConf) (info : MigrateInfo) : List Pair :=
  conf.mEnvLists.flatMap fun ctx =>
    (allTexts info ctx.mApplicationScope).map fun text => (ctx, text)

/-- The names and values of the pairs whose value is not empty. -/
def assignments (value : Pair → Bytes) (ps : List Pair) : KeyValList :=
  (ps.filter fun p => value p ≠ []).map fun p => (cstr p.1.mVarName, value p)

/-- What the format gives for all matches of a text. -/
def Pair.allMatches (p : Pair) : Bytes := p.1.mMatchRegex.replaceNoCopy p.2 p.1.mSetValue

/-- What it gives for the first match; nothing without one. -/
def Pair.firstMatch (p : Pair) : Bytes :=
  (p.1.mMatchRegex.expansions p.2 p.1.mSetValue).head?.getD []

/-- The assignments of `enrichContext`; a value ends at a zero byte. -/
def made (conf : MigrateConf) (info : MigrateInfo) : KeyValList :=
  (assignments Pair.allMatches (triedPairs conf info)).map fun e => (e.1, cstr e.2)

/-- The assignments of the first matches. -/
def wanted (conf : MigrateConf) (info : MigrateInfo) : KeyValList :=
  assignments Pair.firstMatch (allPairs conf info)

theorem foldl_setEnvVar (ps : List Pair) (t : AprTable) (n : ℕ) :
    ps.foldl (fun env p => setEnvVar p.1 p.allMatches env) (t, n) =
      (((assignments Pair.allMatches ps).map fun e => (e.1, cstr e.2)).foldl
        (fun t e => aprTableSet t e.1 e.2) t, n + (assignments Pair.allMatches ps).length) := by
  induction ps generalizing t n with
  | nil => rfl
  | cons p ps ih =>
    rw [List.foldl_cons]
    by_cases h : p.allMatches = []
    · have hskip : assignments Pair.allMatches (p :: ps) = assignments Pair.allMatches ps := by
        simp [assignments, h]
      rw [setEnvVar, if_neg (by simp [h]), ih, hskip]
    · have htake : assignments Pair.allMatches (p :: ps) =
          (cstr p.1.mVarName, p.allMatches) :: assignments Pair.allMatches ps := by
        simp [assignments, h]
      rw [setEnvVar, if_pos h, ih, htake, List.map_cons, List.foldl_cons, List.length_cons]
      simp only [Nat.add_assoc, Nat.add_comm 1]

theorem enrichContext_eq (conf : MigrateConf) (info : MigrateInfo) (env : AprTable) :
    enrichContext conf info env =
      ((made conf info).foldl (fun t e => aprTableSet t e.1 e.2) env, (made conf info).length) := by
  have h := foldl_setEnvVar (triedPairs conf info) env 0
  rw [triedPairs, List.foldl_flatMap, ← triedPairs, Nat.zero_add] at h
  simp only [List.foldl_map] at h
  rw [made, List.length_map, List.foldl_map, ← h]
  rfl

/-! ### When these are the first matches -/

/-- For every environment: a variable has the value of the last pair whose first match gives
something, or its old value without one, and the count is the number of such pairs. -/
def SetsFirstMatches (conf : MigrateConf) (info : MigrateInfo) : Prop :=
  ∀ env : AprTable,
    (∀ name, aprTableGet (enrichContext conf info env).1 name =
      (lastFor (wanted conf info) name).or (aprTableGet env name)) ∧
    (enrichContext conf info env).2 = (wanted conf info).length

/-- When the variables have the values of first matches: as many pairs give something for their
matches together as for their first match, and for each name the last of the former gives, up to a
zero byte, what the last of the latter gives for its first match. -/
theorem enrichContext_wanted_iff (conf : MigrateConf) (info : MigrateInfo) :
    SetsFirstMatches conf info ↔
      ((triedPairs conf info).filter fun p => p.allMatches ≠ []).length =
          ((allPairs conf info).filter fun p => p.firstMatch ≠ []).length ∧
        ∀ name, lastFor (made conf info) name = lastFor (wanted conf info) name := by
  have hmade : (made conf info).length =
      ((triedPairs conf info).filter fun p => p.allMatches ≠ []).length := by
    simp [made, assignments]
  have hwanted : (wanted conf info).length =
      ((allPairs conf info).filter fun p => p.firstMatch ≠ []).length := by
    simp [wanted, assignments]
  rw [← hmade, ← hwanted]
  unfold SetsFirstMatches
  simp only [enrichContext_eq, aprTableGet_foldl_set]
  constructor
  · intro h
    -- an environment without variables shows what is set
    refine ⟨(h []).2, fun name => ?_⟩
    have hname := (h []).1 name
    rwa [aprTableGet, List.find?_nil, Option.map_none, Option.or_none, Option.or_none] at hname
  · rintro ⟨hcount, hlast⟩ env
    exact ⟨fun name => by rw [hlast], hcount⟩

/-- An empty text outside of the query string gives nothing for its first match. -/
def EmptyTextsGiveNothing (conf : MigrateConf) (info : MigrateInfo) : Prop :=
  ∀ ctx ∈ conf.mEnvLists,
    (ctx.mApplicationScope.has .body = true ∧ info.mBody = [] ∨
      ctx.mApplicationScope.has .headers = true ∧ info.mHeader = []) →
    Pair.firstMatch (ctx, []) = []

theorem assignments_append (value : Pair → Bytes) (ps ps' : List Pair) :
    assignments value (ps ++ ps') = assignments value ps ++ assignments value ps' := by
  simp [assignments]

theorem assignments_flatMap {α : Type*} (value : Pair → Bytes) (l : List α) (f : α → List Pair) :
    assignments value (l.flatMap f) = l.flatMap fun a => assignments value (f a) := by
  induction l with
  | nil => rfl
  | cons a l ih => rw [List.flatMap_cons, assignments_append, ih, List.flatMap_cons]

/-- Then the empty texts that are not looked at make no difference. -/
theorem wanted_eq_of_emptyTexts {conf : MigrateConf} {info : MigrateInfo}
    (h : EmptyTextsGiveNothing conf info) :
    wanted conf info = assignments Pair.firstMatch (triedPairs conf info) := by
  rw [wanted, allPairs, triedPairs, assignments_flatMap, assignments_flatMap]
  refine List.flatMap_congr fun ctx hctx => ?_
  have hempty := h ctx hctx
  have hguard : ∀ (inScope : Bool) (text : Bytes),
      (inScope = true ∧ text = [] → Pair.firstMatch (ctx, []) = []) →
      assignments Pair.firstMatch ((if inScope then [text] else []).map fun t => (ctx, t)) =
        assignments Pair.firstMatch
          ((if inScope && text ≠ [] then [text] else []).map fun t => (ctx, t)) := by
    intro inScope text hnil
    cases inScope with
    | false => rfl
    | true =>
      by_cases htext : text = []
      · have hfirst := hnil ⟨rfl, htext⟩
        simp [htext, assignments, hfirst]
      · simp [htext]
  simp only [allTexts, scopeTexts, List.map_append, assignments_append,
    hguard _ info.mBody fun hb => hempty (.inl hb),
    hguard _ info.mHeader fun hh => hempty (.inr hh)]

/-- The matches of a pair after the first give nothing, and there is no zero byte. -/
def Pair.Plain (p : Pair) : Prop :=
  p.allMatches = p.firstMatch ∧ cstr p.allMatches = p.allMatches

/-- A condition on each pair alone: the matches after the first give nothing, and neither does an
empty body or header text. -/
theorem enrichContext_of_plain {conf : MigrateConf} {info : MigrateInfo}
    (hempty : EmptyTextsGiveNothing conf info) (hplain : ∀ p ∈ triedPairs conf info, p.Plain) :
    SetsFirstMatches conf info := by
  have hsame : made conf info = wanted conf info := by
    have hfilter : ((triedPairs conf info).filter fun p => p.allMatches ≠ []) =
        (triedPairs conf info).filter fun p => p.firstMatch ≠ [] :=
      List.filter_congr fun p hp => by rw [(hplain p hp).1]
    rw [wanted_eq_of_emptyTexts hempty, made, assignments, assignments, hfilter, List.map_map]
    refine List.map_congr_left fun p hp => ?_
    obtain ⟨hfirst, hzero⟩ := hplain p (List.mem_filter.1 hp).1
    rw [Function.comp_apply, hzero, hfirst]
  intro env
  rw [enrichContext_eq, hsame]
  exact ⟨fun name => aprTableGet_foldl_set _ _ _, rfl⟩

/-- An expression that matches each byte `c` of a text. -/
def MatchRegex.byte (c : UInt8) : MatchRegex where
  expansions text format := (text.filter (· = c)).map fun _ => format

/-- A directive whose expression matches the query string twice: the value is set twice over. -/
theorem enrichContext_two_matches :
    let ctx : MigrateEnv := ⟨str "V", .byte 97, str "1", .queryString⟩
    let conf : MigrateConf := { mDirName := some [], mEnvLists := [ctx] }
    let info : MigrateInfo := { mId := [], mArgs := str "aa" }
    Pair.firstMatch (ctx, info.mArgs) = str "1" ∧
      aprTableGet (enrichContext conf info []).1 (str "V") = some (str "11") ∧
      ¬ SetsFirstMatches conf info := by
  intro ctx conf info
  have hset : aprTableGet (enrichContext conf info []).1 (str "V") = some (str "11") := by decide
  have hwanted : lastFor (wanted conf info) (str "V") = some (str "1") := by decide
  refine ⟨by decide, hset, fun h => ?_⟩
  have hname := (h []).1 (str "V")
  rw [hset, hwanted, Option.some_or] at hname
  revert hname
  decide

end Migrate

end ModDup
