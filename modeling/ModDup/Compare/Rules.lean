import ModDup.Lib.MapDiff
import ModDup.Compare.Filters

/-!
# The directives `HeaderList` and `BodyList`

The rules of a location are declared one directive at a time (`setHeaderList`, `setBodyList` in
`src/mod_compare.cc`).  The expressions for the body are kept in vectors and all of them apply.
Those for the headers are kept in maps by header name, filled with `std::map::insert`, which
leaves an entry that exists alone: of several rules on one header, the first is in force.

## Main definitions

* `setHeaderList`, `setBodyList` : the directives.
* `configureHeaders`, `configureBody` : a location after a list of directives.
* `declared` : the rules a list of directives declares.

## Main results

* `stopRegex_configureHeaders`, `ignoreRegex_configureHeaders` : what is kept of the rules.
* `merge_configureHeaders` : `MapCompare::merge` keeps the first rule too.
* `bodyRules_in_force` : for the body, every declared rule applies.
* `headerRules_in_force_iff` : when that is so for the headers.
-/

namespace ModDup

open Bytes

/-- The two types of a list. -/
inductive ListType where
  | stop
  | ignore
  deriving DecidableEq, Repr

/-- How the type is written. -/
def ListType.text : ListType → Bytes
  | .stop => str "STOP"
  | .ignore => str "IGNORE"

/-- `strcasecmp` returns zero. -/
def sameText (a b : Bytes) : Bool := toLower a = toLower b

/-! ### The directives -/

/-- `setHeaderList`: an error, or the location with the rule.  The expression is passed as it is
compiled, with its text. -/
def setHeaderList (conf : CompareConf) (pListType pAffectedKey : Bytes) (pValue : Regex) :
    Except Bytes CompareConf :=
  if pValue.str = [] then .error (str "Missing reg_ex value for the header")
  else if pAffectedKey = [] then .error (str "Missing header value")
  else if pListType = [] then .error (str "Missing the type list")
  else if sameText ListType.stop.text pListType then
    .ok { conf with mCompHeader := conf.mCompHeader.addStopRegex pAffectedKey pValue }
  else if sameText ListType.ignore.text pListType then
    .ok { conf with mCompHeader := conf.mCompHeader.addIgnoreRegex pAffectedKey pValue }
  else .error (str "Invalid value for the list type")

/-- `StringCompare::addStopRegex`. -/
def StringCompareBody.addStopRegex (c : StringCompareBody) (re : Regex) : StringCompareBody :=
  { c with mStopRegex := c.mStopRegex ++ [re] }

/-- `StringCompare::addIgnoreRegex`. -/
def StringCompareBody.addIgnoreRegex (c : StringCompareBody) (re : Regex) : StringCompareBody :=
  { c with mIgnoreRegex := c.mIgnoreRegex ++ [re] }

/-- `setBodyList`. -/
def setBodyList (conf : CompareConf) (pListType : Bytes) (pValue : Regex) :
    Except Bytes CompareConf :=
  if pValue.str = [] then .error (str "Missing reg_ex value for the body")
  else if pListType = [] then .error (str "Missing the type of list")
  else if sameText ListType.stop.text pListType then
    .ok { conf with mCompBody := conf.mCompBody.addStopRegex pValue }
  else if sameText ListType.ignore.text pListType then
    .ok { conf with mCompBody := conf.mCompBody.addIgnoreRegex pValue }
  else .error (str "Invalid value for the list type")

/-- A `HeaderList` or `CompareHeader` line. -/
structure HeaderLine where
  pListType : Bytes
  pAffectedKey : Bytes
  pValue : Regex

/-- A `BodyList` or `CompareBody` line. -/
structure BodyLine where
  pListType : Bytes
  pValue : Regex

/-- The location after its header lines; a line with an error leaves it as it was. -/
def configureHeaders (conf : CompareConf) (ds : List HeaderLine) : CompareConf :=
  ds.foldl (fun conf d =>
    match setHeaderList conf d.pListType d.pAffectedKey d.pValue with
    | .ok conf => conf
    | .error _ => conf) conf

/-- The location after its body lines. -/
def configureBody (conf : CompareConf) (ds : List BodyLine) : CompareConf :=
  ds.foldl (fun conf d =>
    match setBodyList conf d.pListType d.pValue with
    | .ok conf => conf
    | .error _ => conf) conf

/-- The line is a rule of type `t`. -/
def HeaderLine.declares (d : HeaderLine) (t : ListType) : Bool :=
  d.pValue.str ≠ [] ∧ d.pAffectedKey ≠ [] ∧ sameText t.text d.pListType

/-- The rules of type `t`, in the order of their declaration. -/
def declared (t : ListType) (ds : List HeaderLine) : List (Bytes × Regex) :=
  (ds.filter fun d => d.declares t).map fun d => (d.pAffectedKey, d.pValue)

/-- The line is a rule of type `t`. -/
def BodyLine.declares (d : BodyLine) (t : ListType) : Bool :=
  d.pValue.str ≠ [] ∧ sameText t.text d.pListType

/-- The expressions of type `t`, in the order of their declaration. -/
def declaredBody (t : ListType) (ds : List BodyLine) : List Regex :=
  (ds.filter fun d => d.declares t).map BodyLine.pValue

/-! ### What is kept -/

theorem not_sameText_nil (t : ListType) : sameText t.text [] = false := by
  cases t <;> decide

theorem sameText_stop_ignore {s : Bytes} (h : sameText ListType.stop.text s = true) :
    sameText ListType.ignore.text s = false := by
  rw [sameText, decide_eq_true_eq] at h
  rw [sameText, ← h]
  decide

theorem setHeaderList_cases (conf : CompareConf) (d : HeaderLine) :
    let r := setHeaderList conf d.pListType d.pAffectedKey d.pValue
    d.declares .stop = true ∧ d.declares .ignore = false ∧
        r = .ok { conf with
          mCompHeader := conf.mCompHeader.addStopRegex d.pAffectedKey d.pValue } ∨
      d.declares .stop = false ∧ d.declares .ignore = true ∧
        r = .ok { conf with
          mCompHeader := conf.mCompHeader.addIgnoreRegex d.pAffectedKey d.pValue } ∨
      d.declares .stop = false ∧ d.declares .ignore = false ∧ ∃ e, r = .error e := by
  obtain ⟨t, key, re⟩ := d
  simp only [setHeaderList, HeaderLine.declares]
  by_cases hre : re.str = []
  · simp [hre]
  by_cases hkey : key = []
  · simp [hre, hkey]
  by_cases ht : t = []
  · simp [hre, hkey, ht, not_sameText_nil]
  by_cases hstop : sameText ListType.stop.text t = true
  · simp [hre, hkey, ht, hstop, sameText_stop_ignore hstop]
  by_cases hignore : sameText ListType.ignore.text t = true
  · simp [hre, hkey, ht, hstop, hignore]
  · simp [hre, hkey, ht, hstop, hignore]

/-- The header rules after a list of lines: the first of each header, and nothing else has
changed. -/
theorem configureHeaders_eq (conf : CompareConf) (ds : List HeaderLine) :
    configureHeaders conf ds =
      { conf with
        mCompHeader :=
          { mStopRegex := conf.mCompHeader.mStopRegex.insertAll (declared .stop ds)
            mIgnoreRegex := conf.mCompHeader.mIgnoreRegex.insertAll (declared .ignore ds) } } := by
  induction ds generalizing conf with
  | nil => rfl
  | cons d ds ih =>
    have hcons : ∀ t, declared t (d :: ds) =
        (if d.declares t then [(d.pAffectedKey, d.pValue)] else []) ++ declared t ds := by
      intro t
      unfold declared
      by_cases h : d.declares t = true <;> simp [h]
    rw [hcons, hcons, configureHeaders, List.foldl_cons]
    rcases setHeaderList_cases conf d with ⟨h1, h2, h⟩ | ⟨h1, h2, h⟩ | ⟨h1, h2, e, h⟩
    · rw [h, h1, h2]
      exact ih _
    · rw [h, h1, h2]
      exact ih _
    · rw [h, h1, h2]
      exact ih _

theorem setBodyList_cases (conf : CompareConf) (d : BodyLine) :
    let r := setBodyList conf d.pListType d.pValue
    d.declares .stop = true ∧ d.declares .ignore = false ∧
        r = .ok { conf with mCompBody := conf.mCompBody.addStopRegex d.pValue } ∨
      d.declares .stop = false ∧ d.declares .ignore = true ∧
        r = .ok { conf with mCompBody := conf.mCompBody.addIgnoreRegex d.pValue } ∨
      d.declares .stop = false ∧ d.declares .ignore = false ∧ ∃ e, r = .error e := by
  obtain ⟨t, re⟩ := d
  simp only [setBodyList, BodyLine.declares]
  by_cases hre : re.str = []
  · simp [hre]
  by_cases ht : t = []
  · simp [hre, ht, not_sameText_nil]
  by_cases hstop : sameText ListType.stop.text t = true
  · simp [hre, ht, hstop, sameText_stop_ignore hstop]
  by_cases hignore : sameText ListType.ignore.text t = true
  · simp [hre, ht, hstop, hignore]
  · simp [hre, ht, hstop, hignore]

/-- The body rules after a list of lines: all of them. -/
theorem configureBody_eq (conf : CompareConf) (ds : List BodyLine) :
    configureBody conf ds =
      { conf with
        mCompBody :=
          { mStopRegex := conf.mCompBody.mStopRegex ++ declaredBody .stop ds
            mIgnoreRegex := conf.mCompBody.mIgnoreRegex ++ declaredBody .ignore ds } } := by
  induction ds generalizing conf with
  | nil => simp [configureBody, declaredBody]
  | cons d ds ih =>
    have hcons : ∀ t, declaredBody t (d :: ds) =
        (if d.declares t then [d.pValue] else []) ++ declaredBody t ds := by
      intro t
      unfold declaredBody
      by_cases h : d.declares t = true <;> simp [h]
    have happ : ∀ l : List Regex, ∀ a b, l ++ ([a] ++ b) = (l ++ [a]) ++ b :=
      fun l a b => (List.append_assoc l [a] b).symm
    rw [hcons, hcons, configureBody, List.foldl_cons]
    rcases setBodyList_cases conf d with ⟨h1, h2, h⟩ | ⟨h1, h2, h⟩ | ⟨h1, h2, e, h⟩
    · rw [h, h1, h2, if_pos rfl, happ]
      exact ih _
    · rw [h, h1, h2, if_pos rfl, happ]
      exact ih _
    · rw [h, h1, h2]
      exact ih _

theorem bodyRules_in_force (ds : List BodyLine) (s : Bytes) :
    let c := (configureBody {} ds).mCompBody
    (c.checkStopRegex s = true ↔ ∃ re ∈ declaredBody .stop ds, re.found s = true) ∧
      c.ignoreCases s = (declaredBody .ignore ds).foldl (fun s re => re.replace s []) s := by
  rw [configureBody_eq]
  exact ⟨List.any_eq_true, rfl⟩

/-! ### The rules of one header -/

/-- The rules of a header, in the order of their declaration. -/
def rulesOf (rules : List (Bytes × Regex)) (key : Bytes) : List Regex :=
  (rules.filter fun rule => rule.1 = key).map Prod.snd

theorem mem_rulesOf {rules : List (Bytes × Regex)} {key : Bytes} {re : Regex} :
    re ∈ rulesOf rules key ↔ (key, re) ∈ rules := by
  simp [rulesOf]

/-- A map filled with `insert` has the first rule of each header. -/
theorem get?_insertAll_empty (rules : List (Bytes × Regex)) (key : Bytes) :
    (OrdMap.empty.insertAll rules).get? key = (rulesOf rules key).head? := by
  rw [OrdMap.get?_insertAll, OrdMap.get?_empty, Option.none_or]
  induction rules with
  | nil => rfl
  | cons rule rules ih =>
    obtain ⟨k, re⟩ := rule
    rw [OrdMap.lookup_cons_ite, ih, rulesOf, rulesOf]
    by_cases h : key = k
    · rw [List.filter_cons_of_pos (by simp [h]), if_pos h]
      rfl
    · rw [List.filter_cons_of_neg (by simpa using Ne.symm h), if_neg h]

theorem stopRegex_configureHeaders (ds : List HeaderLine) (key : Bytes) :
    (configureHeaders {} ds).mCompHeader.mStopRegex.get? key =
      (rulesOf (declared .stop ds) key).head? := by
  rw [configureHeaders_eq]
  exact get?_insertAll_empty _ key

theorem ignoreRegex_configureHeaders (ds : List HeaderLine) (key : Bytes) :
    (configureHeaders {} ds).mCompHeader.mIgnoreRegex.get? key =
      (rulesOf (declared .ignore ds) key).head? := by
  rw [configureHeaders_eq]
  exact get?_insertAll_empty _ key

/-- `MapCompare::merge`. -/
def MapCompare.merge (c mc : MapCompare) : MapCompare where
  mStopRegex := c.mStopRegex.insertAll mc.mStopRegex.entries
  mIgnoreRegex := c.mIgnoreRegex.insertAll mc.mIgnoreRegex.entries

/-- Merging two locations is reading the lines of the second after those of the first. -/
theorem merge_configureHeaders (ds ds' : List HeaderLine) :
    (configureHeaders {} ds).mCompHeader.merge (configureHeaders {} ds').mCompHeader =
      (configureHeaders {} (ds ++ ds')).mCompHeader := by
  have happ : ∀ t, declared t (ds ++ ds') = declared t ds ++ declared t ds' := fun t => by
    rw [declared, List.filter_append, List.map_append]
    rfl
  simp only [configureHeaders_eq, MapCompare.merge, OrdMap.insertAll_entries, happ,
    OrdMap.insertAll_append]

/-! ### When all rules are in force -/

/-- Some declared STOP rule finds the value of its header. -/
def StopFound (ds : List HeaderLine) (map : MapStr) : Prop :=
  ∃ rule ∈ declared .stop ds, ∃ v, map.get? rule.1 = some v ∧ rule.2.found v = true

/-- The map after all declared IGNORE rules: from the value of a header that has rules they
remove what they match, one after the other, and with nothing left the header goes. -/
def ignoreAll (ds : List HeaderLine) (map : MapStr) : MapStr :=
  map.filterMap fun key value =>
    let res := rulesOf (declared .ignore ds) key
    let left := res.foldl (fun v re => re.replace v []) value
    if res ≠ [] ∧ left = [] then none else some left

/-- If a later STOP rule of a header finds its value, the first rule of some header does. -/
def StopCovered (ds : List HeaderLine) (map : MapStr) : Prop :=
  (∃ e ∈ map.entries, ∃ re ∈ (rulesOf (declared .stop ds) e.1).tail, re.found e.2 = true) →
    ∃ e ∈ map.entries, ∃ re ∈ (rulesOf (declared .stop ds) e.1).head?, re.found e.2 = true

/-- Where the first IGNORE rule of a header has been applied, its later rules remove nothing. -/
def IgnoreSettled (ds : List HeaderLine) (map : MapStr) : Prop :=
  ∀ e ∈ map.entries, ∀ re ∈ (rulesOf (declared .ignore ds) e.1).head?,
    (rulesOf (declared .ignore ds) e.1).tail.foldl (fun v re => re.replace v [])
      (re.replace e.2 []) = re.replace e.2 []

theorem checkStop_configureHeaders (ds : List HeaderLine) (map : MapStr) :
    (configureHeaders {} ds).mCompHeader.checkStop map = true ↔
      ∃ e ∈ map.entries, ∃ re ∈ (rulesOf (declared .stop ds) e.1).head?, re.found e.2 = true := by
  simp only [MapCompare.checkStop, stopRegex_configureHeaders, List.any_eq_true,
    Option.any_eq_true, Option.mem_def]

theorem stopFound_iff (ds : List HeaderLine) (map : MapStr) :
    StopFound ds map ↔
      ∃ e ∈ map.entries, ∃ re ∈ rulesOf (declared .stop ds) e.1, re.found e.2 = true := by
  constructor
  · rintro ⟨⟨key, re⟩, hmem, v, hv, hfound⟩
    exact ⟨(key, v), OrdMap.get?_eq_some_iff.1 hv, re, mem_rulesOf.2 hmem, hfound⟩
  · rintro ⟨⟨key, v⟩, he, re, hre, hfound⟩
    exact ⟨(key, re), mem_rulesOf.1 hre, v, OrdMap.get?_eq_some_iff.2 he, hfound⟩

theorem mem_rulesOf_iff_head_tail {l : List Regex} {re : Regex} :
    re ∈ l ↔ re ∈ l.head? ∨ re ∈ l.tail := by
  cases l with
  | nil => simp
  | cons a l => simp [eq_comm]

theorem checkStop_iff_stopFound_iff (ds : List HeaderLine) (map : MapStr) :
    ((configureHeaders {} ds).mCompHeader.checkStop map = true ↔ StopFound ds map) ↔
      StopCovered ds map := by
  rw [checkStop_configureHeaders, stopFound_iff]
  constructor
  · rintro h ⟨e, he, re, hre, hfound⟩
    exact h.2 ⟨e, he, re, mem_rulesOf_iff_head_tail.2 (.inr hre), hfound⟩
  · intro hcovered
    constructor
    · rintro ⟨e, he, re, hre, hfound⟩
      exact ⟨e, he, re, mem_rulesOf_iff_head_tail.2 (.inl hre), hfound⟩
    · rintro ⟨e, he, re, hre, hfound⟩
      rcases mem_rulesOf_iff_head_tail.1 hre with hfirst | hlater
      · exact ⟨e, he, re, hfirst, hfound⟩
      · exact hcovered ⟨e, he, re, hlater, hfound⟩

theorem applyIgnoreRegex_eq_ignoreAll_iff (ds : List HeaderLine) (map : MapStr) :
    (configureHeaders {} ds).mCompHeader.applyIgnoreRegex map = ignoreAll ds map ↔
      IgnoreSettled ds map := by
  rw [MapCompare.applyIgnoreRegex, ignoreAll, OrdMap.filterMap_eq_iff, IgnoreSettled]
  refine forall₂_congr fun e _ => ?_
  rw [ignoreRegex_configureHeaders]
  cases rulesOf (declared .ignore ds) e.1 with
  | nil => simp
  | cons re res =>
    simp only [List.head?_cons, List.foldl_cons, List.tail_cons, Option.mem_def,
      Option.some.injEq, forall_eq', ne_eq, reduceCtorEq, not_false_eq_true, true_and]
    split_ifs with h1 h2 h2
    · exact iff_of_true rfl (h2.trans h1.symm)
    · exact iff_of_false (by simp) fun h => h2 (h.trans h1)
    · exact iff_of_false (by simp) fun h => h1 (h.symm.trans h2)
    · rw [Option.some.injEq, eq_comm]

/-- The rules declared for the headers all apply to a map iff the first ones do their work: no
later STOP rule is needed, and no later IGNORE rule has anything left to remove. -/
theorem headerRules_in_force_iff (ds : List HeaderLine) (map : MapStr) :
    (((configureHeaders {} ds).mCompHeader.checkStop map = true ↔ StopFound ds map) ∧
        (configureHeaders {} ds).mCompHeader.applyIgnoreRegex map = ignoreAll ds map) ↔
      StopCovered ds map ∧ IgnoreSettled ds map := by
  rw [checkStop_iff_stopFound_iff, applyIgnoreRegex_eq_ignoreAll_iff]

/-- Two STOP rules on one header, and a value only the second one matches. -/
theorem second_header_rule_ignored :
    let ds : List HeaderLine :=
      [⟨str "STOP", str "Content-Type", .literal (str "text/css")⟩,
        ⟨str "STOP", str "Content-Type", .literal (str "image")⟩]
    let map := OrdMap.empty.set (str "Content-Type") (str "image/png")
    StopFound ds map ∧ (configureHeaders {} ds).mCompHeader.checkStop map = false := by
  refine ⟨⟨(str "Content-Type", .literal (str "image")), List.mem_map.2
    ⟨⟨str "STOP", str "Content-Type", .literal (str "image")⟩, List.mem_filter.2 ⟨?_, ?_⟩, rfl⟩,
    str "image/png", ?_, ?_⟩, ?_⟩
  · simp
  · decide
  · decide
  · decide
  · decide

end ModDup
