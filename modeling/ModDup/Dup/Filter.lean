import ModDup.Dup.Commands

/-!
# The filtering decision

For each destination of the location of a request, `matchesFilter` decides whether the request
is duplicated there and which filter says so; `processRequest` collects the matched filters and
records the decision in the headers of the answer (`src/RequestProcessor.cc`).

## Main definitions

* `parseArgs` : the pairs of a query string or of a form body.
* `keyFilterMatch`, `rawSearch`, `matchesFilter`, `RequestProcessor.processRequest`.
* `FilterMatches` : a filter of a destination matches a request, said without the order of
  the checks.

## Main results

* `matchesFilter_isSome_iff` : a filter is returned iff no filter prevents the duplication and
  some regular one matches.
* `matchesFilter_eq_some` : the filter returned is one that matches.
* `filtering_decision` : the same for all destinations of a location.
-/

namespace ModDup

open Bytes

/-- The pair of one token of a query string: the name in upper case, the value decoded. -/
def parseToken (u : UrlCodec) (lToken : Bytes) : KeyVal :=
  match find [61] lToken with
  | none => (toUpper lToken, [])
  | some lEqualPos => (toUpper (lToken.take lEqualPos), u.decode (lToken.drop (lEqualPos + 1)))

/-- `RequestProcessor::parseArgs`: the pairs it appends to its output list. -/
def parseArgs (u : UrlCodec) (pArgs : Bytes) : KeyValList := (tokens 38 pArgs).map (parseToken u)

/-! ### Key filters -/

/-- `ci_less`: lexicographic order of the strings in lower case. -/
def ciLess (s1 s2 : Bytes) : Bool := toLower s1 < toLower s2

/-- `tFiltersMap::equal_range`. -/
def equalRange (pFilters : FiltersMap) (key : Bytes) : FiltersMap :=
  pFilters.filter fun e => !ciLess e.1 key && !ciLess key e.1

/-- `RequestProcessor::keyFilterMatch`: the pairs in order and, for each, the filters on its
name; the filter found records the text of its expression. -/
def keyFilterMatch (pFilters : FiltersMap) (pParsedArgs : KeyValList) (scope : ApplicationScope)
    (fType : FilterTypes) : Option TFilter :=
  pParsedArgs.findSome? fun lKeyVal =>
    ((equalRange pFilters lKeyVal.1).find? fun it =>
      it.2.mScope.has scope && it.2.mFilterType = fType && it.2.mRegex.found lKeyVal.2).map
        fun it => { it.2 with mMatch := it.2.mRegex.str }

/-- `applicationOnMap`: how many filters look at the query string, the headers and the body. -/
def applicationOnMap (list : FiltersMap) : ℕ × ℕ × ℕ :=
  (list.countP fun f => f.2.mScope.has .queryString,
    list.countP fun f => f.2.mScope.has .headers,
    list.countP fun f => f.2.mScope.has .body)

/-- The check of one scope, made only when its counter is not zero. -/
def keyFilterOn (count : ℕ) (pFilters : FiltersMap) (pParsedArgs : KeyValList)
    (scope : ApplicationScope) (fType : FilterTypes) : Option TFilter :=
  if count ≠ 0 then keyFilterMatch pFilters pParsedArgs scope fType else none

/-- The body is parsed once, and only when some key filter looks at it. -/
def parseBodyOn (count : ℕ) (u : UrlCodec) (body : Bytes) : KeyValList :=
  if count ≠ 0 then parseArgs u body else []

/-! ### Raw filters -/

/-- The parts of a request a raw filter searches, in the order it does. -/
def rawParts (r : RequestInfo) : List (ApplicationScope × Bytes) :=
  [(.method, r.mMethod), (.path, r.mPath), (.queryString, r.mArgs),
    (.headers, RequestInfo.flatten r.mHeadersIn (str ": ")), (.body, r.mBody)]

/-- The first match of a raw filter, in the parts its scope selects. -/
def rawSearch (r : RequestInfo) (raw : TFilter) : Option Bytes :=
  (rawParts r).findSome? fun part =>
    if raw.mScope.has part.1 then raw.mRegex.search part.2 else none

/-- `RequestProcessor::matchesFilter`. -/
def matchesFilter (u : UrlCodec) (pRequest : RequestInfo) (pCommands : Commands) :
    Option TFilter :=
  let pFilters := pCommands.mFilters
  let (keyFilterOnQS, keyFilterOnHeader, keyFilterOnBody) := applicationOnMap pFilters
  let lParsedArgs := parseBodyOn keyFilterOnBody u pRequest.mBody
  let onQS := keyFilterOn keyFilterOnQS pFilters pRequest.mParsedArgs .queryString
  let onHeader := keyFilterOn keyFilterOnHeader pFilters pRequest.mHeadersIn .headers
  let onBody := keyFilterOn keyFilterOnBody pFilters lParsedArgs .body
  -- a filter that prevents the duplication wins, wherever it stands
  if (onQS .preventDuplication).isSome then none
  else if (onHeader .preventDuplication).isSome then none
  else if (onBody .preventDuplication).isSome then none
  else if pCommands.mRawFilters.any fun raw =>
    raw.mFilterType = .preventDuplication && (rawSearch pRequest raw).isSome then none
  else
    (onQS .regular).or <| (onHeader .regular).or <| (onBody .regular).or <|
      pCommands.mRawFilters.findSome? fun raw =>
        if raw.mFilterType ≠ .preventDuplication then
          (rawSearch pRequest raw).map fun what => { raw with mMatch := what }
        else none

/-! ### What it means for a filter to match -/

/-- A pair of `args` has the name `field`, ignoring case, and a value in which the expression
is found, and the filter looks at `scope`. -/
def KeyHit (args : KeyValList) (scope : ApplicationScope) (field : Bytes) (f : TFilter) : Prop :=
  f.mScope.has scope ∧ ∃ kv ∈ args, toLower kv.1 = toLower field ∧ f.mRegex.found kv.2

/-- A key filter on `field` matches the request, whose query string holds the pairs `args`. -/
def KeyMatches (u : UrlCodec) (args : KeyValList) (r : RequestInfo) (field : Bytes)
    (f : TFilter) : Prop :=
  KeyHit args .queryString field f ∨ KeyHit r.mHeadersIn .headers field f ∨
    KeyHit (parseArgs u r.mBody) .body field f

/-- A raw filter matches the request. -/
def RawMatches (r : RequestInfo) (f : TFilter) : Prop :=
  ∃ part ∈ rawParts r, f.mScope.has part.1 ∧ f.mRegex.found part.2

/-- A filter of the commands, of either kind, matches the request. -/
def FilterMatches (u : UrlCodec) (args : KeyValList) (r : RequestInfo) (c : Commands)
    (f : TFilter) : Prop :=
  (∃ field, (field, f) ∈ c.mFilters ∧ KeyMatches u args r field f) ∨
    (f ∈ c.mRawFilters ∧ RawMatches r f)

theorem FilterMatches.mem_filters {u : UrlCodec} {args : KeyValList} {r : RequestInfo}
    {c : Commands} {f : TFilter} (h : FilterMatches u args r c f) : f ∈ c.filters := by
  rcases h with ⟨field, hmem, -⟩ | ⟨hmem, -⟩
  · exact List.mem_append_left _ (List.mem_map_of_mem hmem)
  · exact List.mem_append_right _ hmem

theorem mem_equalRange {pFilters : FiltersMap} {key : Bytes} {e : Bytes × TFilter} :
    e ∈ equalRange pFilters key ↔ e ∈ pFilters ∧ toLower key = toLower e.1 := by
  have h : (!ciLess e.1 key && !ciLess key e.1) = true ↔ toLower key = toLower e.1 := by
    simp only [ciLess, Bool.and_eq_true, Bool.not_eq_eq_eq_not, Bool.not_true,
      decide_eq_false_iff_not, not_lt]
    exact ⟨fun h => le_antisymm h.1 h.2, fun h => ⟨h.le, h.ge⟩⟩
  rw [equalRange, List.mem_filter, h]

theorem keyFilterMatch_isSome_iff {pFilters : FiltersMap} {args : KeyValList}
    {scope : ApplicationScope} {fType : FilterTypes} :
    (keyFilterMatch pFilters args scope fType).isSome ↔
      ∃ field f, (field, f) ∈ pFilters ∧ f.mFilterType = fType ∧ KeyHit args scope field f := by
  simp only [keyFilterMatch, List.findSome?_isSome_iff, Option.isSome_map, List.find?_isSome,
    mem_equalRange, KeyHit, Bool.and_eq_true, decide_eq_true_eq, Prod.exists]
  constructor
  · rintro ⟨k, v, hkv, field, f, ⟨hmem, hname⟩, ⟨hscope, htype⟩, hfound⟩
    exact ⟨field, f, hmem, htype, hscope, k, v, hkv, hname, hfound⟩
  · rintro ⟨field, f, hmem, htype, hscope, k, v, hkv, hname, hfound⟩
    exact ⟨k, v, hkv, field, f, ⟨hmem, hname⟩, ⟨hscope, htype⟩, hfound⟩

theorem keyFilterMatch_eq_some {pFilters : FiltersMap} {args : KeyValList}
    {scope : ApplicationScope} {fType : FilterTypes} {g : TFilter}
    (h : keyFilterMatch pFilters args scope fType = some g) :
    ∃ field f, (field, f) ∈ pFilters ∧ f.mFilterType = fType ∧ KeyHit args scope field f ∧
      g = { f with mMatch := f.mRegex.str } := by
  obtain ⟨kv, hkv, hfind⟩ := List.exists_of_findSome?_eq_some h
  obtain ⟨⟨field, f⟩, hf, rfl⟩ := Option.map_eq_some_iff.1 hfind
  obtain ⟨hmem, hname⟩ := mem_equalRange.1 (List.mem_of_find?_eq_some hf)
  have hp := List.find?_some hf
  simp only [Bool.and_eq_true, decide_eq_true_eq] at hp
  exact ⟨field, f, hmem, hp.1.2, ⟨hp.1.1, kv, hkv, hname, hp.2⟩, rfl⟩

/-- The counters only spare work: where no filter looks at a scope, none matches there. -/
theorem keyFilterOn_countP (pFilters : FiltersMap) (args : KeyValList) (scope : ApplicationScope)
    (fType : FilterTypes) :
    keyFilterOn (pFilters.countP fun f => f.2.mScope.has scope) pFilters args scope fType =
      keyFilterMatch pFilters args scope fType := by
  unfold keyFilterOn
  split_ifs with hcount
  · rfl
  · symm
    rw [← Option.not_isSome_iff_eq_none, keyFilterMatch_isSome_iff]
    rintro ⟨field, f, hmem, -, hscope, -⟩
    exact hcount fun h0 => List.countP_eq_zero.1 h0 _ hmem hscope

/-- Nor does it matter that the body is not parsed when the counter is zero. -/
theorem keyFilterMatch_parseBodyOn (pFilters : FiltersMap) (u : UrlCodec) (body : Bytes)
    (scope : ApplicationScope) (fType : FilterTypes) :
    keyFilterMatch pFilters
        (parseBodyOn (pFilters.countP fun f => f.2.mScope.has scope) u body) scope fType =
      keyFilterMatch pFilters (parseArgs u body) scope fType := by
  rw [← keyFilterOn_countP pFilters (parseArgs u body), ← keyFilterOn_countP]
  unfold keyFilterOn parseBodyOn
  split_ifs <;> rfl

theorem rawSearch_isSome_iff {r : RequestInfo} {raw : TFilter} :
    (rawSearch r raw).isSome ↔ RawMatches r raw := by
  rw [rawSearch, List.findSome?_isSome_iff]
  refine exists_congr fun part => and_congr_right fun _ => ?_
  split_ifs with hscope
  · simp [hscope, Regex.found]
  · simp [hscope]

/-! ### The decision for one destination -/

/-- Some filter of type `fType` matches. -/
def SomeMatches (u : UrlCodec) (args : KeyValList) (r : RequestInfo) (c : Commands)
    (fType : FilterTypes) : Prop :=
  ∃ f, f.mFilterType = fType ∧ FilterMatches u args r c f

section Decision

variable {u : UrlCodec} {r : RequestInfo} {c : Commands}

theorem someMatches_iff (fType : FilterTypes) :
    SomeMatches u r.mParsedArgs r c fType ↔
      (keyFilterMatch c.mFilters r.mParsedArgs .queryString fType).isSome ∨
      (keyFilterMatch c.mFilters r.mHeadersIn .headers fType).isSome ∨
      (keyFilterMatch c.mFilters (parseArgs u r.mBody) .body fType).isSome ∨
      ∃ raw ∈ c.mRawFilters, raw.mFilterType = fType ∧ (rawSearch r raw).isSome := by
  simp only [keyFilterMatch_isSome_iff, rawSearch_isSome_iff]
  constructor
  · rintro ⟨f, htype, ⟨field, hmem, hqs | hhdr | hbody⟩ | ⟨hmem, hraw⟩⟩
    · exact .inl ⟨field, f, hmem, htype, hqs⟩
    · exact .inr (.inl ⟨field, f, hmem, htype, hhdr⟩)
    · exact .inr (.inr (.inl ⟨field, f, hmem, htype, hbody⟩))
    · exact .inr (.inr (.inr ⟨f, hmem, htype, hraw⟩))
  · rintro (⟨field, f, hmem, htype, hit⟩ | ⟨field, f, hmem, htype, hit⟩ |
      ⟨field, f, hmem, htype, hit⟩ | ⟨f, hmem, htype, hraw⟩)
    · exact ⟨f, htype, .inl ⟨field, hmem, .inl hit⟩⟩
    · exact ⟨f, htype, .inl ⟨field, hmem, .inr (.inl hit)⟩⟩
    · exact ⟨f, htype, .inl ⟨field, hmem, .inr (.inr hit)⟩⟩
    · exact ⟨f, htype, .inr ⟨hmem, hraw⟩⟩

/-- The regular part of `matchesFilter`, with the counters and the lazy parsing gone. -/
def regularMatch (u : UrlCodec) (r : RequestInfo) (c : Commands) : Option TFilter :=
  (keyFilterMatch c.mFilters r.mParsedArgs .queryString .regular).or <|
    (keyFilterMatch c.mFilters r.mHeadersIn .headers .regular).or <|
      (keyFilterMatch c.mFilters (parseArgs u r.mBody) .body .regular).or <|
        c.mRawFilters.findSome? fun raw =>
          if raw.mFilterType ≠ .preventDuplication then
            (rawSearch r raw).map fun what => { raw with mMatch := what }
          else none

open Classical in
/-- The checks in order amount to: nothing when a filter prevents, else the first regular
filter. -/
theorem matchesFilter_eq :
    matchesFilter u r c =
      if SomeMatches u r.mParsedArgs r c .preventDuplication then none
      else regularMatch u r c := by
  have hraw : (c.mRawFilters.any fun raw =>
      raw.mFilterType = .preventDuplication && (rawSearch r raw).isSome) = true ↔
      ∃ raw ∈ c.mRawFilters, raw.mFilterType = .preventDuplication ∧ (rawSearch r raw).isSome := by
    simp [List.any_eq_true]
  -- what is left is how the nested tests group
  simp only [matchesFilter, applicationOnMap, keyFilterOn_countP, keyFilterMatch_parseBodyOn,
    hraw, someMatches_iff, regularMatch]
  split_ifs <;> grind

theorem regularMatch_isSome_iff :
    (regularMatch u r c).isSome ↔ SomeMatches u r.mParsedArgs r c .regular := by
  have htype : ∀ raw : TFilter, raw.mFilterType ≠ .preventDuplication ↔
      raw.mFilterType = .regular := fun raw => by cases raw.mFilterType <;> simp
  simp only [regularMatch, Option.isSome_or, Bool.or_eq_true, someMatches_iff,
    List.findSome?_isSome_iff]
  refine or_congr Iff.rfl (or_congr Iff.rfl (or_congr Iff.rfl ?_))
  refine exists_congr fun raw => and_congr_right fun _ => ?_
  split_ifs with h
  · simp [(htype raw).1 h]
  · simp [mt (htype raw).2 h]

theorem matchesFilter_isSome_iff :
    (matchesFilter u r c).isSome ↔
      ¬ SomeMatches u r.mParsedArgs r c .preventDuplication ∧
        SomeMatches u r.mParsedArgs r c .regular := by
  rw [matchesFilter_eq]
  split_ifs with h
  · simp [h]
  · simp [h, regularMatch_isSome_iff]

/-- The filter returned is a regular one of the commands, and it matches; only the text it
records is new. -/
theorem matchesFilter_eq_some {g : TFilter} (h : matchesFilter u r c = some g) :
    ∃ f, f.mFilterType = .regular ∧ FilterMatches u r.mParsedArgs r c f ∧
      ∃ what, g = { f with mMatch := what } := by
  rw [matchesFilter_eq] at h
  split_ifs at h
  simp only [regularMatch, Option.or_eq_some_iff] at h
  rcases h with h | ⟨-, h | ⟨-, h | ⟨-, h⟩⟩⟩
  · obtain ⟨field, f, hmem, htype, hit, rfl⟩ := keyFilterMatch_eq_some h
    exact ⟨f, htype, .inl ⟨field, hmem, .inl hit⟩, _, rfl⟩
  · obtain ⟨field, f, hmem, htype, hit, rfl⟩ := keyFilterMatch_eq_some h
    exact ⟨f, htype, .inl ⟨field, hmem, .inr (.inl hit)⟩, _, rfl⟩
  · obtain ⟨field, f, hmem, htype, hit, rfl⟩ := keyFilterMatch_eq_some h
    exact ⟨f, htype, .inl ⟨field, hmem, .inr (.inr hit)⟩, _, rfl⟩
  · obtain ⟨f, hmem, hf⟩ := List.exists_of_findSome?_eq_some h
    split_ifs at hf with htype
    obtain ⟨what, hwhat, rfl⟩ := Option.map_eq_some_iff.1 hf
    have hreg : f.mFilterType = .regular := by cases hft : f.mFilterType <;> simp_all
    exact ⟨f, hreg, .inr ⟨hmem, rawSearch_isSome_iff.1 (by simp [hwhat])⟩, what, rfl⟩

theorem someMatches_perm {args : KeyValList} {c' : Commands} (hkey : c.mFilters.Perm c'.mFilters)
    (hraw : c.mRawFilters.Perm c'.mRawFilters) (fType : FilterTypes) :
    SomeMatches u args r c fType ↔ SomeMatches u args r c' fType := by
  simp only [SomeMatches, FilterMatches, hkey.mem_iff, hraw.mem_iff]

end Decision

/-! ### All destinations of a location -/

/-- Two destinations declare the same filters, possibly in another order. -/
def Commands.SameFilters (c c' : Commands) : Prop :=
  c.mFilters.Perm c'.mFilters ∧ c.mRawFilters.Perm c'.mRawFilters

/-- What `addValidationHeadersDup` says of one matched filter. -/
def filterLog (f : TFilter) : Bytes :=
  f.mScope.enumToString ++ str " filter: \"" ++ f.mRegex.str ++ str "\" matched: \"" ++ f.mMatch ++
    str "\" Destination: " ++ f.mDestination

/-- The text of the `X_DUP_LOG` header. -/
def xDupLog (matchedFilters : List TFilter) (numDestinations numFiltersAttempted : ℕ) : Bytes :=
  if matchedFilters ≠ [] then
    str "The request is duplicated, " ++
      (str " AND ").intercalate (matchedFilters.map filterLog)
  else
    str "The request is not duplicated, having found " ++ decimal numDestinations ++
      str " DupDestination(s) and attempted to match " ++ decimal numFiltersAttempted ++
      str " DupFilter or DupRawFilter"

/-- The headers `addValidationHeadersDup` appends. -/
def validationHeadersDup (matchedFilters : List TFilter)
    (numDestinations numFiltersAttempted : ℕ) : KeyValList :=
  (matchedFilters.map fun f => (str "X-MATCHED-PATTERN", f.mMatch)) ++
    [(str "X_DUP_LOG", xDupLog matchedFilters numDestinations numFiltersAttempted)]

/-- `RequestProcessor::addValidationHeadersDup`. -/
def addValidationHeadersDup (rInfo : RequestInfo) (matchedFilters : List TFilter)
    (numDestinations numFiltersAttempted : ℕ) : RequestInfo :=
  { rInfo with
    mHeadersOut := rInfo.mHeadersOut ++
      validationHeadersDup matchedFilters numDestinations numFiltersAttempted }

namespace RequestProcessor

/-- `RequestProcessor::processRequest`: the matched filters, and the request with the
validation headers. -/
def processRequest (p : RequestProcessor) (pRequest : RequestInfo) : List TFilter × RequestInfo :=
  match p.mCommands.get? pRequest.mConf with
  | none => ([], addValidationHeadersDup pRequest [] 0 0)
  | some lCommands =>
    let ret := lCommands.entries.filterMap fun itb => matchesFilter p.mUrlCodec pRequest itb.2
    let filtersAttempted :=
      (lCommands.entries.map fun itb => itb.2.mRawFilters.length + itb.2.mFilters.length).sum
    (ret, addValidationHeadersDup pRequest ret lCommands.entries.length filtersAttempted)

/-- The filter matched for destination `d` of the location of the request. -/
def matched? (p : RequestProcessor) (r : RequestInfo) (d : Bytes) : Option TFilter :=
  (p.commands? r.mConf d).bind fun c => matchesFilter p.mUrlCodec r c

/-- The destinations of the location of the request. -/
def destinations (p : RequestProcessor) (r : RequestInfo) : List Bytes :=
  ((p.mCommands.get? r.mConf).map OrdMap.keys).getD []

theorem nodup_destinations (p : RequestProcessor) (r : RequestInfo) : (p.destinations r).Nodup := by
  unfold destinations
  cases p.mCommands.get? r.mConf with
  | none => exact List.nodup_nil
  | some cbd => exact cbd.nodup_keys

theorem mem_destinations {p : RequestProcessor} {r : RequestInfo} {d : Bytes} :
    d ∈ p.destinations r ↔ (p.commands? r.mConf d).isSome := by
  unfold destinations commands?
  cases p.mCommands.get? r.mConf with
  | none => simp
  | some cbd =>
    simp only [Option.map_some, Option.getD_some, OrdMap.keys, List.mem_map, Option.bind_some,
      Option.isSome_iff_exists, OrdMap.get?_eq_some_iff]
    exact ⟨fun ⟨e, he, hd⟩ => ⟨e.2, hd ▸ he⟩, fun ⟨c, hc⟩ => ⟨(d, c), hc, rfl⟩⟩

theorem processRequest_fst (p : RequestProcessor) (r : RequestInfo) :
    (p.processRequest r).1 = (p.destinations r).filterMap (p.matched? r) := by
  unfold processRequest destinations matched? commands?
  cases hcbd : p.mCommands.get? r.mConf with
  | none => rfl
  | some cbd =>
    simp only [Option.map_some, Option.getD_some, OrdMap.keys, List.filterMap_map, Option.bind_some]
    refine List.filterMap_congr fun e he => ?_
    have hget : cbd.get? e.1 = some e.2 := OrdMap.get?_eq_some_iff.2 he
    simp [hget]

/-- In a configured server the filter matched for a destination names it. -/
theorem matched?_run {ops : List ConfOp} {r : RequestInfo} {d : Bytes} {g : TFilter}
    (h : (ConfState.run ops).proc.matched? r d = some g) :
    ConfState.FilterOk ((ConfState.run ops).confs r.mConf) d g := by
  obtain ⟨c, hc, hg⟩ := Option.bind_eq_some_iff.1 h
  obtain ⟨f, -, hmatch, what, rfl⟩ := matchesFilter_eq_some hg
  exact (ConfState.inv_run ops).filters _ _ _ hc f hmatch.mem_filters

theorem processRequest_destinations (ops : List ConfOp) (r : RequestInfo) :
    ((ConfState.run ops).proc.processRequest r).1.map TFilter.mDestination =
      ((ConfState.run ops).proc.destinations r).filter
        fun d => ((ConfState.run ops).proc.matched? r d).isSome := by
  rw [processRequest_fst]
  generalize (ConfState.run ops).proc.destinations r = ds
  induction ds with
  | nil => rfl
  | cons d ds ih =>
    cases hd : (ConfState.run ops).proc.matched? r d with
    | none => simp [hd, ih]
    | some g => simp [hd, ih, (matched?_run hd).1]

theorem forall₂_matched (p : RequestProcessor) (r : RequestInfo) (ds : List Bytes) :
    List.Forall₂ (fun d g =>
        ∃ c, p.commands? r.mConf d = some c ∧ matchesFilter p.mUrlCodec r c = some g)
      (ds.filter fun d => (p.matched? r d).isSome) (ds.filterMap (p.matched? r)) := by
  induction ds with
  | nil => exact .nil
  | cons d ds ih =>
    cases hd : p.matched? r d with
    | none => simpa [hd] using ih
    | some g =>
      have hg := Option.bind_eq_some_iff.1 hd
      simpa [hd] using ⟨hg, ih⟩

/-- The order of the declarations does not decide whether a destination matches. -/
theorem matched?_isSome_of_sameFilters {p p' : RequestProcessor} {r : RequestInfo} {d : Bytes}
    (hcodec : p'.mUrlCodec = p.mUrlCodec)
    (hrel : Option.Rel Commands.SameFilters (p.commands? r.mConf d) (p'.commands? r.mConf d)) :
    (p'.matched? r d).isSome ↔ (p.matched? r d).isSome := by
  unfold matched?
  generalize p.commands? r.mConf d = oc at hrel ⊢
  generalize p'.commands? r.mConf d = oc' at hrel ⊢
  cases hrel with
  | none => rfl
  | some h =>
    simp only [Option.bind_some, matchesFilter_isSome_iff, hcodec, someMatches_perm h.1 h.2]

end RequestProcessor

open RequestProcessor in
/-- **The filtering decision.**  For one destination: a filter is returned iff no filter
prevents the duplication and a regular one matches, and it is such a filter.  For a location:
one such filter for each destination that has one, in a configured server under its name, and
the order in which the filters were declared does not change which destinations these are. -/
theorem filtering_decision (p : RequestProcessor) (r : RequestInfo)
    (hargs : r.mParsedArgs = parseArgs p.mUrlCodec r.mArgs) :
    (∀ c : Commands,
      ((matchesFilter p.mUrlCodec r c).isSome ↔
        (¬ ∃ f, f.mFilterType = .preventDuplication ∧
          FilterMatches p.mUrlCodec (parseArgs p.mUrlCodec r.mArgs) r c f) ∧
        ∃ f, f.mFilterType = .regular ∧
          FilterMatches p.mUrlCodec (parseArgs p.mUrlCodec r.mArgs) r c f) ∧
      ∀ g, matchesFilter p.mUrlCodec r c = some g →
        ∃ f ∈ c.filters, f.mFilterType = .regular ∧
          FilterMatches p.mUrlCodec (parseArgs p.mUrlCodec r.mArgs) r c f ∧
          ∃ what, g = { f with mMatch := what }) ∧
    (∃ ds : List Bytes, ds.Nodup ∧
      (∀ d, d ∈ ds ↔
        ∃ c, p.commands? r.mConf d = some c ∧ (matchesFilter p.mUrlCodec r c).isSome) ∧
      List.Forall₂ (fun d g =>
        ∃ c, p.commands? r.mConf d = some c ∧ matchesFilter p.mUrlCodec r c = some g)
        ds (p.processRequest r).1 ∧
      ∀ ops, p = (ConfState.run ops).proc →
        (p.processRequest r).1.map TFilter.mDestination = ds) ∧
    (∀ p' : RequestProcessor, p'.mUrlCodec = p.mUrlCodec →
      (∀ d, Option.Rel Commands.SameFilters (p.commands? r.mConf d) (p'.commands? r.mConf d)) →
      ∀ d, (p'.matched? r d).isSome ↔ (p.matched? r d).isSome) := by
  refine ⟨fun c => ⟨?_, fun g hg => ?_⟩,
    ⟨(p.destinations r).filter fun d => (p.matched? r d).isSome, ?_, fun d => ?_, ?_, ?_⟩, ?_⟩
  · rw [← hargs]
    exact matchesFilter_isSome_iff
  · rw [← hargs]
    obtain ⟨f, htype, hmatch, what⟩ := matchesFilter_eq_some hg
    exact ⟨f, hmatch.mem_filters, htype, hmatch, what⟩
  · exact (p.nodup_destinations r).filter _
  · rw [List.mem_filter, mem_destinations, matched?]
    cases p.commands? r.mConf d <;> simp
  · rw [processRequest_fst]
    exact forall₂_matched p r _
  · rintro ops rfl
    exact processRequest_destinations ops r
  · exact fun p' hcodec hrel d => matched?_isSome_of_sameFilters hcodec (hrel d)

/-- A location with one raw filter on the query string and one that prevents. -/
def sampleOps : List ConfOp :=
  [.setCurrentDupDestination 1 (str "host"), .setCurrentDuplicationType 1 .completeRequest,
    .addRawFilter 1 (.literal (str "go")) .regular,
    .addFilter 1 (str "mode") (.literal (str "off")) .preventDuplication]

/-- A request of that location. -/
def sampleRequest : RequestInfo :=
  { RequestInfo.make (str "1") 0 with
    mConf := 1, mMethod := str "GET", mPath := str "/", mArgs := str "MODE=on&q=go"
    mParsedArgs := [(str "MODE", str "on"), (str "Q", str "go")] }

theorem filtering_decision_sample :
    (((ConfState.run sampleOps).proc.processRequest sampleRequest).1.map TFilter.mDestination =
      [str "host"]) ∧
    ∃ ds : List Bytes, ds.Nodup ∧
      ((ConfState.run sampleOps).proc.processRequest sampleRequest).1.map TFilter.mDestination =
        ds := by
  refine ⟨by decide +kernel, ?_⟩
  obtain ⟨-, ⟨ds, hnodup, -, -, hdest⟩, -⟩ :=
    filtering_decision (ConfState.run sampleOps).proc sampleRequest (by decide +kernel)
  exact ⟨ds, hnodup, hdest sampleOps rfl⟩

end ModDup
