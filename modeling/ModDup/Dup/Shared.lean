import ModDup.Dup.Filter
import ModDup.Lib.Runs

/-!
# The filters are shared

`matchesFilter` returns a pointer to a filter of the configuration and leaves the text it matched
in the mutable field `mMatch` of that filter, from where `addValidationHeadersDup` reads it later
(`src/RequestProcessor.hh`, `src/RequestProcessor.cc`).  The configuration belongs to all workers,
so between the two another request can match the same filter.

`matchesFilter` of `Dup.Filter` returns the filter with its text; here it returns the place of the
filter and the text goes through a memory.  The two agree for a request alone.

## Main definitions

* `FilterPtr`, `Matches` : the address of a filter, and what `mMatch` holds at every address.
* `matchesFilterAt` : which filter is matched or prevents, and the text written to it.
* `processStep`, `processSteps` : `processRequest` as steps on the memory.
* `SameTexts` : where two requests match one raw filter, they match the same text.

## Main results

* `matchesFilter_eq_at`, `run_processSteps` : one request alone gets what `processRequest` gives.
* `annotations_private_iff` : what a second request can change.
-/

namespace ModDup

open Bytes Runs

/-! ### Places and texts -/

/-- Where a filter of a destination stands: in `mFilters` or in `mRawFilters`. -/
inductive FilterSlot where
  | key (i : ℕ)
  | raw (i : ℕ)
  deriving DecidableEq, Repr

/-- The address of a filter. -/
structure FilterPtr where
  conf : ℕ
  destination : Bytes
  slot : FilterSlot
  deriving DecidableEq, Repr

/-- What `mMatch` holds, for every filter. -/
abbrev Matches := FilterPtr → Bytes

/-- The filter at a place. -/
def Commands.filterAt (c : Commands) : FilterSlot → Option TFilter
  | .key i => c.mFilters[i]?.map Prod.snd
  | .raw i => c.mRawFilters[i]?

/-- The filter at a place, after `text` was written to it. -/
def Commands.load (c : Commands) (hit : FilterSlot × Bytes) : Option TFilter :=
  (c.filterAt hit.1).map fun f => { f with mMatch := hit.2 }

/-- `keyFilterMatch`: the place of the filter found, and the text written to it. -/
def keyFilterMatchAt (pFilters : FiltersMap) (pParsedArgs : KeyValList) (scope : ApplicationScope)
    (fType : FilterTypes) : Option (FilterSlot × Bytes) :=
  pParsedArgs.findSome? fun lKeyVal =>
    (pFilters.zipIdx.find? fun it =>
      (!ciLess it.1.1 lKeyVal.1 && !ciLess lKeyVal.1 it.1.1) &&
        (it.1.2.mScope.has scope && it.1.2.mFilterType = fType &&
          it.1.2.mRegex.found lKeyVal.2)).map
            fun it => (.key it.2, it.1.2.mRegex.str)

/-- The check of one scope, made only when its counter is not zero. -/
def keyFilterOnAt (count : ℕ) (pFilters : FiltersMap) (pParsedArgs : KeyValList)
    (scope : ApplicationScope) (fType : FilterTypes) : Option (FilterSlot × Bytes) :=
  if count ≠ 0 then keyFilterMatchAt pFilters pParsedArgs scope fType else none

/-- The regular raw filters in order: the place of the first that matches, and its match. -/
def rawFilterMatchAt (r : RequestInfo) (rawFilters : List TFilter) : Option (FilterSlot × Bytes) :=
  rawFilters.zipIdx.findSome? fun raw =>
    if raw.1.mFilterType ≠ .preventDuplication then
      (rawSearch r raw.1).map fun what => (.raw raw.2, what)
    else none

/-- What `matchesFilter` does: a key filter that prevents is written to as well, but not
returned. -/
inductive MatchOutcome where
  | noMatch
  | prevented (hit : FilterSlot × Bytes)
  | matched (hit : FilterSlot × Bytes)

namespace MatchOutcome

/-- The place written to, and the text. -/
def written : MatchOutcome → Option (FilterSlot × Bytes)
  | .noMatch => none
  | .prevented hit => some hit
  | .matched hit => some hit

/-- The place returned, and the text it holds then. -/
def returned : MatchOutcome → Option (FilterSlot × Bytes)
  | .matched hit => some hit
  | _ => none

theorem written_of_returned {o : MatchOutcome} {hit : FilterSlot × Bytes}
    (h : o.returned = some hit) : o.written = some hit := by
  cases o with
  | matched hit' => exact h
  | noMatch => cases h
  | prevented hit' => cases h

end MatchOutcome

/-- The key filters of one type, in the order of the scopes: query string, headers, body. -/
def keyFiltersAt (u : UrlCodec) (pRequest : RequestInfo) (pFilters : FiltersMap)
    (fType : FilterTypes) : Option (FilterSlot × Bytes) :=
  let (keyFilterOnQS, keyFilterOnHeader, keyFilterOnBody) := applicationOnMap pFilters
  let lParsedArgs := parseBodyOn keyFilterOnBody u pRequest.mBody
  (keyFilterOnAt keyFilterOnQS pFilters pRequest.mParsedArgs .queryString fType).or <|
    (keyFilterOnAt keyFilterOnHeader pFilters pRequest.mHeadersIn .headers fType).or <|
      keyFilterOnAt keyFilterOnBody pFilters lParsedArgs .body fType

/-- `RequestProcessor::matchesFilter`, with its effect on the filters. -/
def matchesFilterAt (u : UrlCodec) (pRequest : RequestInfo) (pCommands : Commands) :
    MatchOutcome :=
  match keyFiltersAt u pRequest pCommands.mFilters .preventDuplication with
  | some hit => .prevented hit
  | none =>
    -- a raw filter that prevents is not written to
    if pCommands.mRawFilters.any fun raw =>
      raw.mFilterType = .preventDuplication && (rawSearch pRequest raw).isSome then .noMatch
    else
      match (keyFiltersAt u pRequest pCommands.mFilters .regular).or <|
        rawFilterMatchAt pRequest pCommands.mRawFilters with
      | some hit => .matched hit
      | none => .noMatch

/-! ### The two forms of `matchesFilter` agree -/

theorem findSome?_eq_bind {α β γ : Type*} {f : α → Option β} {g : β → Option γ}
    {h : α → Option γ} {l : List α} (hh : ∀ a ∈ l, h a = (f a).bind g)
    (hg : ∀ a ∈ l, ∀ b, f a = some b → (g b).isSome) :
    l.findSome? h = (l.findSome? f).bind g := by
  induction l with
  | nil => rfl
  | cons a l ih =>
    have ih := ih (fun a ha => hh a (List.mem_cons_of_mem _ ha))
      fun a ha => hg a (List.mem_cons_of_mem _ ha)
    have ha := hh a List.mem_cons_self
    cases hf : f a with
    | none =>
      rw [hf, Option.bind_none] at ha
      rw [List.findSome?_cons_of_isNone (by simp [ha]),
        List.findSome?_cons_of_isNone (by simp [hf])]
      exact ih
    | some b =>
      obtain ⟨v, hv⟩ := Option.isSome_iff_exists.1 (hg a List.mem_cons_self b hf)
      rw [hf, Option.bind_some, hv] at ha
      simp [hf, ha, hv]

theorem keyFilterMatchAt_eq_some {pFilters : FiltersMap} {args : KeyValList}
    {scope : ApplicationScope} {fType : FilterTypes} {hit : FilterSlot × Bytes}
    (h : keyFilterMatchAt pFilters args scope fType = some hit) :
    ∃ i e, pFilters[i]? = some e ∧ hit = (.key i, e.2.mRegex.str) := by
  obtain ⟨kv, -, hfind⟩ := List.exists_of_findSome?_eq_some h
  obtain ⟨⟨e, i⟩, hf, rfl⟩ := Option.map_eq_some_iff.1 hfind
  exact ⟨i, e, List.mem_zipIdx_iff_getElem?.1 (List.mem_of_find?_eq_some hf), rfl⟩

theorem rawFilterMatchAt_eq_some {r : RequestInfo} {l : List TFilter} {hit : FilterSlot × Bytes}
    (h : rawFilterMatchAt r l = some hit) :
    ∃ i raw, l[i]? = some raw ∧ rawSearch r raw = some hit.2 ∧ hit.1 = .raw i := by
  obtain ⟨⟨raw, i⟩, hmem, hf⟩ := List.exists_of_findSome?_eq_some h
  split_ifs at hf
  obtain ⟨what, hwhat, rfl⟩ := Option.map_eq_some_iff.1 hf
  exact ⟨i, raw, List.mem_zipIdx_iff_getElem?.1 hmem, hwhat, rfl⟩

theorem load_key {c : Commands} {i : ℕ} {e : Bytes × TFilter} (h : c.mFilters[i]? = some e)
    (text : Bytes) : c.load (.key i, text) = some { e.2 with mMatch := text } := by
  simp [Commands.load, Commands.filterAt, h]

theorem load_raw {c : Commands} {i : ℕ} {raw : TFilter} (h : c.mRawFilters[i]? = some raw)
    (text : Bytes) : c.load (.raw i, text) = some { raw with mMatch := text } := by
  simp [Commands.load, Commands.filterAt, h]

theorem keyFilterMatch_eq_at (c : Commands) (args : KeyValList) (scope : ApplicationScope)
    (fType : FilterTypes) :
    keyFilterMatch c.mFilters args scope fType =
      (keyFilterMatchAt c.mFilters args scope fType).bind c.load := by
  refine findSome?_eq_bind (fun kv _ => ?_) fun kv _ hit hhit => ?_
  · -- the filters without their places
    have hl : c.mFilters.zipIdx.map Prod.fst = c.mFilters := List.zipIdx_map_fst 0 c.mFilters
    conv_lhs => rw [equalRange, List.find?_filter, ← hl, List.find?_map, Option.map_map]
    simp only [Option.bind_map, Function.comp_def, Bool.decide_and, Bool.decide_eq_true]
    cases hfind : c.mFilters.zipIdx.find? _ with
    | none => rfl
    | some it =>
      have hmem := List.mem_zipIdx_iff_getElem?.1 (List.mem_of_find?_eq_some hfind)
      exact (load_key hmem _).symm
  · obtain ⟨⟨e, i⟩, hfind, rfl⟩ := Option.map_eq_some_iff.1 hhit
    have hmem := List.mem_zipIdx_iff_getElem?.1 (List.mem_of_find?_eq_some hfind)
    rw [load_key hmem]
    rfl

theorem rawFilterMatch_eq_at (r : RequestInfo) (c : Commands) :
    (c.mRawFilters.findSome? fun raw =>
      if raw.mFilterType ≠ .preventDuplication then
        (rawSearch r raw).map fun what => { raw with mMatch := what }
      else none) = (rawFilterMatchAt r c.mRawFilters).bind c.load := by
  have hl : c.mRawFilters.zipIdx.map Prod.fst = c.mRawFilters :=
    List.zipIdx_map_fst 0 c.mRawFilters
  conv_lhs => rw [← hl, List.findSome?_map]
  refine findSome?_eq_bind ?_ ?_
  · rintro ⟨raw, i⟩ hmem
    have hget := List.mem_zipIdx_iff_getElem?.1 hmem
    simp only [Function.comp]
    split_ifs with htype
    · cases hs : rawSearch r raw with
      | none => rfl
      | some what => exact (load_raw hget what).symm
    · rfl
  · rintro ⟨raw, i⟩ hmem hit hhit
    have hget := List.mem_zipIdx_iff_getElem?.1 hmem
    simp only at hhit
    split_ifs at hhit
    obtain ⟨what, -, rfl⟩ := Option.map_eq_some_iff.1 hhit
    rw [load_raw hget]
    rfl

theorem keyFilterOn_eq_at (count : ℕ) (c : Commands) (args : KeyValList)
    (scope : ApplicationScope) (fType : FilterTypes) :
    keyFilterOn count c.mFilters args scope fType =
      (keyFilterOnAt count c.mFilters args scope fType).bind c.load := by
  unfold keyFilterOn keyFilterOnAt
  split_ifs
  · exact keyFilterMatch_eq_at c args scope fType
  · rfl

theorem isSome_load_keyFilterOnAt {count : ℕ} {c : Commands} {args : KeyValList}
    {scope : ApplicationScope} {fType : FilterTypes} :
    ((keyFilterOnAt count c.mFilters args scope fType).bind c.load).isSome =
      (keyFilterOnAt count c.mFilters args scope fType).isSome := by
  cases h : keyFilterOnAt count c.mFilters args scope fType with
  | none => rfl
  | some hit =>
    unfold keyFilterOnAt at h
    split_ifs at h
    obtain ⟨i, e, hget, rfl⟩ := keyFilterMatchAt_eq_some h
    rw [Option.bind_some, load_key hget]
    rfl

theorem or_bind {β γ : Type*} {g : β → Option γ} {x : Option β} (y : Option β)
    (h : (x.bind g).isSome = x.isSome) : (x.bind g).or (y.bind g) = (x.or y).bind g := by
  cases x with
  | none => rfl
  | some b =>
    obtain ⟨v, hv⟩ := Option.isSome_iff_exists.1 (h.trans rfl)
    rw [hv, Option.some_or, Option.some_or, hv]

/-- **The two forms of `matchesFilter` agree**: the filter returned is the one at the place
returned, with the text written there. -/
theorem matchesFilter_eq_at (u : UrlCodec) (r : RequestInfo) (c : Commands) :
    matchesFilter u r c = (matchesFilterAt u r c).returned.bind c.load := by
  simp only [matchesFilter, matchesFilterAt, keyFiltersAt, keyFilterOn_eq_at,
    isSome_load_keyFilterOnAt, rawFilterMatch_eq_at, or_bind _ isSome_load_keyFilterOnAt,
    Option.or_assoc]
  -- the scopes in which a filter may prevent, one after the other
  cases keyFilterOnAt _ c.mFilters r.mParsedArgs .queryString .preventDuplication with
  | some hit => rfl
  | none =>
    cases keyFilterOnAt _ c.mFilters r.mHeadersIn .headers .preventDuplication with
    | some hit => rfl
    | none =>
      cases keyFilterOnAt _ c.mFilters _ .body .preventDuplication with
      | some hit => rfl
      | none =>
        simp only [Option.isSome_none, Bool.false_eq_true, ↓reduceIte, Option.or_none]
        split_ifs
        · rfl
        · split
          next hit hreg => rw [hreg]; rfl
          next hreg => rw [hreg]; rfl

theorem keyFiltersAt_eq_some {u : UrlCodec} {r : RequestInfo} {pFilters : FiltersMap}
    {fType : FilterTypes} {hit : FilterSlot × Bytes}
    (h : keyFiltersAt u r pFilters fType = some hit) :
    ∃ i e, pFilters[i]? = some e ∧ hit = (.key i, e.2.mRegex.str) := by
  have hon : ∀ {count args scope}, keyFilterOnAt count pFilters args scope fType = some hit →
      ∃ i e, pFilters[i]? = some e ∧ hit = (.key i, e.2.mRegex.str) := by
    intro count args scope hat
    unfold keyFilterOnAt at hat
    split_ifs at hat
    exact keyFilterMatchAt_eq_some hat
  simp only [keyFiltersAt, Option.or_eq_some_iff] at h
  rcases h with h | ⟨-, h | ⟨-, h⟩⟩
  · exact hon h
  · exact hon h
  · exact hon h

/-- What is written, and where.  A raw filter is written to only when it is returned. -/
theorem written_cases {u : UrlCodec} {r : RequestInfo} {c : Commands} {hit : FilterSlot × Bytes}
    (h : (matchesFilterAt u r c).written = some hit) :
    (∃ i e, c.mFilters[i]? = some e ∧ hit = (.key i, e.2.mRegex.str)) ∨
      ∃ i raw, c.mRawFilters[i]? = some raw ∧ rawSearch r raw = some hit.2 ∧ hit.1 = .raw i ∧
        (matchesFilterAt u r c).returned = some hit := by
  unfold matchesFilterAt at h ⊢
  cases hprev : keyFiltersAt u r c.mFilters .preventDuplication with
  | some hit' =>
    rw [hprev] at h
    obtain rfl : hit' = hit := Option.some.inj h
    exact .inl (keyFiltersAt_eq_some hprev)
  | none =>
    rw [hprev] at h
    simp only at h ⊢
    split_ifs at h ⊢ with hraw
    · cases h
    · cases hreg : (keyFiltersAt u r c.mFilters .regular).or
          (rawFilterMatchAt r c.mRawFilters) with
      | none =>
        rw [hreg] at h
        cases h
      | some hit' =>
        rw [hreg] at h
        obtain rfl : hit' = hit := Option.some.inj h
        rcases Option.or_eq_some_iff.1 hreg with hkey | ⟨-, hat⟩
        · exact .inl (keyFiltersAt_eq_some hkey)
        · obtain ⟨i, raw, hget, hsearch, hslot⟩ := rawFilterMatchAt_eq_some hat
          exact .inr ⟨i, raw, hget, hsearch, hslot, rfl⟩

/-! ### One request, step by step -/

/-- Where `processRequest` of one request stands: the filters matched so far, as pointers, and
the headers of the answer. -/
structure ProcessState where
  ret : List FilterPtr := []
  mHeadersOut : KeyValList

/-- The steps of `processRequest` that touch the filters. -/
inductive ProcessStep where
  | matchesFilter (d : Bytes)
  | addValidationHeadersDup

namespace RequestProcessor

variable (p : RequestProcessor)

/-- What `matchesFilter` does for destination `d` of the location of the request. -/
def outcome (r : RequestInfo) (d : Bytes) : MatchOutcome :=
  ((p.commands? r.mConf d).map (matchesFilterAt p.mUrlCodec r)).getD .noMatch

/-- The filter returned for destination `d`, as a pointer. -/
def ptr? (r : RequestInfo) (d : Bytes) : Option FilterPtr :=
  (p.outcome r d).returned.map fun hit => ⟨r.mConf, d, hit.1⟩

/-- The filter at an address. -/
def load (mem : Matches) (ptr : FilterPtr) : Option TFilter :=
  (p.commands? ptr.conf ptr.destination).bind fun c => c.load (ptr.slot, mem ptr)

/-- The numbers of destinations and of filters that `processRequest` reports. -/
def attempted (r : RequestInfo) : ℕ × ℕ :=
  match p.mCommands.get? r.mConf with
  | none => (0, 0)
  | some lCommands => (lCommands.entries.length,
      (lCommands.entries.map fun itb => itb.2.mRawFilters.length + itb.2.mFilters.length).sum)

/-- One step of `processRequest` for the request `r`. -/
def processStep (r : RequestInfo) (s : ProcessState × Matches) :
    ProcessStep → ProcessState × Matches
  | .matchesFilter d =>
    ({ s.1 with ret := s.1.ret ++ (p.ptr? r d).toList },
      match (p.outcome r d).written with
      | none => s.2
      | some hit => Function.update s.2 ⟨r.mConf, d, hit.1⟩ hit.2)
  | .addValidationHeadersDup =>
    -- the texts are read here, from the filters
    ({ s.1 with
        mHeadersOut := s.1.mHeadersOut ++ validationHeadersDup
          (s.1.ret.filterMap (p.load s.2)) (p.attempted r).1 (p.attempted r).2 }, s.2)

/-- The steps of `processRequest`, in their order: all destinations, then the headers. -/
def processSteps (r : RequestInfo) : List ProcessStep :=
  (p.destinations r).map .matchesFilter ++ [.addValidationHeadersDup]

/-- The request before `processRequest`. -/
def processStart (r : RequestInfo) : ProcessState := { mHeadersOut := r.mHeadersOut }

/-- The step of request `r` at the destination of `ptr` writes `text` there. -/
def Writes (r : RequestInfo) (ptr : FilterPtr) (text : Bytes) : Prop :=
  ptr.conf = r.mConf ∧ (p.outcome r ptr.destination).written = some (ptr.slot, text)

/-- It returns `ptr`, with that text. -/
def Returns (r : RequestInfo) (ptr : FilterPtr) (text : Bytes) : Prop :=
  ptr.conf = r.mConf ∧ (p.outcome r ptr.destination).returned = some (ptr.slot, text)

end RequestProcessor

section Process

open RequestProcessor

variable {p : RequestProcessor} {r : RequestInfo}

theorem Returns.writes {ptr : FilterPtr} {text : Bytes} (h : p.Returns r ptr text) :
    p.Writes r ptr text := ⟨h.1, MatchOutcome.written_of_returned h.2⟩

/-- Every text a step leaves at `ptr` is the one it writes there, or was there before. -/
theorem processStep_mem (s : ProcessState × Matches) (e : ProcessStep) (ptr : FilterPtr) :
    (∃ text, p.Writes r ptr text ∧ (p.processStep r s e).2 ptr = text) ∨
      (p.processStep r s e).2 ptr = s.2 ptr := by
  cases e with
  | addValidationHeadersDup => exact .inr rfl
  | matchesFilter d =>
    simp only [processStep]
    cases hw : (p.outcome r d).written with
    | none => exact .inr rfl
    | some hit =>
      simp only [Function.update_apply]
      split_ifs with hptr
      · subst hptr
        exact .inl ⟨hit.2, ⟨rfl, hw⟩, rfl⟩
      · exact .inr rfl

theorem Writes.unique {ptr : FilterPtr} {t t' : Bytes} (h : p.Writes r ptr t)
    (h' : p.Writes r ptr t') : t' = t := by
  have heq := h'.2.symm.trans h.2
  simpa using heq

theorem processStep_keeps {ptr : FilterPtr} {text : Bytes} (h : p.Writes r ptr text)
    {s : ProcessState × Matches} (hs : s.2 ptr = text) (e : ProcessStep) :
    (p.processStep r s e).2 ptr = text := by
  rcases processStep_mem (p := p) (r := r) s e ptr with ⟨text', hw, htext⟩ | hsame
  · rw [htext, Writes.unique h hw]
  · rw [hsame, hs]

theorem matchesFilter_writes {ptr : FilterPtr} {text : Bytes} (h : p.Writes r ptr text)
    (s : ProcessState × Matches) :
    (p.processStep r s (.matchesFilter ptr.destination)).2 ptr = text := by
  obtain ⟨conf, d, slot⟩ := ptr
  obtain ⟨rfl, hw⟩ := h
  simp only [processStep]
  rw [hw]
  simp

/-- After the steps of a list of destinations: the filters matched, and the texts written. -/
theorem run_matchesFilter (ds : List Bytes) (w : ProcessState) (mem : Matches) :
    (run (p.processStep r) (w, mem) (ds.map .matchesFilter)).1 =
        { w with ret := w.ret ++ ds.filterMap (p.ptr? r) } ∧
      ∀ ptr text, p.Writes r ptr text → ptr.destination ∈ ds →
        (run (p.processStep r) (w, mem) (ds.map .matchesFilter)).2 ptr = text := by
  induction ds generalizing w mem with
  | nil => exact ⟨by simp, by simp⟩
  | cons d ds ih =>
    rw [List.map_cons, run_cons]
    obtain ⟨ihret, ihmem⟩ := ih (p.processStep r (w, mem) (.matchesFilter d)).1
      (p.processStep r (w, mem) (.matchesFilter d)).2
    constructor
    · rw [ihret]
      cases hptr : p.ptr? r d with
      | none => simp [processStep, hptr]
      | some ptr => simp [processStep, hptr]
    · intro ptr text hw hmem
      by_cases hds : ptr.destination ∈ ds
      · exact ihmem ptr text hw hds
      · -- the last time the destination is seen, nothing after it writes something else
        obtain rfl : ptr.destination = d := by simpa [hds] using hmem
        exact run_invariant (P := fun s : ProcessState × Matches => s.2 ptr = text)
          (G := fun _ => True) (fun s e hs _ => processStep_keeps hw hs e)
          (matchesFilter_writes hw (w, mem)) fun _ _ => trivial

theorem load_of_returns {ptr : FilterPtr} {text : Bytes} (h : p.Returns r ptr text)
    {mem : Matches} (hmem : mem ptr = text) : p.load mem ptr = p.matched? r ptr.destination := by
  obtain ⟨conf, d, slot⟩ := ptr
  obtain ⟨rfl, hret⟩ := h
  simp only [RequestProcessor.load, RequestProcessor.matched?, hmem]
  cases hc : p.commands? r.mConf d with
  | none => rfl
  | some c =>
    have hret : (matchesFilterAt p.mUrlCodec r c).returned = some (slot, text) := by
      simpa [RequestProcessor.outcome, hc] using hret
    rw [Option.bind_some, Option.bind_some, matchesFilter_eq_at, hret]
    rfl

theorem ptr?_eq_some {d : Bytes} {ptr : FilterPtr} (h : p.ptr? r d = some ptr) :
    ptr.destination = d ∧ ∃ text, p.Returns r ptr text := by
  obtain ⟨hit, hret, rfl⟩ := Option.map_eq_some_iff.1 h
  exact ⟨rfl, hit.2, rfl, hret⟩

theorem load_matched {mem : Matches} (ds : List Bytes)
    (hmem : ∀ ptr text, p.Writes r ptr text → ptr.destination ∈ ds → mem ptr = text) :
    (ds.filterMap (p.ptr? r)).filterMap (p.load mem) = ds.filterMap (p.matched? r) := by
  rw [List.filterMap_filterMap]
  refine List.filterMap_congr fun d hd => ?_
  cases hptr : p.ptr? r d with
  | none =>
    rw [Option.bind_none, RequestProcessor.matched?]
    cases hc : p.commands? r.mConf d with
    | none => rfl
    | some c =>
      have hret : (matchesFilterAt p.mUrlCodec r c).returned = none := by
        simpa [RequestProcessor.ptr?, RequestProcessor.outcome, hc] using hptr
      rw [Option.bind_some, matchesFilter_eq_at, hret]
      rfl
  | some ptr =>
    obtain ⟨rfl, text, hret⟩ := ptr?_eq_some hptr
    exact load_of_returns hret (hmem ptr text (Returns.writes hret) hd)

theorem processRequest_headersOut (p : RequestProcessor) (r : RequestInfo) :
    (p.processRequest r).2.mHeadersOut = r.mHeadersOut ++
      validationHeadersDup ((p.destinations r).filterMap (p.matched? r)) (p.attempted r).1
        (p.attempted r).2 := by
  rw [← processRequest_fst]
  unfold RequestProcessor.processRequest RequestProcessor.attempted
  cases p.mCommands.get? r.mConf with
  | none => rfl
  | some cbd => rfl

/-- **One request alone**: its steps give it the headers `processRequest` does, whatever the
filters held before. -/
theorem run_processSteps (p : RequestProcessor) (r : RequestInfo) (mem : Matches) :
    (run (p.processStep r) (processStart r, mem) (p.processSteps r)).1.mHeadersOut =
      (p.processRequest r).2.mHeadersOut := by
  obtain ⟨hret, hmem⟩ := run_matchesFilter (p := p) (r := r) (p.destinations r) (processStart r) mem
  rw [processSteps, run_append, run_cons, run_nil, processStep, processRequest_headersOut]
  have hnil : (processStart r).ret = [] := rfl
  simp only [hret, hnil, List.nil_append, load_matched _ hmem]
  rfl

end Process

/-! ### Two requests -/

/-- Where the two requests are returned the same raw filter, it matches the same text in both.
Key filters need no condition: what is written to them does not depend on the request. -/
def SameTexts (p : RequestProcessor) (r₁ r₂ : RequestInfo) : Prop :=
  r₁.mConf = r₂.mConf → ∀ d c i raw, p.commands? r₁.mConf d = some c →
    c.mRawFilters[i]? = some raw →
    (∃ t₁, (matchesFilterAt p.mUrlCodec r₁ c).returned = some (.raw i, t₁)) →
    (∃ t₂, (matchesFilterAt p.mUrlCodec r₂ c).returned = some (.raw i, t₂)) →
      rawSearch r₁ raw = rawSearch r₂ raw

section Two

open RequestProcessor

variable {p : RequestProcessor} {r r₁ r₂ : RequestInfo}

theorem Writes.commands {ptr : FilterPtr} {text : Bytes} (h : p.Writes r ptr text) :
    ∃ c, p.commands? r.mConf ptr.destination = some c ∧
      p.outcome r ptr.destination = matchesFilterAt p.mUrlCodec r c := by
  obtain ⟨-, hw⟩ := h
  unfold outcome at hw ⊢
  cases hc : p.commands? r.mConf ptr.destination with
  | none =>
    rw [hc] at hw
    cases hw
  | some c => exact ⟨c, rfl, rfl⟩

theorem SameTexts.writes_eq (h : SameTexts p r₁ r₂) {ptr : FilterPtr} {t₁ t₂ : Bytes}
    (h₁ : p.Returns r₁ ptr t₁) (h₂ : p.Writes r₂ ptr t₂) : t₂ = t₁ := by
  obtain ⟨c, hc, hout₁⟩ := Writes.commands (Returns.writes h₁)
  obtain ⟨c', hc', hout₂⟩ := Writes.commands h₂
  have hconf : r₁.mConf = r₂.mConf := h₁.1.symm.trans h₂.1
  obtain rfl : c = c' := Option.some.inj (hc.symm.trans (hconf ▸ hc'))
  have hret₁ := hout₁ ▸ h₁.2
  have hw₁ := MatchOutcome.written_of_returned hret₁
  have hw₂ := hout₂ ▸ h₂.2
  rcases written_cases hw₂ with ⟨i, e, hget, hhit⟩ | ⟨i, raw, hget, hsearch, hslot, hret₂⟩
  · -- a key filter: both write the text of its expression
    obtain ⟨hslot, rfl⟩ := Prod.mk.inj hhit
    rcases written_cases hw₁ with ⟨i', e', hget', hhit'⟩ | ⟨i', raw', -, -, hslot', -⟩
    · obtain ⟨hslot', rfl⟩ := Prod.mk.inj hhit'
      obtain rfl : i = i' := FilterSlot.key.inj (hslot.symm.trans hslot')
      rw [Option.some.inj (hget.symm.trans hget')]
    · cases hslot.symm.trans hslot'
  · -- a raw filter: the two searches find the same
    simp only at hsearch hslot
    have hsame := h hconf ptr.destination c i raw hc hget ⟨t₁, hslot ▸ hret₁⟩
      ⟨t₂, hslot ▸ hret₂⟩
    rcases written_cases hw₁ with ⟨i', e', -, hhit'⟩ | ⟨i', raw', hget', hsearch', hslot', -⟩
    · cases hslot.symm.trans (Prod.mk.inj hhit').1
    · obtain rfl : i = i' := FilterSlot.raw.inj (hslot.symm.trans hslot')
      obtain rfl : raw = raw' := Option.some.inj (hget.symm.trans hget')
      exact Option.some.inj (hsearch.symm.trans (hsame.symm.trans hsearch'))

/-- What the first request knows of the memory: the filters it was returned hold its texts. -/
def HoldsTexts (p : RequestProcessor) (r : RequestInfo) (w : ProcessState) (m m' : Matches) :
    Prop :=
  ∀ ptr ∈ w.ret, ∃ text, p.Returns r ptr text ∧ m ptr = text ∧ m' ptr = text

/-- Its own steps do the same in both memories, and keep this. -/
theorem holdsTexts_own {w : ProcessState} {m m' : Matches} (h : HoldsTexts p r w m m')
    (e : ProcessStep) :
    (p.processStep r (w, m) e).1 = (p.processStep r (w, m') e).1 ∧
      HoldsTexts p r (p.processStep r (w, m') e).1 (p.processStep r (w, m) e).2
        (p.processStep r (w, m') e).2 := by
  cases e with
  | addValidationHeadersDup =>
    refine ⟨?_, h⟩
    have hload : w.ret.filterMap (p.load m) = w.ret.filterMap (p.load m') := by
      refine List.filterMap_congr fun ptr hptr => ?_
      obtain ⟨text, hret, hm, hm'⟩ := h ptr hptr
      rw [load_of_returns hret hm, load_of_returns hret hm']
    simp only [processStep, hload]
  | matchesFilter d =>
    refine ⟨rfl, fun ptr hptr => ?_⟩
    rcases List.mem_append.1 hptr with hold | hnew
    · obtain ⟨text, hret, hm, hm'⟩ := h ptr hold
      have hw := Returns.writes hret
      exact ⟨text, hret, processStep_keeps hw hm _, processStep_keeps hw hm' _⟩
    · obtain ⟨rfl, text, hret⟩ := ptr?_eq_some (Option.mem_toList.1 hnew)
      have hw := Returns.writes hret
      exact ⟨text, hret, matchesFilter_writes hw _, matchesFilter_writes hw _⟩

/-- So do the steps of the other request, under the condition. -/
theorem holdsTexts_other (h : SameTexts p r₁ r₂) {w v : ProcessState} {m m' : Matches}
    (hw : HoldsTexts p r₁ w m m') (e : ProcessStep) :
    HoldsTexts p r₁ w (p.processStep r₂ (v, m) e).2 m' := by
  intro ptr hptr
  obtain ⟨text, hret, hm, hm'⟩ := hw ptr hptr
  refine ⟨text, hret, ?_, hm'⟩
  rcases processStep_mem (p := p) (r := r₂) (v, m) e ptr with ⟨text', hwrites, htext⟩ | hsame
  · rw [htext]
    exact h.writes_eq hret hwrites
  · rw [hsame]
    exact hm

theorem load_eq_some {ptr : FilterPtr} {text : Bytes} (h : p.Returns r ptr text) :
    ∃ f : TFilter, ∀ mem, p.load mem ptr = some { f with mMatch := mem ptr } := by
  obtain ⟨c, hc, hout⟩ := Writes.commands (Returns.writes h)
  have hw := hout ▸ MatchOutcome.written_of_returned h.2
  have hload : ∀ mem, p.load mem ptr = c.load (ptr.slot, mem ptr) := by
    intro mem
    rw [RequestProcessor.load, h.1, hc]
    rfl
  rcases written_cases hw with ⟨i, e, hget, hhit⟩ | ⟨i, raw, hget, -, hslot, -⟩
  · refine ⟨e.2, fun mem => ?_⟩
    rw [hload, (Prod.mk.inj hhit).1, load_key hget]
  · refine ⟨raw, fun mem => ?_⟩
    simp only at hslot
    rw [hload, hslot, load_raw hget]

theorem map_mMatch_load (ds : List Bytes) (mem : Matches) :
    ((ds.filterMap (p.ptr? r)).filterMap (p.load mem)).map TFilter.mMatch =
      (ds.filterMap (p.ptr? r)).map mem := by
  rw [List.map_filterMap, ← List.filterMap_eq_map]
  refine List.filterMap_congr fun ptr hptr => ?_
  obtain ⟨d, -, hd⟩ := List.mem_filterMap.1 hptr
  obtain ⟨-, text, hret⟩ := ptr?_eq_some hd
  obtain ⟨f, hf⟩ := load_eq_some hret
  simp [hf]

/-- The headers show all the texts. -/
theorem validationHeadersDup_inj {fs fs' : List TFilter} {n m n' m' : ℕ}
    (h : validationHeadersDup fs n m = validationHeadersDup fs' n' m') :
    fs.map TFilter.mMatch = fs'.map TFilter.mMatch := by
  have hpat := (List.append_inj' h rfl).1
  have := congrArg (List.map Prod.snd) hpat
  simpa [Function.comp_def] using this

theorem rawSearch_of_returned {c : Commands} {i : ℕ} {raw : TFilter} {text : Bytes}
    (hget : c.mRawFilters[i]? = some raw)
    (h : (matchesFilterAt p.mUrlCodec r c).returned = some (.raw i, text)) :
    rawSearch r raw = some text := by
  rcases written_cases (MatchOutcome.written_of_returned h) with
    ⟨i', e, -, hhit⟩ | ⟨i', raw', hget', hsearch, hslot, -⟩
  · cases (Prod.mk.inj hhit).1
  · obtain rfl : i = i' := FilterSlot.raw.inj hslot
    obtain rfl : raw = raw' := Option.some.inj (hget.symm.trans hget')
    exact hsearch

/-- The steps of the two requests when all filters are matched before any header is written. -/
def lateHeaders (p : RequestProcessor) (r₁ r₂ : RequestInfo) : List (ProcessStep ⊕ ProcessStep) :=
  ((p.destinations r₁).map ProcessStep.matchesFilter).map .inl ++
    ((p.destinations r₂).map ProcessStep.matchesFilter).map .inr ++
    [ProcessStep.addValidationHeadersDup].map .inl ++
    [ProcessStep.addValidationHeadersDup].map .inr

theorem interleaves_lateHeaders :
    Interleaves (p.processSteps r₁) (p.processSteps r₂) (lateHeaders p r₁ r₂) :=
  interleaves_append _ [ProcessStep.addValidationHeadersDup] _
    [ProcessStep.addValidationHeadersDup]

/-- The first request then reads the texts of the second, wherever both were returned the same
filter. -/
theorem run_lateHeaders (p : RequestProcessor) (r₁ r₂ : RequestInfo) (mem : Matches) :
    ∃ m : Matches,
      (run (together (p.processStep r₁) (p.processStep r₂)) (processStart r₁, processStart r₂, mem)
        (lateHeaders p r₁ r₂)).1.mHeadersOut = r₁.mHeadersOut ++ validationHeadersDup
          (((p.destinations r₁).filterMap (p.ptr? r₁)).filterMap (p.load m)) (p.attempted r₁).1
          (p.attempted r₁).2 ∧
      ∀ ptr text, p.Writes r₂ ptr text → ptr.destination ∈ p.destinations r₂ → m ptr = text := by
  obtain ⟨hworker, -⟩ :=
    run_matchesFilter (p := p) (r := r₁) (p.destinations r₁) (processStart r₁) mem
  set m₁ := (run (p.processStep r₁) (processStart r₁, mem)
    ((p.destinations r₁).map .matchesFilter)).2 with hm₁
  obtain ⟨-, htexts⟩ :=
    run_matchesFilter (p := p) (r := r₂) (p.destinations r₂) (processStart r₂) m₁
  refine ⟨_, ?_, htexts⟩
  simp only [lateHeaders, run_append, run_together_inl, run_together_inr, hworker, ← hm₁]
  rfl

/-- A raw filter that both requests are returned gives the second one away to the first, unless
the texts are the same. -/
theorem sameTexts_of_private {mem : Matches}
    (h : ∀ t, Interleaves (p.processSteps r₁) (p.processSteps r₂) t →
      (run (together (p.processStep r₁) (p.processStep r₂)) (processStart r₁, processStart r₂, mem)
        t).1.mHeadersOut = (p.processRequest r₁).2.mHeadersOut) : SameTexts p r₁ r₂ := by
  rintro hconf d c i raw hc hget ⟨t₁, hret₁⟩ ⟨t₂, hret₂⟩
  have hc₂ : p.commands? r₂.mConf d = some c := hconf ▸ hc
  -- both write to the same filter
  set ptr : FilterPtr := ⟨r₁.mConf, d, .raw i⟩ with hptr
  have hout₁ : p.Returns r₁ ptr t₁ := ⟨rfl, by simpa [outcome, hptr, hc] using hret₁⟩
  have hout₂ : p.Returns r₂ ptr t₂ := ⟨hconf, by simpa [outcome, hptr, hc₂] using hret₂⟩
  have hd₁ : d ∈ p.destinations r₁ := mem_destinations.2 (by rw [hc]; rfl)
  have hd₂ : d ∈ p.destinations r₂ := mem_destinations.2 (by rw [hc₂]; rfl)
  have hptr? : p.ptr? r₁ d = some ptr := by
    rw [ptr?, outcome, hc]
    simp [hret₁, hptr]
  have hmem : ptr ∈ (p.destinations r₁).filterMap (p.ptr? r₁) :=
    List.mem_filterMap.2 ⟨d, hd₁, hptr?⟩
  -- alone the first reads its own text, in the late order that of the second
  obtain ⟨-, htexts₁⟩ :=
    run_matchesFilter (p := p) (r := r₁) (p.destinations r₁) (processStart r₁) mem
  obtain ⟨m₂, hrun, htexts₂⟩ := run_lateHeaders p r₁ r₂ mem
  rw [h _ interleaves_lateHeaders, processRequest_headersOut, ← load_matched _ htexts₁] at hrun
  have hsame := validationHeadersDup_inj (List.append_cancel_left hrun)
  rw [map_mMatch_load, map_mMatch_load] at hsame
  have heq := List.map_inj_left.1 hsame ptr hmem
  rw [htexts₁ ptr t₁ (Returns.writes hout₁) hd₁,
    htexts₂ ptr t₂ (Returns.writes hout₂) hd₂] at heq
  rw [rawSearch_of_returned hget hret₁, rawSearch_of_returned hget hret₂, heq]

end Two

open RequestProcessor in
/-- **When the annotations of a request are its own.**  Whatever the filters held, every order of
the steps of two requests gives the first one the headers it gets alone iff no raw filter is
returned to both for different texts. -/
theorem annotations_private_iff (p : RequestProcessor) (r₁ r₂ : RequestInfo) (mem : Matches) :
    (∀ t, Interleaves (p.processSteps r₁) (p.processSteps r₂) t →
      (run (together (p.processStep r₁) (p.processStep r₂)) (processStart r₁, processStart r₂, mem)
        t).1.mHeadersOut = (p.processRequest r₁).2.mHeadersOut) ↔ SameTexts p r₁ r₂ := by
  refine ⟨sameTexts_of_private, fun h t ht => ?_⟩
  have hnone : HoldsTexts p r₁ (processStart r₁) mem mem := by
    intro ptr hptr
    cases hptr
  have halone : (run (together (p.processStep r₁) (p.processStep r₂))
      (processStart r₁, processStart r₂, mem) t).1 =
        (run (p.processStep r₁) (processStart r₁, mem) (t.filterMap Sum.getLeft?)).1 :=
    run_together_eq_alone (G := fun _ => True) (fun w m m' e hw => holdsTexts_own hw e)
      (fun w v m m' e hw _ => holdsTexts_other h hw e) (fun _ _ => trivial) hnone
  rw [halone, ht.1]
  exact run_processSteps p r₁ mem

/-- A location that duplicates every request with a query string. -/
def sharedOps : List ConfOp :=
  [.setCurrentDupDestination 1 (str "host"), .setCurrentDuplicationType 1 .completeRequest,
    .addRawFilter 1 .dotPlus .regular]

/-- A request of that location. -/
def sharedRequest (args : Bytes) : RequestInfo :=
  { RequestInfo.make (str "1") 0 with mConf := 1, mArgs := args }

/-- Both requests are matched before the headers of the first are written. -/
def sharedTrace : List (ProcessStep ⊕ ProcessStep) :=
  [.inl (.matchesFilter (str "host")), .inr (.matchesFilter (str "host")),
    .inl .addValidationHeadersDup, .inr .addValidationHeadersDup]

open RequestProcessor in
/-- The headers of the first request show the query string of the second. -/
theorem annotations_leak :
    let p := (ConfState.run sharedOps).proc
    let r₁ := sharedRequest (str "u=ann")
    let r₂ := sharedRequest (str "u=bob")
    Interleaves (p.processSteps r₁) (p.processSteps r₂) sharedTrace ∧
      (run (together (p.processStep r₁) (p.processStep r₂))
        (processStart r₁, processStart r₂, fun _ => []) sharedTrace).1.mHeadersOut.head? =
          some (str "X-MATCHED-PATTERN", str "u=bob") ∧
      (p.processRequest r₁).2.mHeadersOut.head? = some (str "X-MATCHED-PATTERN", str "u=ann") ∧
      (run (together (p.processStep r₁) (p.processStep r₂))
        (processStart r₁, processStart r₂, fun _ => []) sharedTrace).1.mHeadersOut ≠
          (p.processRequest r₁).2.mHeadersOut := by
  refine ⟨⟨rfl, rfl⟩, by decide +kernel, by decide +kernel, by decide +kernel⟩

end ModDup
