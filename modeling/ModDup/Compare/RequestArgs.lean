import ModDup.Compare.Printer
import ModDup.Dup.Filter

/-!
# The request arguments of a JSON record

`jsonDiffPrinter::addRequestUri` takes the query string and the body apart by hand
(`src/libws_diff/DiffPrinter/jsonDiffPrinter.cc`), where `RequestProcessor::parseArgs` uses a
tokenizer.  The two differ on empty tokens, on tokens without `=`, and on a URI without `?`, all
of which the printer takes for a query string.

## Main definitions

* `queryText`, `requestTokens` : the query string, the tokens of a request.
* `recordTokens` : the pieces the printer records.
* `RequestArgs` : the arguments of the record are those of the request.

## Main results

* `lookup_args_addRequestUri` : the arguments of a record, from its pieces.
* `request_args_iff` : when they are those of the request.
-/

namespace ModDup

open Bytes

/-! ### The arguments of a request -/

/-- The text after the first `?`. -/
def queryText (uri : Bytes) : Bytes := (uri.dropWhile (· ≠ 63)).tail

/-- The tokens of the query string and of the body. -/
def requestTokens (uri paramsBody : Bytes) : List Bytes :=
  tokens 38 (queryText uri) ++ tokens 38 paramsBody

/-- The name of a token. -/
def argName (token : Bytes) : Bytes := toUpper (token.takeWhile (· ≠ 61))

/-- The raw value of a token, empty without `=`. -/
def argValue (token : Bytes) : Bytes := (token.dropWhile (· ≠ 61)).tail

/-- The last token of a name. -/
def lastNamed (tokens : List Bytes) (name : Bytes) : Option Bytes :=
  (tokens.filter fun t => argName t = name).getLast?

/-- The pieces that are recorded: of the query string, or of the URI if it has none, then of the
body. -/
def recordTokens (uri paramsBody : Bytes) : List Bytes :=
  (if 63 ∈ uri then queryText uri else uri).splitOn 38 ++
    if paramsBody ≠ [] then paramsBody.splitOn 38 else []

/-- `mJsonRes["request"]["args"]`. -/
def DiffPrinter.args (p : DiffPrinter) : Json := p.mJsonRes.atPath [str "request", str "args"]

/-- The request arguments in the record of `p` are those of the request: one member for each name
of a token, with the value of the last token of that name. -/
structure RequestArgs (p : DiffPrinter) (uri paramsBody : Bytes) : Prop where
  url : p.mJsonRes.atPath [str "request", str "url"] = .string (uri.takeWhile (· ≠ 63))
  nodup : (p.args.members.map Prod.fst).Nodup
  value : ∀ name, p.args.members.lookup name =
    (lastNamed (requestTokens uri paramsBody) name).map fun t => .string (argValue t)
  names : ∀ u name, p.args.isMember name = true ↔
    name ∈ (parseArgs u (queryText uri) ++ parseArgs u paramsBody).map Prod.fst

theorem find_singleton_of_mem {x : UInt8} {s : Bytes} (h : x ∈ s) :
    ∃ pos, find [x] s = some pos ∧ s.take pos = s.takeWhile (· ≠ x) ∧
      s.drop (pos + 1) = (s.dropWhile (· ≠ x)).tail := by
  obtain ⟨a, b, rfl, ha⟩ := List.eq_append_cons_of_mem h
  have hkeep : ∀ c ∈ a, decide (c ≠ x) = true := fun c hc => by
    simpa using fun hcx : c = x => ha (hcx ▸ hc)
  refine ⟨a.length, find_singleton b ha, ?_, ?_⟩
  · rw [List.takeWhile_append_of_pos hkeep]
    simp
  · rw [List.dropWhile_append_of_pos hkeep]
    simp

theorem takeWhile_of_not_mem {x : UInt8} {s : Bytes} (h : x ∉ s) :
    s.takeWhile (· ≠ x) = s :=
  List.takeWhile_eq_self_iff.2 fun c hc => by simpa using fun hcx : c = x => h (hcx ▸ hc)

theorem requestArg_eq (t : Bytes) :
    DiffPrinter.requestArg t = (argName t, if 61 ∈ t then argValue t else t) := by
  unfold DiffPrinter.requestArg argName argValue
  split_ifs with h
  · obtain ⟨pos, hpos, htake, hdrop⟩ := find_singleton_of_mem h
    simp only [hpos, htake, hdrop]
  · rw [find_singleton_eq_none h, takeWhile_of_not_mem h]

theorem parseToken_fst (u : UrlCodec) (t : Bytes) : (parseToken u t).1 = argName t := by
  unfold parseToken argName
  by_cases h : 61 ∈ t
  · obtain ⟨pos, hpos, htake, -⟩ := find_singleton_of_mem h
    simp only [hpos, htake]
  · rw [find_singleton_eq_none h, takeWhile_of_not_mem h]

/-! ### The arguments of a record -/

namespace Json

theorem lookup_foldl_setMember {α : Type} (key : α → Bytes) (val : α → Json) (l : List α) (j : Json)
    (k : Bytes) :
    (l.foldl (fun j a => j.setMember (key a) (val a)) j).members.lookup k =
      ((l.filter fun a => key a = k).getLast?.map val).or (j.members.lookup k) := by
  induction l generalizing j with
  | nil => rfl
  | cons a l ih =>
    rw [List.foldl_cons, ih, lookup_setMember]
    by_cases hk : k = key a
    · rw [if_pos hk, List.filter_cons_of_pos (by simpa using hk.symm), List.getLast?_cons]
      cases (l.filter fun a => key a = k).getLast? <;> rfl
    · rw [if_neg hk, List.filter_cons_of_neg (by simpa using Ne.symm hk)]

theorem nodup_setMember {j : Json} (h : (j.members.map Prod.fst).Nodup) (key : Bytes) (v : Json) :
    ((j.setMember key v).members.map Prod.fst).Nodup := by
  cases hmem : j.isMember key with
  | true =>
    have hkeys : (j.setMember key v).members.map Prod.fst = j.members.map Prod.fst := by
      rw [setMember, if_pos hmem, members, List.map_map]
      refine List.map_congr_left fun e _ => ?_
      simp only [Function.comp_apply]
      split_ifs with he
      · exact he.symm
      · rfl
    rwa [hkeys]
  | false =>
    have hkey : key ∉ j.members.map Prod.fst := fun hmem' => by
      obtain ⟨e, he, rfl⟩ := List.mem_map.1 hmem'
      have := List.lookup_eq_none_iff.1 (lookup_of_not_isMember hmem) e he
      simp at this
    rw [setMember_of_not_isMember hmem, members, List.map_append, List.map_singleton]
    refine List.nodup_append.2 ⟨h, List.nodup_singleton key, fun a ha b hb hab => hkey ?_⟩
    rw [hab, List.mem_singleton.1 hb] at ha
    exact ha

theorem nodup_foldl_setMember {α : Type} (key : α → Bytes) (val : α → Json) (l : List α) {j : Json}
    (h : (j.members.map Prod.fst).Nodup) :
    ((l.foldl (fun j a => j.setMember (key a) (val a)) j).members.map Prod.fst).Nodup := by
  induction l generalizing j with
  | nil => exact h
  | cons a l ih => exact ih (nodup_setMember h _ _)

end Json

namespace DiffPrinter

/-- The value the printer gives a piece. -/
def recordValue (t : Bytes) : Json := .string (if 61 ∈ t then argValue t else t)

theorem args_addArgs (p : DiffPrinter) (params : Bytes) :
    (p.addArgs params).args =
      (params.splitOn 38).foldl (fun j t => j.setMember (argName t) (recordValue t)) p.args := by
  unfold addArgs
  induction params.splitOn 38 generalizing p with
  | nil => rfl
  | cons t ts ih =>
    rw [List.foldl_cons, List.foldl_cons, ih]
    congr 1
    rw [requestArg_eq]
    exact Json.atPath_assign_append _ [str "request", str "args"] [argName t] _

theorem url_addArgs (p : DiffPrinter) (params : Bytes) :
    (p.addArgs params).mJsonRes.atPath [str "request", str "url"] =
      p.mJsonRes.atPath [str "request", str "url"] :=
  foldl_keeps (fun p => p.mJsonRes.atPath [str "request", str "url"]) _
    (fun p t => Json.atPath_assign_of_ne _ (str "request") (by decide) [(requestArg t).1] [] _) p

/-- What both printers of JSON do with a URI. -/
theorem addRequestUri_eq {p : DiffPrinter} (hk : p.kind ≠ .multiline) (uri paramsBody : Bytes) :
    p.addRequestUri uri paramsBody =
      let q := ((p.assign [str "request", str "uri"] (.string uri)).assign
        [str "request", str "url"] (.string (uri.takeWhile (· ≠ 63)))).addArgs
          (if 63 ∈ uri then queryText uri else uri)
      if paramsBody ≠ [] then q.addArgs paramsBody else q := by
  unfold addRequestUri
  by_cases h : 63 ∈ uri
  · obtain ⟨pivot, hpivot, htake, hdrop⟩ := find_singleton_of_mem h
    cases hkind : p.kind with
    | multiline => exact absurd hkind hk
    | json => simp only [hpivot, htake, hdrop, queryText, if_pos h]
    | utf8json => simp only [hpivot, htake, hdrop, queryText, if_pos h]
  · cases hkind : p.kind with
    | multiline => exact absurd hkind hk
    | json => simp only [find_singleton_eq_none h, takeWhile_of_not_mem h, if_neg h]
    | utf8json => simp only [find_singleton_eq_none h, takeWhile_of_not_mem h, if_neg h]

theorem args_addRequestUri {p : DiffPrinter} (hk : p.kind ≠ .multiline) (uri paramsBody : Bytes) :
    (p.addRequestUri uri paramsBody).args = (recordTokens uri paramsBody).foldl
      (fun j t => j.setMember (argName t) (recordValue t)) p.args := by
  have hargs : ((p.assign [str "request", str "uri"] (.string uri)).assign
      [str "request", str "url"] (.string (uri.takeWhile (· ≠ 63)))).args = p.args := by
    simp only [args, assign]
    rw [Json.atPath_assign_of_ne _ _ (by decide), Json.atPath_assign_of_ne _ _ (by decide)]
  rw [addRequestUri_eq hk, recordTokens, List.foldl_append]
  dsimp only
  split_ifs <;> simp only [args_addArgs, hargs, List.foldl_nil]

theorem url_addRequestUri {p : DiffPrinter} (hk : p.kind ≠ .multiline) (uri paramsBody : Bytes) :
    (p.addRequestUri uri paramsBody).mJsonRes.atPath [str "request", str "url"] =
      .string (uri.takeWhile (· ≠ 63)) := by
  rw [addRequestUri_eq hk]
  dsimp only
  split_ifs <;> simp only [url_addArgs, assign, Json.atPath_assign]

/-- **The arguments of a record**: each name of a piece, with the value of the last such piece. -/
theorem lookup_args_addRequestUri {p : DiffPrinter} (hk : p.kind ≠ .multiline)
    (hnew : p.args.members = []) (uri paramsBody name : Bytes) :
    (p.addRequestUri uri paramsBody).args.members.lookup name =
      (lastNamed (recordTokens uri paramsBody) name).map recordValue := by
  rw [args_addRequestUri hk, Json.lookup_foldl_setMember, hnew, List.lookup_nil, Option.or_none]
  rfl

end DiffPrinter

open DiffPrinter

/-! ### The two readings -/

theorem lastNamed_eq_some_mem {ts : List Bytes} {name t : Bytes} (h : lastNamed ts name = some t) :
    t ∈ ts ∧ argName t = name := by
  have hmem := List.mem_of_getLast? h
  simpa using hmem

theorem lastNamed_isSome_iff {ts : List Bytes} {name : Bytes} :
    (lastNamed ts name).isSome ↔ ∃ t ∈ ts, argName t = name := by
  rw [lastNamed, List.getLast?_isSome, ne_eq, List.filter_eq_nil_iff]
  simp

/-- The tokens of the request are the pieces without the first ones, where these are those of a
URI without `?`, and without the empty ones. -/
theorem recordTokens_split (uri paramsBody : Bytes) :
    ∃ front back, recordTokens uri paramsBody = front ++ back ∧
      requestTokens uri paramsBody = back.filter (· ≠ []) := by
  set pieces := if paramsBody ≠ [] then paramsBody.splitOn 38 else [] with hpieces
  have hbody : tokens 38 paramsBody = pieces.filter (· ≠ []) := by
    rw [hpieces]
    split_ifs with h
    · rfl
    · rw [not_not.1 h]
      rfl
  by_cases h : 63 ∈ uri
  · refine ⟨[], (queryText uri).splitOn 38 ++ pieces, ?_, ?_⟩
    · rw [recordTokens, if_pos h, List.nil_append]
    · rw [requestTokens, hbody, List.filter_append]
      rfl
  · have hquery : queryText uri = [] := by
      rw [queryText, List.dropWhile_eq_nil_iff.2 fun c hc => by
        simpa using fun hc63 : c = 63 => h (hc63 ▸ hc)]
      rfl
    refine ⟨uri.splitOn 38, pieces, ?_, ?_⟩
    · rw [recordTokens, if_neg h]
    · rw [requestTokens, hquery, hbody]
      rfl

theorem mem_recordTokens {uri paramsBody t : Bytes} (h : t ∈ requestTokens uri paramsBody) :
    t ∈ recordTokens uri paramsBody ∧ t ≠ [] := by
  obtain ⟨front, back, hrec, hreq⟩ := recordTokens_split uri paramsBody
  rw [hreq, List.mem_filter] at h
  rw [hrec]
  exact ⟨List.mem_append_right front h.1, by simpa using h.2⟩

/-- A token that is the last piece of its name is the last token of it, if there is one. -/
theorem lastNamed_requestTokens {uri paramsBody name t t' : Bytes}
    (ht : lastNamed (recordTokens uri paramsBody) name = some t)
    (ht' : lastNamed (requestTokens uri paramsBody) name = some t') (hne : t ≠ []) : t' = t := by
  obtain ⟨front, back, hrec, hreq⟩ := recordTokens_split uri paramsBody
  rw [hrec, lastNamed, List.filter_append] at ht
  rw [hreq, lastNamed, List.filter_comm] at ht'
  -- what is left of the pieces of that name is not empty, so `t` is the last of them
  have hmem := (List.mem_filter.1 (List.mem_of_getLast? ht')).1
  obtain ⟨l, b, hl⟩ := List.eq_nil_or_concat' _ |>.resolve_left (List.ne_nil_of_mem hmem)
  rw [hl, ← List.append_assoc, List.getLast?_concat] at ht
  obtain rfl := Option.some.inj ht
  rw [hl, List.filter_append, List.filter_cons_of_pos (by simpa using hne), List.filter_nil,
    List.getLast?_concat] at ht'
  exact (Option.some.inj ht').symm

theorem argName_nil_value {t : Bytes} (hne : t ≠ []) (hname : argName t = []) :
    t = 61 :: argValue t := by
  obtain ⟨c, s, rfl⟩ := List.exists_cons_of_ne_nil hne
  have hhead : ¬ (c ≠ 61) := fun hc => by
    simp [argName, toUpper, hc] at hname
  obtain rfl := not_not.1 hhead
  simp [argValue]

/-- **When the record has the arguments of the request.**  The last piece of a name has to be the
last token of it and have an `=`, or to be empty where that token is `=` alone. -/
theorem request_args_iff {p : DiffPrinter} (hk : p.kind ≠ .multiline) (hnew : p.args.members = [])
    (uri paramsBody : Bytes) :
    RequestArgs (p.addRequestUri uri paramsBody) uri paramsBody ↔
      ∀ name t, lastNamed (recordTokens uri paramsBody) name = some t →
        lastNamed (requestTokens uri paramsBody) name = some t ∧ 61 ∈ t ∨
          t = [] ∧ lastNamed (requestTokens uri paramsBody) name = some [61] := by
  have hlookup := lookup_args_addRequestUri hk hnew uri paramsBody
  constructor
  · intro h name t ht
    have hvalue := h.value name
    rw [hlookup, ht, Option.map_some, eq_comm, Option.map_eq_some_iff] at hvalue
    obtain ⟨t', ht', heq⟩ := hvalue
    have heq : argValue t' = if 61 ∈ t then argValue t else t := Json.string.inj heq
    obtain ⟨hmem', hname'⟩ := lastNamed_eq_some_mem ht'
    by_cases hne : t = []
    · subst hne
      have hname : argName [] = name := (lastNamed_eq_some_mem ht).2
      have hne' : t' ≠ [] := (mem_recordTokens hmem').2
      have hcons := argName_nil_value hne' (hname'.trans hname.symm)
      rw [heq] at hcons
      exact .inr ⟨rfl, hcons ▸ ht'⟩
    · obtain rfl := lastNamed_requestTokens ht ht' hne
      refine .inl ⟨ht', by_contra fun h61 => hne ?_⟩
      rw [if_neg h61] at heq
      rw [← heq, argValue, List.dropWhile_eq_nil_iff.2 fun c hc => by
        simpa using fun hc61 : c = 61 => h61 (hc61 ▸ hc)]
      rfl
  · intro h
    have hvalue (name : Bytes) : (p.addRequestUri uri paramsBody).args.members.lookup name =
        (lastNamed (requestTokens uri paramsBody) name).map fun t => .string (argValue t) := by
      rw [hlookup]
      cases ht : lastNamed (recordTokens uri paramsBody) name with
      | none =>
        have hnone : lastNamed (requestTokens uri paramsBody) name = none := by
          rw [← Option.not_isSome_iff_eq_none, lastNamed_isSome_iff]
          rintro ⟨t, hmem, hname⟩
          have := lastNamed_isSome_iff.2 ⟨t, (mem_recordTokens hmem).1, hname⟩
          rw [ht] at this
          cases this
        rw [hnone]
        rfl
      | some t =>
        rcases h name t ht with ⟨hlast, h61⟩ | ⟨rfl, hlast⟩
        · rw [hlast, Option.map_some, Option.map_some, recordValue, if_pos h61]
        · rw [hlast]
          rfl
    refine ⟨url_addRequestUri hk uri paramsBody, ?_, hvalue, fun u name => ?_⟩
    · rw [args_addRequestUri hk]
      exact Json.nodup_foldl_setMember _ _ _ (by simp [hnew])
    · rw [Json.isMember, hvalue, Option.isSome_map, lastNamed_isSome_iff, parseArgs, parseArgs,
        ← List.map_append, ← requestTokens, List.map_map, List.mem_map]
      simp only [Function.comp_apply, parseToken_fst]

theorem request_args_iff_query :
    RequestArgs ((createDiffPrinter (str "2") .json).addRequestUri (str "/spp/main?sid=A&n=") [])
      (str "/spp/main?sid=A&n=") [] := by
  have hsame : recordTokens (str "/spp/main?sid=A&n=") [] =
      requestTokens (str "/spp/main?sid=A&n=") [] := by decide
  have hvalues : ∀ t ∈ requestTokens (str "/spp/main?sid=A&n=") [], 61 ∈ t := by decide
  refine (request_args_iff (by decide) rfl _ _).2 fun name t ht => ?_
  rw [hsame] at ht
  exact .inl ⟨ht, hvalues t (lastNamed_eq_some_mem ht).1⟩

/-- The path of a URI without `?` is recorded as an argument. -/
theorem uri_without_query_recorded :
    ¬ RequestArgs ((createDiffPrinter (str "2") .json).addRequestUri (str "/spp/main") [])
      (str "/spp/main") [] := by
  intro h
  have hmem := (h.names .default (str "/SPP/MAIN")).1 (by decide)
  revert hmem
  decide

end ModDup
