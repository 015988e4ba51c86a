import ModDup.Dup.Handlers

/-!
# Chains of duplications

A request that `mod_dup` has duplicated may reach another server with `mod_dup`, or the same one.
`prepareRequestInfo` reads how often the request was duplicated from the header `X-DUP-COUNT`,
refuses at four, and puts the header with the next number in front of the others; the header that
came with the request may be sent again behind it, and the receiver joins the two.

## Main definitions

* `receiveHeaders` : the table a server makes of the lines it receives.
* `Hop`, `Hop.next` : a server of the chain, and the table the next one starts from.
* `countsRead`, `hopsPassed` : what the hops read, and how many of them duplicate.

## Main results

* `tableCount_next` : every hop reads one more than the hop before.
* `hopsPassed_eq` : how many hops duplicate.
* `loops_cut_iff` : when these are at most four.
-/

namespace ModDup

open Bytes

/-! ### Reading a number back -/

/-- The text starts with the number, and a comma ends it. -/
def Carries (n : ℤ) (v : Bytes) : Prop :=
  ∃ rest, v = decimalInt n ++ rest ∧ rest.head? ∈ [none, some 44]

theorem takeWhile_digits (n : ℕ) {rest : Bytes} (h : rest.head? ∈ [none, some 44]) :
    (decimal n ++ rest).takeWhile (fun c => (digit? c).isSome) = decimal n := by
  rw [List.takeWhile_append_of_pos]
  · have hrest : rest.takeWhile (fun c => (digit? c).isSome) = [] := by
      cases rest with
      | nil => rfl
      | cons c rest =>
        have hc : c = 44 := by simpa using h
        subst hc
        rfl
    rw [hrest, List.append_nil]
  · intro c hc
    have := digit_of_mem_decimal hc
    simp [digit?, this]

theorem decimal_eq_cons (n : ℕ) : ∃ c s, decimal n = c :: s ∧ 48 ≤ c ∧ c ≤ 57 := by
  cases hd : decimal n with
  | nil =>
    have := ofDecimal_decimal n
    rw [hd] at this
    obtain rfl : 0 = n := by simpa [ofDecimal] using this
    cases hd
  | cons c s =>
    have hc : c ∈ decimal n := by rw [hd]; exact List.mem_cons_self
    exact ⟨c, s, rfl, digit_of_mem_decimal hc⟩

theorem digit_plain : ∀ c : UInt8, 48 ≤ c → c ≤ 57 → isSpace c = false ∧ c ≠ 45 ∧ c ≠ 43 :=
  forall_byte (by decide +kernel)

theorem strtol_carries {n : ℤ} {v : Bytes} (hlo : -2 ^ 63 ≤ n) (hhi : n < 2 ^ 63)
    (h : Carries n v) : strtol v = n := by
  obtain ⟨rest, rfl, hrest⟩ := h
  unfold decimalInt strtol
  split_ifs with hneg
  · have hspace : ((45 :: decimal n.natAbs) ++ rest).dropWhile isSpace =
        45 :: (decimal n.natAbs ++ rest) := rfl
    have habs : (n.natAbs : ℤ) = -n := Int.ofNat_natAbs_of_nonpos (by omega)
    simp only [hspace, takeWhile_digits _ hrest, ofDecimal_decimal, Option.getD_some, habs,
      neg_neg]
    omega
  · obtain ⟨c, s, hd, hc, hc'⟩ := decimal_eq_cons n.natAbs
    have hplain := digit_plain c hc hc'
    have hspace : (decimal n.natAbs ++ rest).dropWhile isSpace = decimal n.natAbs ++ rest := by
      rw [hd, List.cons_append, List.dropWhile_cons_of_neg (by simp [hplain.1])]
    have habs : (n.natAbs : ℤ) = n := Int.natAbs_of_nonneg (by omega)
    simp only [hspace]
    split
    · rename_i heq
      rw [hd] at heq
      exact absurd (List.cons.inj heq).1 hplain.2.1
    · rename_i heq
      rw [hd] at heq
      exact absurd (List.cons.inj heq).1 hplain.2.2
    · rw [takeWhile_digits _ hrest, ofDecimal_decimal, Option.getD_some, habs]
      omega

/-- **A number that was written is read back**, whatever was joined to it. -/
theorem atoi_carries {n : ℤ} {v : Bytes} (hlo : -2 ^ 31 ≤ n) (hhi : n < 2 ^ 31)
    (h : Carries n v) : atoi v = n := by
  rw [atoi, strtol_carries (by omega) (by omega) h]
  exact Int.bmod_eq_of_le (by norm_num; omega) (by norm_num; omega)

theorem atoi_lower (v : Bytes) : -2 ^ 31 ≤ atoi v := by
  have := @Int.le_bmod (strtol v) (2 ^ 32) (by norm_num)
  rw [atoi]
  norm_num at this ⊢
  omega

/-! ### What a server receives -/

/-- The header in a line: what stands before the first colon, and what follows it, without the
white space around. -/
def headerOf (line : Bytes) : Option KeyVal :=
  (find [58] line).map fun pos => (line.take pos, trim (line.drop (pos + 1)))

/-- `apr_table_mergen`: a value is appended to that of the first entry of its name, with a comma. -/
def aprTableMerge : AprTable → KeyVal → AprTable
  | [], h => [h]
  | e :: t, h =>
    if sameName e.1 h.1 then (e.1, e.2 ++ str ", " ++ h.2) :: t else e :: aprTableMerge t h

/-- The headers of a request that was sent with these lines. -/
def receiveHeaders (lines : List Bytes) : AprTable :=
  (lines.filterMap headerOf).foldl aprTableMerge []

theorem headerOf_fst (line : Bytes) : (headerOf line).map Prod.fst = headerName line := by
  simp [headerOf, headerName, Function.comp_def]

theorem aprTableGet_merge_of_ne {t : AprTable} {h : KeyVal} {key : Bytes}
    (hne : sameName h.1 key = false) : aprTableGet (aprTableMerge t h) key = aprTableGet t key := by
  induction t with
  | nil => simp [aprTableMerge, aprTableGet, hne]
  | cons e t ih =>
    unfold aprTableMerge
    split_ifs with heq
    · have hne' : sameName e.1 key = false := by
        simp only [sameName, decide_eq_true_eq, decide_eq_false_iff_not] at heq hne ⊢
        rwa [heq]
      simp [aprTableGet, hne']
    · simp only [aprTableGet, List.find?_cons] at ih ⊢
      split
      · rfl
      · exact ih

theorem aprTableGet_merge_of_none {t : AprTable} {h : KeyVal} {key : Bytes}
    (hsame : sameName h.1 key = true) (hget : aprTableGet t key = none) :
    aprTableGet (aprTableMerge t h) key = some h.2 := by
  induction t with
  | nil => simp [aprTableMerge, aprTableGet, hsame]
  | cons e t ih =>
    have hne : sameName e.1 key = false ∧ aprTableGet t key = none := by
      simpa [aprTableGet] using hget
    have hne' : sameName e.1 h.1 = false := by
      have h' := hne.1
      simp only [sameName, decide_eq_true_eq, decide_eq_false_iff_not] at hsame h' ⊢
      rwa [hsame]
    have := ih hne.2
    simp only [aprTableMerge, hne', Bool.false_eq_true, if_false, aprTableGet, List.find?_cons,
      hne.1] at this ⊢
    exact this

/-- A number in a table stays what is read there, whatever is joined to it. -/
theorem carries_merge {n : ℤ} {t : AprTable} {key : Bytes}
    (ht : ∃ v, aprTableGet t key = some v ∧ Carries n v) (h : KeyVal) :
    ∃ v, aprTableGet (aprTableMerge t h) key = some v ∧ Carries n v := by
  induction t with
  | nil =>
    obtain ⟨v, hv, -⟩ := ht
    cases hv
  | cons e t ih =>
    obtain ⟨v, hv, hcarries⟩ := ht
    unfold aprTableMerge
    by_cases hkey : sameName e.1 key = true
    · have hval : e.2 = v := by simpa [aprTableGet, hkey] using hv
      split_ifs with heq
      · obtain ⟨rest, hrest, hhead⟩ := hcarries
        refine ⟨e.2 ++ str ", " ++ h.2, by simp [aprTableGet, hkey], rest ++ str ", " ++ h.2,
          ?_, ?_⟩
        · rw [hval, hrest]
          simp
        · cases rest with
          | nil => exact List.mem_cons_of_mem _ (List.mem_singleton.2 rfl)
          | cons c rest => simpa using hhead
      · exact ⟨v, by simp [aprTableGet, hkey, hval], hcarries⟩
    · have hkey' : sameName e.1 key = false := by simpa using hkey
      split_ifs with heq
      · exact ⟨v, by simpa [aprTableGet, hkey'] using hv, hcarries⟩
      · have := ih ⟨v, by simpa [aprTableGet, hkey'] using hv, hcarries⟩
        simpa [aprTableGet, hkey'] using this

theorem carries_foldl_merge {n : ℤ} {key : Bytes} (hs : List KeyVal) {t : AprTable}
    (ht : ∃ v, aprTableGet t key = some v ∧ Carries n v) :
    ∃ v, aprTableGet (hs.foldl aprTableMerge t) key = some v ∧ Carries n v := by
  induction hs generalizing t with
  | nil => exact ht
  | cons h hs ih => exact ih (carries_merge ht h)

/-- **The first header of a name decides which number is read.** -/
theorem carries_receiveHeaders {n : ℤ} {key : Bytes} {pre post : List KeyVal} {h : KeyVal}
    (hpre : ∀ e ∈ pre, sameName e.1 key = false) (hsame : sameName h.1 key = true)
    (hcarries : Carries n h.2) :
    ∃ v, aprTableGet ((pre ++ h :: post).foldl aprTableMerge []) key = some v ∧ Carries n v := by
  have hnone : ∀ (l : List KeyVal) (t : AprTable), (∀ e ∈ l, sameName e.1 key = false) →
      aprTableGet (l.foldl aprTableMerge t) key = aprTableGet t key := by
    intro l
    induction l with
    | nil => exact fun t _ => rfl
    | cons e l ih =>
      intro t hl
      rw [List.foldl_cons, ih _ fun x hx => hl x (List.mem_cons_of_mem e hx),
        aprTableGet_merge_of_ne (hl e List.mem_cons_self)]
  rw [List.foldl_append, List.foldl_cons]
  refine carries_foldl_merge post ⟨h.2, ?_, hcarries⟩
  exact aprTableGet_merge_of_none hsame (hnone pre [] hpre)

/-! ### The lines a call sends -/

/-- The header that counts the duplications. -/
def countName : Bytes := str "X-DUP-COUNT"

theorem sameName_slist (f : TFilter) (r : RequestInfo) :
    ∀ name ∈ (curlCall f r).slist.filterMap headerName, sameName name countName = false := by
  have hcommon : ∀ name ∈ (addCommonHeaders r).filterMap headerName,
      sameName name countName = false := by
    rw [names_addCommonHeaders]
    decide
  have hcompare : ∀ name ∈ (addValidationHeadersCompare r f).filterMap headerName,
      sameName name countName = false := by
    unfold addValidationHeadersCompare
    split_ifs <;> decide
  have hlength : ∀ b, ∀ name ∈ [contentLength b].filterMap headerName,
      sameName name countName = false := by
    intro b name hname
    obtain rfl : name = str "Content-Length" := by
      simpa [headerName_contentLength] using hname
    decide
  have hformat : ∀ name ∈ (dupFormatHeaders r).filterMap headerName,
      sameName name countName = false := by
    intro name hname
    rw [dupFormatHeaders, List.filterMap_append, List.mem_append] at hname
    rcases hname with hname | hname
    · revert name
      decide
    · obtain ⟨line, hline, hname⟩ := List.mem_filterMap.1 hname
      obtain ⟨⟨k, v⟩, hv, rfl⟩ := List.mem_map.1 hline
      obtain rfl : k = str "X-MATCHED-PATTERN" := by simpa using (List.mem_filter.1 hv).2
      have hpattern : headerName (cstr (headerLine (str "X-MATCHED-PATTERN", v))) =
          some (str "X-MATCHED-PATTERN") :=
        headerName_line (str "X-MATCHED-PATTERN") (by decide) (by decide) (str " " ++ v)
      obtain rfl : str "X-MATCHED-PATTERN" = name := by simpa [hpattern] using hname
      decide
  unfold curlCall
  split_ifs <;> simp only [List.filterMap_append, List.mem_append] <;> intro name hname
  · rcases hname with ((hname | hname) | hname) | hname
    · exact hcommon name hname
    · exact hcompare name hname
    · exact hformat name hname
    · exact hlength _ name hname
  · rcases hname with (hname | hname) | hname
    · exact hcommon name hname
    · exact hcompare name hname
    · exact hlength _ name hname
  · rcases hname with hname | hname
    · exact hcommon name hname
    · exact hcompare name hname

/-- The first header of the request is copied first, if the call does not set it itself. -/
theorem origHeaders_cons {f : TFilter} {r : RequestInfo} {v : KeyVal} {l : KeyValList}
    (hr : r.mHeadersIn = v :: l) (hname : sameName v.1 countName = true)
    (hcopied : v.1 ∉ neverCopied) :
    ∃ lines, (curlCall f r).origHeaders = cstr (headerLine v) :: lines := by
  have horig : (curlCall f r).origHeaders = addOrigHeaders r (curlCall f r).slist := by
    unfold curlCall
    split_ifs <;> rfl
  have hnew : v.1 ∉ (curlCall f r).slist.filterMap headerName := by
    intro hmem
    rw [sameName_slist f r v.1 hmem] at hname
    cases hname
  rw [horig, addOrigHeaders, hr, copyHeaders, if_pos ⟨hnew, hcopied⟩]
  exact ⟨_, rfl⟩

theorem not_isSpace_of_mem_decimalInt {n : ℤ} {c : UInt8} (hc : c ∈ decimalInt n) :
    isSpace c = false ∧ c ≠ 0 := by
  have hdigit : ∀ c : UInt8, 48 ≤ c → c ≤ 57 → isSpace c = false ∧ c ≠ 0 :=
    forall_byte (by decide +kernel)
  have hdecimal : ∀ m, c ∈ decimal m → isSpace c = false ∧ c ≠ 0 := fun m hm =>
    hdigit c (digit_of_mem_decimal hm).1 (digit_of_mem_decimal hm).2
  unfold decimalInt at hc
  split_ifs at hc
  · rcases List.mem_cons.1 hc with rfl | hc
    · decide
    · exact hdecimal _ hc
  · exact hdecimal _ hc

theorem trim_of_plain {s : Bytes} (h : ∀ c ∈ s, isSpace c = false) : trim (32 :: s) = s := by
  have hdrop : ∀ l : Bytes, (∀ c ∈ l, isSpace c = false) → l.dropWhile isSpace = l := by
    intro l hl
    cases l with
    | nil => rfl
    | cons c l => rw [List.dropWhile_cons_of_neg (by simp [hl c List.mem_cons_self])]
  have hfirst : (32 :: s).dropWhile isSpace = s := by
    rw [List.dropWhile_cons_of_pos rfl, hdrop s h]
  rw [trim, hfirst, hdrop s.reverse fun c hc => h c (List.mem_reverse.1 hc), List.reverse_reverse]

theorem headerOf_count (n : ℤ) :
    headerOf (cstr (headerLine (countName, decimalInt n))) = some (countName, decimalInt n) := by
  have hnul : ∀ c ∈ headerLine (countName, decimalInt n), c ≠ 0 := by
    intro c hc
    rcases List.mem_append.1 hc with hc | hc
    · have hname : ∀ c ∈ countName ++ str ": ", c ≠ 0 := by decide +kernel
      exact hname c hc
    · exact (not_isSpace_of_mem_decimalInt hc).2
  have hline : cstr (headerLine (countName, decimalInt n)) =
      countName ++ 58 :: 32 :: decimalInt n := by
    rw [cstr, List.takeWhile_eq_self_iff.2 fun c hc => by simpa using hnul c hc]
    rfl
  have hplain : ∀ c ∈ decimalInt n, isSpace c = false := fun c hc =>
    (not_isSpace_of_mem_decimalInt hc).1
  rw [headerOf, hline, find_singleton _ (by decide), Option.map_some, List.take_left',
    ← List.drop_drop, List.drop_left', List.drop_one, List.tail_cons, trim_of_plain hplain]
  · rfl
  · rfl

/-! ### Chains -/

/-- One server of a chain, but for the headers it receives: the rest of the request, the filter that
matches, and the rest of the record when it is sent. -/
structure Hop where
  addr : ℕ
  nextReqId : ℕ
  req : RequestRec
  matchedFilter : TFilter
  /-- The body, the path and so on may have been substituted; the headers are not. -/
  sent : RequestInfo

namespace Hop

variable (h : Hop)

/-- The info and the request when the headers are those of the table. -/
def received (t : AprTable) : RequestInfo × RequestRec :=
  makeRequestInfo h.nextReqId { h.req with headersIn := t }

/-- What `prepareRequestInfo` makes of them. -/
def prepared (t : AprTable) : Bool × RequestInfo :=
  prepareRequestInfo h.addr (h.received t).2 (h.received t).1

/-- The number `prepareRequestInfo` reads. -/
def count (t : AprTable) : ℤ := dupCount (h.received t).2

/-- The request is duplicated. -/
def passes (t : AprTable) : Bool := (h.prepared t).1

/-- The lines of the curl list. -/
def lines (t : AprTable) : List Bytes :=
  let call := curlCall h.matchedFilter { h.sent with mHeadersIn := (h.prepared t).2.mHeadersIn }
  call.slist ++ call.origHeaders

/-- The headers the next server receives. -/
def next (t : AprTable) : AprTable := receiveHeaders (h.lines t)

end Hop

/-- What the hops of a chain read, up to the one that refuses. -/
def countsRead : List Hop → AprTable → List ℤ
  | [], _ => []
  | h :: hs, t => h.count t :: if h.passes t then countsRead hs (h.next t) else []

/-- How many hops of a chain duplicate. -/
def hopsPassed : List Hop → AprTable → ℕ
  | [], _ => 0
  | h :: hs, t => if h.passes t then hopsPassed hs (h.next t) + 1 else 0

/-- The number a table holds. -/
def tableCount (t : AprTable) : ℤ := ((aprTableGet t countName).map atoi).getD 0

theorem Hop.count_eq (h : Hop) (t : AprTable) : h.count t = tableCount t := by
  have hget := @aprTableGet_getOrSetUniqueID h.nextReqId { h.req with headersIn := t } countName
    (by decide)
  unfold Hop.count dupCount tableCount
  rw [← hget]
  rfl

theorem Hop.passes_eq (h : Hop) (t : AprTable) : h.passes t = decide (tableCount t < 4) := by
  rw [← h.count_eq]
  unfold Hop.passes Hop.prepared prepareRequestInfo
  have hrefused : refused (h.received t).2 = decide (h.count t ≥ 4) := rfl
  dsimp only
  split_ifs with hr
  · rw [hrefused, decide_eq_true_eq] at hr
    simp
    omega
  · rw [hrefused, decide_eq_true_eq] at hr
    simp
    omega

theorem tableCount_lower (t : AprTable) : -2 ^ 31 ≤ tableCount t := by
  unfold tableCount
  cases aprTableGet t countName with
  | none => norm_num
  | some v => exact atoi_lower v

/-- **Every hop reads one more than the hop before.** -/
theorem tableCount_next (h : Hop) {t : AprTable} (hpass : tableCount t < 4) :
    tableCount (h.next t) = tableCount t + 1 := by
  have hlower := tableCount_lower t
  set n := tableCount t + 1 with hn
  -- the count is in front of all headers that are copied
  obtain ⟨l, hheaders⟩ : ∃ l, (h.prepared t).2.mHeadersIn = (countName, decimalInt n) :: l := by
    have hrefused : refused (h.received t).2 = false := by
      have : refused (h.received t).2 = decide (h.count t ≥ 4) := rfl
      rw [this, h.count_eq, decide_eq_false_iff_not]
      omega
    have hcount : dupCount (h.received t).2 = tableCount t := h.count_eq t
    rw [Hop.prepared, prepareRequestInfo]
    simp only [hrefused, hcount, Bool.false_eq_true, if_false]
    exact ⟨_, rfl⟩
  set r : RequestInfo := { h.sent with mHeadersIn := (h.prepared t).2.mHeadersIn } with hr
  have hsame : sameName countName countName = true := by decide
  have hcopied : countName ∉ neverCopied := by decide
  obtain ⟨lines, hlines⟩ := @origHeaders_cons h.matchedFilter r _ l hheaders hsame hcopied
  have hown : ∀ e ∈ (curlCall h.matchedFilter r).slist.filterMap headerOf,
      sameName e.1 countName = false := by
    intro e he
    obtain ⟨line, hline, hof⟩ := List.mem_filterMap.1 he
    refine sameName_slist h.matchedFilter r e.1 (List.mem_filterMap.2 ⟨line, hline, ?_⟩)
    rw [← headerOf_fst, hof]
    rfl
  obtain ⟨v, hv, hcarries⟩ := @carries_receiveHeaders n countName _ (lines.filterMap headerOf)
    (countName, decimalInt n) hown hsame ⟨[], by simp, by simp⟩
  have hnext : h.next t = ((curlCall h.matchedFilter r).slist.filterMap headerOf ++
      (countName, decimalInt n) :: lines.filterMap headerOf).foldl aprTableMerge [] := by
    rw [Hop.next, receiveHeaders, Hop.lines, hlines, List.filterMap_append, List.filterMap_cons,
      headerOf_count]
  rw [hnext, tableCount, hv, Option.map_some, Option.getD_some]
  exact atoi_carries (by omega) (by omega) hcarries

theorem hopsPassed_eq (hs : List Hop) (t : AprTable) :
    hopsPassed hs t = min hs.length (4 - tableCount t).toNat := by
  induction hs generalizing t with
  | nil => simp [hopsPassed]
  | cons h hs ih =>
    rw [hopsPassed, h.passes_eq, List.length_cons]
    by_cases hpass : tableCount t < 4
    · rw [if_pos (decide_eq_true hpass), ih, tableCount_next h hpass]
      omega
    · rw [if_neg (by simpa using hpass)]
      omega

theorem countsRead_increase (hs : List Hop) (t : AprTable) :
    (countsRead hs t).Pairwise (· < ·) ∧ ∀ c ∈ countsRead hs t, tableCount t ≤ c := by
  induction hs generalizing t with
  | nil => exact ⟨List.Pairwise.nil, fun c hc => by cases hc⟩
  | cons h hs ih =>
    rw [countsRead, h.passes_eq, h.count_eq]
    by_cases hpass : tableCount t < 4
    · rw [if_pos (decide_eq_true hpass)]
      obtain ⟨hpair, hle⟩ := ih (h.next t)
      rw [tableCount_next h hpass] at hle
      refine ⟨List.pairwise_cons.2 ⟨fun c hc => ?_, hpair⟩, fun c hc => ?_⟩
      · have := hle c hc
        omega
      · rcases List.mem_cons.1 hc with rfl | hc
        · exact le_rfl
        · have := hle c hc
          omega
    · rw [if_neg (by simpa using hpass)]
      simp

/-- **When duplication loops are cut**: the numbers read increase from hop to hop, and at most four
hops duplicate, unless the first client sends a negative number and the chain is longer. -/
theorem loops_cut_iff (hs : List Hop) (t : AprTable) :
    ((countsRead hs t).Pairwise (· < ·) ∧ hopsPassed hs t ≤ 4) ↔
      (∀ v, aprTableGet t countName = some v → 0 ≤ atoi v) ∨ hs.length ≤ 4 := by
  have hcond : (∀ v, aprTableGet t countName = some v → 0 ≤ atoi v) ↔ 0 ≤ tableCount t := by
    unfold tableCount
    cases aprTableGet t countName with
    | none => simp
    | some v => simp
  rw [hcond, hopsPassed_eq]
  constructor
  · rintro ⟨-, hle⟩
    omega
  · intro h
    refine ⟨(countsRead_increase hs t).1, ?_⟩
    omega

/-- A server with nothing of its own. -/
def plainHop : Hop where
  addr := 1
  nextReqId := 0
  req := {}
  matchedFilter :=
    { mScope := .all, mRegex := .literal [], mDestination := [], mDuplicationType := .headerOnly,
      mFilterType := .regular }
  sent := {}

/-- **A client that sends `X-DUP-COUNT: -5` is duplicated nine times.** -/
theorem nine_hops :
    let t : AprTable := [(countName, str "-5")]
    hopsPassed (List.replicate 20 plainHop) t = 9 ∧
      ¬ ((countsRead (List.replicate 20 plainHop) t).Pairwise (· < ·) ∧
        hopsPassed (List.replicate 20 plainHop) t ≤ 4) := by
  have hnine : hopsPassed (List.replicate 20 plainHop) [(countName, str "-5")] = 9 := by
    rw [hopsPassed_eq]
    decide
  exact ⟨hnine, fun h => by omega⟩

end ModDup
