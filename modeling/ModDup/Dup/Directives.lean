import ModDup.Dup.Commands
import ModDup.Pool.ThreadPool

/-!
# The directives of `mod_dup`

The server reads its configuration line by line and hands the arguments of each directive to a
function of `src/mod_dup.cc` (`gCmds`), which returns `NULL` or the text of an error; the first
error ends the start of the server.  The directives of a location move a cursor in the
configuration object of the location (destination, scope, duplication type), and what they declare
is declared at the cursor.

Arguments are C strings, given without their zero byte.

## Main definitions

* `Host` : what the functions ask the rest of the server.
* `Directive`, `Line`, `Line.set` : a line of the configuration and the function called for it.
* `load` : the configuration of a server, or the first error.

## Main results

* `DupConf.cursor`, `Line.Accepted` : what a line says, for the cursor it finds.
* `set_iff` : the functions accept no other lines.
-/

namespace ModDup

open Bytes

/-- `ApplicationScope::stringToEnum`. -/
def ApplicationScope.stringToEnum (text : Bytes) : Option ApplicationScope :=
  if text = str "ALL" then some .all
  else if text = str "METHOD" then some .method
  else if text = str "PATH" then some .path
  else if text = str "QUERY_STRING" then some .queryString
  else if text = str "URL_AND_HEADERS" then some .urlAndHeaders
  else if text = str "URL" then some .url
  else if text = str "HEADERS" then some .headers
  else if text = str "BODY" then some .body
  else none

/-- `DuplicationType::stringToEnum`. -/
def DuplicationType.stringToEnum (value : Bytes) : Option DuplicationType :=
  if value = str "NONE" then some .none
  else if value = str "HEADER_ONLY" then some .headerOnly
  else if value = str "COMPLETE_REQUEST" then some .completeRequest
  else if value = str "REQUEST_WITH_ANSWER" then some .requestWithAnswer
  else Option.none

theorem ApplicationScope.stringToEnum_enumToString (s : ApplicationScope) :
    stringToEnum s.enumToString = some s := by
  cases s <;> decide +kernel

/-- What the functions ask the rest of the server. -/
structure Host where
  /-- The constructor of `boost::regex`; `none` where it throws. -/
  compile : Bytes → Option Regex
  /-- `mod_rewrite` is linked. -/
  modRewrite : Bool

/-- What is configured: the processor, the objects of the locations and the pool. -/
structure DupSetup where
  conf : ConfState := {}
  pool : PoolConf := {}
  mProgramName : Bytes := str "ModDup"
  /-- The timeout of the calls, in milliseconds. -/
  mTimeout : ℕ := 0

/-- The directives in `gCmds`, with their arguments. -/
inductive Directive where
  | dupName (pName : Bytes)
  | dupUrlCodec (pUrlCodec : Bytes)
  | dupTimeout (pTimeout : Bytes)
  | dupThreads (pMin pMax : Bytes)
  | dupQueue (pMin pMax : Bytes)
  | dupDuplicationType (pDupType : Bytes)
  | dupDestination (pDestination : Bytes) (duplicationPercentage : Option Bytes)
  | dupApplicationScope (pAppScope : Bytes)
  | dupFilter (pField pFilter : Bytes)
  | dupPreventFilter (pField pFilter : Bytes)
  | dupRawFilter (pExpression : Bytes)
  | dupRawPreventFilter (pExpression : Bytes)
  | dupRawSubstitute (pMatch pReplace : Bytes)
  | dupSubstitute (pField pMatch pReplace : Bytes)
  | dupErrorLogBodyMatch (pMatch : Bytes)
  | dupSync
  | dup

/-- A line of the configuration, with the configuration object and the path of its location. -/
structure Line where
  addr : ℕ
  path : Bytes
  directive : Directive

namespace DupSetup

/-! ### The functions of the directives -/

section Set

variable (h : Host) (s : DupSetup) (c : ℕ) (path : Bytes)

/-- A call of a method of the processor or of a configuration object. -/
def apply (op : ConfOp) : DupSetup := { s with conf := s.conf.step op }

/-- `setActive`. -/
def setActive : Except Bytes DupSetup :=
  let s := s.apply (.setActive c path)
  if h.modRewrite then .ok s
  else .error (str "'mod_rewrite' is not loaded, Enable mod_rewrite to use mod_dup")

/-- `setName`. -/
def setName (pName : Bytes) : Except Bytes DupSetup :=
  if pName = [] then .error (str "Missing program name")
  else .ok { s with mProgramName := pName }

/-- `setUrlCodec`. -/
def setUrlCodec (pUrlCodec : Bytes) : Except Bytes DupSetup :=
  if pUrlCodec = [] then .error (str "Missing url codec style")
  else .ok (s.apply (.setUrlCodec pUrlCodec))

/-- `setTimeout`. -/
def setTimeout (pTimeout : Bytes) : Except Bytes DupSetup :=
  match lexicalCastUnsigned 32 pTimeout with
  | none => .error (str "Invalid value(s) for timeout.")
  | some lTimeout => .ok { s with mTimeout := lTimeout }

/-- `setThreads`. -/
def setThreads (pMin pMax : Bytes) : Except Bytes DupSetup :=
  match lexicalCastUnsigned 64 pMin, lexicalCastUnsigned 64 pMax with
  | some lMin, some lMax =>
    if hle : lMax < lMin then
      .error (str "Invalid value(s) for minimum and maximum number of threads.")
    else
      .ok { s with pool := { s.pool with
        mMinThreads := lMin, mMaxThreads := lMax, threads_le := not_lt.1 hle } }
  | _, _ => .error (str "Invalid value(s) for minimum and maximum number of threads.")

/-- `setQueue`. -/
def setQueue (pMin pMax : Bytes) : Except Bytes DupSetup :=
  match lexicalCastUnsigned 64 pMin, lexicalCastUnsigned 64 pMax with
  | some lMin, some lMax =>
    if hle : lMax < lMin then
      .error (str "Invalid value(s) for minimum and maximum queue size.")
    else
      .ok { s with pool := { s.pool with
        mMinQueued := lMin, mMaxQueued := lMax, queued_le := not_lt.1 hle } }
  | _, _ => .error (str "Invalid value(s) for minimum and maximum queue size.")

/-- The percentage of `setDestination`. -/
def percentage : Option Bytes → Except Bytes ℕ
  | none => .ok 100
  | some text =>
    match lexicalCastUnsigned 32 text with
    | none => .error (str "Duplication percentage value not valid: " ++ text)
    | some perc =>
      if perc > 10000 then
        .error (str
          "Duplication percentage value not valid: must be an integer between 0 and 10000")
      else .ok perc

/-- `setDestination`. -/
def setDestination (pDestination : Bytes) (duplicationPercentage : Option Bytes) :
    Except Bytes DupSetup :=
  (s.setActive h c path).bind fun s =>
    if pDestination = [] then .error (str "Missing destination argument")
    else
      let s := s.apply (.setCurrentDupDestination c pDestination)
      (percentage duplicationPercentage).map fun perc =>
        s.apply (.setDestinationDuplicationPercentage c pDestination perc)

/-- `setApplicationScope`. -/
def setApplicationScope (pAppScope : Bytes) : Except Bytes DupSetup :=
  (s.setActive h c path).bind fun s =>
    match ApplicationScope.stringToEnum pAppScope with
    | none => .error (str ("Invalid ApplicationScope Value. Supported Values: METHOD | PATH | " ++
        "QUERY_STRING | URL | HEADERS | URL_AND_HEADERS | BODY | ALL"))
    | some scope => .ok (s.apply (.setCurrentApplicationScope c scope))

/-- `setDuplicationType`. -/
def setDuplicationType (pDupType : Bytes) : Except Bytes DupSetup :=
  (s.setActive h c path).bind fun s =>
    match DuplicationType.stringToEnum pDupType with
    | none => .error (str ("Invalid Duplication Type Value. Supported Values: HEADER_ONLY | " ++
        "COMPLETE_REQUEST | REQUEST_WITH_ANSWER"))
    | some dt => .ok (s.apply (.setCurrentDuplicationType c dt))

/-- What `setRawSubstitute`, `setSubstitute`, `_setFilter` and `_setRawFilter` have in common: a
declaration for the current destination, `op` with the expression `text` compiled. -/
def declare (text missing invalid : Bytes) (op : Regex → ConfOp) : Except Bytes DupSetup :=
  (s.setActive h c path).bind fun s =>
    if (s.conf.confs c).currentDupDestination = [] then .error missing
    else match h.compile text with
      | none => .error invalid
      | some re => .ok (s.apply (op re))

/-- `setRawSubstitute`. -/
def setRawSubstitute (pMatch pReplace : Bytes) : Except Bytes DupSetup :=
  s.declare h c path pMatch (str "a DupDestination is required before a DupRawSubstitute")
    (str "Invalid regular expression in substitution definition.")
    fun re => .addRawSubstitution c re pReplace

/-- `setSubstitute`. -/
def setSubstitute (pField pMatch pReplace : Bytes) : Except Bytes DupSetup :=
  s.declare h c path pMatch (str "a DupDestination is required before a DupSubstitute")
    (str "Invalid regular expression in substitution definition.")
    fun re => .addSubstitution c pField re pReplace

/-- `_setFilter`; the scope is checked before the expression is compiled. -/
def filterOf (fType : FilterTypes) (pField pFilter : Bytes) : Except Bytes DupSetup :=
  (s.setActive h c path).bind fun s =>
    let conf := s.conf.confs c
    if conf.currentDupDestination = [] then
      .error (str "a DupDestination is required before a filter")
    else if !(conf.currentApplicationScope.has .body || conf.currentApplicationScope.has .headers ||
        conf.currentApplicationScope.has .queryString) then
      .error (str ("This filter can never match with the current DupApplicationScope, " ++
        "it needs BODY|QUERY_STRING|HEADER"))
    else match h.compile pFilter with
      | none => .error (str "Invalid regular expression in filter definition.")
      | some re => .ok (s.apply (.addFilter c pField re fType))

/-- `setFilter`. -/
def setFilter (pField pFilter : Bytes) : Except Bytes DupSetup :=
  s.filterOf h c path .regular pField pFilter

/-- `setPreventFilter`. -/
def setPreventFilter (pField pFilter : Bytes) : Except Bytes DupSetup :=
  s.filterOf h c path .preventDuplication pField pFilter

/-- `_setRawFilter`. -/
def rawFilterOf (fType : FilterTypes) (pExpression : Bytes) : Except Bytes DupSetup :=
  s.declare h c path pExpression (str "a DupDestination is required before a RawFilter")
    (str "Invalid regular expression in filter definition.")
    fun re => .addRawFilter c re fType

/-- `setRawFilter`. -/
def setRawFilter (pExpression : Bytes) : Except Bytes DupSetup :=
  s.rawFilterOf h c path .regular pExpression

/-- `setRawPreventFilter`. -/
def setRawPreventFilter (pExpression : Bytes) : Except Bytes DupSetup :=
  s.rawFilterOf h c path .preventDuplication pExpression

/-- `setErrorLogBodyMatch`; the expression is for the texts of the log only. -/
def setErrorLogBodyMatch (pMatch : Bytes) : Except Bytes DupSetup :=
  match h.compile pMatch with
  | none => .error (str "Invalid regular expression in filter definition.")
  | some _ => .ok s

/-- `setSynchronous`. -/
def setSynchronous : Except Bytes DupSetup := .ok (s.apply (.setSynchronous c))

end Set

end DupSetup

/-- The function called for a line. -/
def Line.set (h : Host) (s : DupSetup) (line : Line) : Except Bytes DupSetup :=
  let c := line.addr
  let path := line.path
  match line.directive with
  | .dupName pName => s.setName pName
  | .dupUrlCodec pUrlCodec => s.setUrlCodec pUrlCodec
  | .dupTimeout pTimeout => s.setTimeout pTimeout
  | .dupThreads pMin pMax => s.setThreads pMin pMax
  | .dupQueue pMin pMax => s.setQueue pMin pMax
  | .dupDuplicationType pDupType => s.setDuplicationType h c path pDupType
  | .dupDestination pDestination perc => s.setDestination h c path pDestination perc
  | .dupApplicationScope pAppScope => s.setApplicationScope h c path pAppScope
  | .dupFilter pField pFilter => s.setFilter h c path pField pFilter
  | .dupPreventFilter pField pFilter => s.setPreventFilter h c path pField pFilter
  | .dupRawFilter pExpression => s.setRawFilter h c path pExpression
  | .dupRawPreventFilter pExpression => s.setRawPreventFilter h c path pExpression
  | .dupRawSubstitute pMatch pReplace => s.setRawSubstitute h c path pMatch pReplace
  | .dupSubstitute pField pMatch pReplace => s.setSubstitute h c path pField pMatch pReplace
  | .dupErrorLogBodyMatch pMatch => s.setErrorLogBodyMatch h pMatch
  | .dupSync => s.setSynchronous c
  | .dup => s.setActive h c path

/-- The configuration a server starts with, or the error that ends its start. -/
def load (h : Host) (lines : List Line) : Except Bytes DupSetup := lines.foldlM (Line.set h) {}

/-! ### What a line says -/

/-- What is declared for a destination. -/
inductive Declaration where
  | filter (key : Bytes) (f : TFilter)
  | rawFilter (f : TFilter)
  | substitution (key : Bytes) (s : TSubstitute)
  | rawSubstitution (s : TSubstitute)
  | percentage (n : ℕ)

/-- What a declaration makes of the commands of its destination. -/
def Declaration.addTo (c : Commands) : Declaration → Commands
  | .filter key f => { c with mFilters := c.mFilters ++ [(key, f)] }
  | .rawFilter f => { c with mRawFilters := c.mRawFilters ++ [f] }
  | .substitution key s =>
    { c with
      mSubstitutions := c.mSubstitutions.set key ((c.mSubstitutions.get? key).getD [] ++ [s]) }
  | .rawSubstitution s => { c with mRawSubstitutions := c.mRawSubstitutions ++ [s] }
  | .percentage n => { c with mDuplicationPercentage := n }

/-- The filter a cursor gives for an expression. -/
def DupConf.filter (conf : DupConf) (re : Regex) (fType : FilterTypes) : TFilter where
  mScope := conf.currentApplicationScope
  mRegex := re
  mDestination := conf.currentDupDestination
  mDuplicationType := conf.mCurrentDuplicationType
  mFilterType := fType

/-- The scope of a cursor lets a filter match. -/
def DupConf.canFilter (conf : DupConf) : Bool :=
  conf.currentApplicationScope.has .body || conf.currentApplicationScope.has .headers ||
    conf.currentApplicationScope.has .queryString

/-- The two numbers of `DupThreads` and `DupQueue`. -/
def bounds? (pMin pMax : Bytes) : Option (ℕ × ℕ) :=
  match lexicalCastUnsigned 64 pMin, lexicalCastUnsigned 64 pMax with
  | some lMin, some lMax => if lMin ≤ lMax then some (lMin, lMax) else none
  | _, _ => none

/-- The percentage of a `DupDestination`. -/
def percentage? : Option Bytes → Option ℕ
  | none => some 100
  | some text => (lexicalCastUnsigned 32 text).filter (· ≤ 10000)

namespace Line

/-- The cursor behind a line. -/
def cursor (conf : DupConf) (line : Line) : DupConf :=
  match line.directive with
  | .dupName _ | .dupUrlCodec _ | .dupTimeout _ | .dupThreads _ _ | .dupQueue _ _
  | .dupErrorLogBodyMatch _ => conf
  | .dupSync => { conf with synchronous := true }
  | .dupDuplicationType pDupType =>
    (conf.setActive line.path).setCurrentDuplicationType
      ((DuplicationType.stringToEnum pDupType).getD conf.mCurrentDuplicationType)
  | .dupDestination pDestination _ =>
    { conf.setActive line.path with currentDupDestination := pDestination }
  | .dupApplicationScope pAppScope =>
    { conf.setActive line.path with
      currentApplicationScope :=
        (ApplicationScope.stringToEnum pAppScope).getD conf.currentApplicationScope }
  | _ => conf.setActive line.path

/-- What a line declares at a cursor, and for which destination. -/
def declares (h : Host) (conf : DupConf) (line : Line) : Option (Bytes × Declaration) :=
  let d := conf.currentDupDestination
  match line.directive with
  | .dupDestination pDestination perc =>
    (percentage? perc).map fun n => (pDestination, .percentage n)
  | .dupFilter pField pFilter =>
    (h.compile pFilter).map fun re => (d, .filter (toUpper pField) (conf.filter re .regular))
  | .dupPreventFilter pField pFilter =>
    (h.compile pFilter).map fun re =>
      (d, .filter (toUpper pField) (conf.filter re .preventDuplication))
  | .dupRawFilter pExpression =>
    (h.compile pExpression).map fun re => (d, .rawFilter (conf.filter re .regular))
  | .dupRawPreventFilter pExpression =>
    (h.compile pExpression).map fun re => (d, .rawFilter (conf.filter re .preventDuplication))
  | .dupRawSubstitute pMatch pReplace =>
    (h.compile pMatch).map fun re =>
      (d, .rawSubstitution ⟨conf.currentApplicationScope, re, pReplace⟩)
  | .dupSubstitute pField pMatch pReplace =>
    (h.compile pMatch).map fun re =>
      (d, .substitution (toUpper pField) ⟨conf.currentApplicationScope, re, pReplace⟩)
  | _ => none

/-- A line that declares something for the current destination can do so. -/
def canDeclare (h : Host) (conf : DupConf) (text : Bytes) : Bool :=
  h.modRewrite && conf.currentDupDestination ≠ [] && (h.compile text).isSome

/-- A line is accepted at a cursor. -/
def Accepted (h : Host) (conf : DupConf) (line : Line) : Bool :=
  match line.directive with
  | .dupName pName => pName ≠ []
  | .dupUrlCodec pUrlCodec => pUrlCodec ≠ []
  | .dupTimeout pTimeout => (lexicalCastUnsigned 32 pTimeout).isSome
  | .dupThreads pMin pMax => (bounds? pMin pMax).isSome
  | .dupQueue pMin pMax => (bounds? pMin pMax).isSome
  | .dupDuplicationType pDupType =>
    h.modRewrite && (DuplicationType.stringToEnum pDupType).isSome
  | .dupDestination pDestination perc =>
    h.modRewrite && pDestination ≠ [] && (percentage? perc).isSome
  | .dupApplicationScope pAppScope =>
    h.modRewrite && (ApplicationScope.stringToEnum pAppScope).isSome
  | .dupFilter _ pFilter => canDeclare h conf pFilter && conf.canFilter
  | .dupPreventFilter _ pFilter => canDeclare h conf pFilter && conf.canFilter
  | .dupRawFilter pExpression => canDeclare h conf pExpression
  | .dupRawPreventFilter pExpression => canDeclare h conf pExpression
  | .dupRawSubstitute pMatch _ => canDeclare h conf pMatch
  | .dupSubstitute _ pMatch _ => canDeclare h conf pMatch
  | .dupErrorLogBodyMatch pMatch => (h.compile pMatch).isSome
  | .dupSync => true
  | .dup => h.modRewrite

end Line

/-! ### The functions say the same -/

theorem bounds?_le {pMin pMax : Bytes} {lMin lMax : ℕ}
    (hb : bounds? pMin pMax = some (lMin, lMax)) :
    lMin ≤ lMax := by
  unfold bounds? at hb
  split at hb
  · split_ifs at hb with hle
    obtain ⟨rfl, rfl⟩ := Prod.mk.inj (Option.some.inj hb)
    exact hle
  · cases hb

namespace DupSetup

variable {h : Host} {s t : DupSetup} {c : ℕ} {path : Bytes}

theorem bounds_eq_ok {pMin pMax e : Bytes} (ok : ∀ lMin lMax : ℕ, lMin ≤ lMax → DupSetup) :
    (match lexicalCastUnsigned 64 pMin, lexicalCastUnsigned 64 pMax with
      | some lMin, some lMax =>
        if hle : lMax < lMin then .error e else .ok (ok lMin lMax (not_lt.1 hle))
      | _, _ => .error e : Except Bytes DupSetup) = .ok t ↔
      ∃ lMin lMax, ∃ hle : lMin ≤ lMax,
        bounds? pMin pMax = some (lMin, lMax) ∧ t = ok lMin lMax hle := by
  unfold bounds?
  cases lexicalCastUnsigned 64 pMin with
  | none => simp
  | some lMin =>
    cases lexicalCastUnsigned 64 pMax with
    | none => simp
    | some lMax =>
      dsimp only
      split_ifs with hlt hle
      · exact absurd hlt (not_lt.2 hle)
      · simp
      · constructor
        · intro hok
          exact ⟨lMin, lMax, not_lt.1 hlt, rfl, (Except.ok.inj hok).symm⟩
        · rintro ⟨m, n, hmn, hsame, rfl⟩
          obtain ⟨rfl, rfl⟩ := Prod.mk.inj (Option.some.inj hsame)
          rfl
      · exact absurd (not_lt.1 hlt) (by assumption)

theorem setThreads_eq_ok {pMin pMax : Bytes} :
    s.setThreads pMin pMax = .ok t ↔ ∃ lMin lMax, ∃ hle : lMin ≤ lMax,
      bounds? pMin pMax = some (lMin, lMax) ∧ t = { s with pool := { s.pool with
        mMinThreads := lMin, mMaxThreads := lMax, threads_le := hle } } :=
  bounds_eq_ok fun lMin lMax hle => { s with pool := { s.pool with
    mMinThreads := lMin, mMaxThreads := lMax, threads_le := hle } }

theorem setQueue_eq_ok {pMin pMax : Bytes} :
    s.setQueue pMin pMax = .ok t ↔ ∃ lMin lMax, ∃ hle : lMin ≤ lMax,
      bounds? pMin pMax = some (lMin, lMax) ∧ t = { s with pool := { s.pool with
        mMinQueued := lMin, mMaxQueued := lMax, queued_le := hle } } :=
  bounds_eq_ok fun lMin lMax hle => { s with pool := { s.pool with
    mMinQueued := lMin, mMaxQueued := lMax, queued_le := hle } }

theorem setActive_eq_ok :
    s.setActive h c path = .ok t ↔ h.modRewrite = true ∧ t = s.apply (.setActive c path) := by
  unfold setActive
  cases h.modRewrite with
  | false => simp
  | true => simp [eq_comm]

/-- What follows the activation of a location. -/
theorem bind_setActive_eq_ok {f : DupSetup → Except Bytes DupSetup} :
    (s.setActive h c path).bind f = .ok t ↔
      h.modRewrite = true ∧ f (s.apply (.setActive c path)) = .ok t := by
  unfold setActive
  cases h.modRewrite with
  | false => simp [Except.bind]
  | true => simp [Except.bind]

/-- The activation leaves the cursor where it is. -/
theorem confs_apply_setActive :
    (s.apply (.setActive c path)).conf.confs c = (s.conf.confs c).setActive path :=
  Function.update_self ..

theorem declare_eq_ok {text missing invalid : Bytes} {op : Regex → ConfOp} :
    s.declare h c path text missing invalid op = .ok t ↔
      Line.canDeclare h (s.conf.confs c) text = true ∧
        ∃ re, h.compile text = some re ∧ t = (s.apply (.setActive c path)).apply (op re) := by
  unfold declare Line.canDeclare
  rw [bind_setActive_eq_ok, confs_apply_setActive]
  change _ ∧ (if (s.conf.confs c).currentDupDestination = [] then _ else _) = _ ↔ _
  cases h.compile text with
  | none => split_ifs <;> simp
  | some re =>
    split_ifs with hd
    · simp [hd]
    · constructor
      · rintro ⟨hmod, hok⟩
        exact ⟨by simp [hmod, hd], re, rfl, (Except.ok.inj hok).symm⟩
      · rintro ⟨hcan, re', hre, rfl⟩
        obtain rfl := Option.some.inj hre
        simp only [Bool.and_eq_true] at hcan
        exact ⟨hcan.1.1, rfl⟩

theorem filterOf_eq_ok {fType : FilterTypes} {pField pFilter : Bytes} :
    s.filterOf h c path fType pField pFilter = .ok t ↔
      (Line.canDeclare h (s.conf.confs c) pFilter && (s.conf.confs c).canFilter) = true ∧
        ∃ re, h.compile pFilter = some re ∧
          t = (s.apply (.setActive c path)).apply (.addFilter c pField re fType) := by
  unfold filterOf Line.canDeclare
  rw [bind_setActive_eq_ok]
  dsimp only
  rw [confs_apply_setActive]
  change _ ∧ (if (s.conf.confs c).currentDupDestination = [] then _ else
    if !(s.conf.confs c).canFilter then _ else _) = _ ↔ _
  cases h.compile pFilter with
  | none => split_ifs <;> simp
  | some re =>
    split_ifs with hd hf
    · simp [hd]
    · have hno : (s.conf.confs c).canFilter = false := by simpa using hf
      simp [hno]
    · have hyes : (s.conf.confs c).canFilter = true := by simpa using hf
      constructor
      · rintro ⟨hmod, hok⟩
        exact ⟨by simp [hmod, hd, hyes], re, rfl, (Except.ok.inj hok).symm⟩
      · rintro ⟨hcan, re', hre, rfl⟩
        obtain rfl := Option.some.inj hre
        simp only [Bool.and_eq_true] at hcan
        exact ⟨hcan.1.1.1, rfl⟩

theorem setDestination_eq_ok {pDestination : Bytes} {perc : Option Bytes} :
    s.setDestination h c path pDestination perc = .ok t ↔
      (h.modRewrite && pDestination ≠ []) = true ∧ ∃ n, percentage? perc = some n ∧
        t = ((s.apply (.setActive c path)).apply (.setCurrentDupDestination c pDestination)).apply
          (.setDestinationDuplicationPercentage c pDestination n) := by
  have hperc : ∀ n, percentage perc = .ok n ↔ percentage? perc = some n := by
    intro n
    cases perc with
    | none => simp [percentage, percentage?]
    | some text =>
      cases hcast : lexicalCastUnsigned 32 text with
      | none => simp [percentage, percentage?, hcast]
      | some m =>
        by_cases hm : m ≤ 10000
        · have hn : m = n ∧ n ≤ 10000 ↔ m = n := and_iff_left_of_imp fun heq => heq ▸ hm
          simp [percentage, percentage?, hcast, not_lt.2 hm, hn]
        · have hn : ¬ (m = n ∧ n ≤ 10000) := fun heq => hm (heq.1 ▸ heq.2)
          simpa [percentage, percentage?, hcast, not_le.1 hm] using hn
  unfold setDestination
  rw [bind_setActive_eq_ok]
  by_cases hd : pDestination = []
  · simp [hd]
  · dsimp only
    rw [if_neg hd]
    constructor
    · rintro ⟨hmod, hok⟩
      cases hp : percentage perc with
      | error e =>
        rw [hp] at hok
        cases hok
      | ok n =>
        rw [hp] at hok
        exact ⟨by simp [hmod, hd], n, (hperc n).1 hp, (Except.ok.inj hok).symm⟩
    · rintro ⟨hmod, n, hn, rfl⟩
      rw [Bool.and_eq_true] at hmod
      rw [(hperc n).2 hn]
      exact ⟨hmod.1, rfl⟩

theorem exists_of_canDeclare {text : Bytes} {conf : DupConf}
    (hcan : Line.canDeclare h conf text = true) : ∃ re, h.compile text = some re := by
  unfold Line.canDeclare at hcan
  rw [Bool.and_eq_true] at hcan
  exact Option.isSome_iff_exists.1 hcan.2

theorem declare_iff {text missing invalid : Bytes} {op : Regex → ConfOp} :
    (∃ t, s.declare h c path text missing invalid op = .ok t) ↔
      Line.canDeclare h (s.conf.confs c) text = true := by
  simp only [declare_eq_ok]
  constructor
  · rintro ⟨t, hcan, -⟩
    exact hcan
  · intro hcan
    obtain ⟨re, hre⟩ := exists_of_canDeclare hcan
    exact ⟨_, hcan, re, hre, rfl⟩

theorem filterOf_iff {fType : FilterTypes} {pField pFilter : Bytes} :
    (∃ t, s.filterOf h c path fType pField pFilter = .ok t) ↔
      (Line.canDeclare h (s.conf.confs c) pFilter && (s.conf.confs c).canFilter) = true := by
  simp only [filterOf_eq_ok]
  constructor
  · rintro ⟨t, hcan, -⟩
    exact hcan
  · intro hcan
    obtain ⟨re, hre⟩ := exists_of_canDeclare (Bool.and_eq_true _ _ ▸ hcan).1
    exact ⟨_, hcan, re, hre, rfl⟩

theorem bounds_iff {pMin pMax : Bytes} : (∃ lMin lMax, ∃ _ : lMin ≤ lMax,
    bounds? pMin pMax = some (lMin, lMax)) ↔ (bounds? pMin pMax).isSome = true := by
  constructor
  · rintro ⟨lMin, lMax, -, hb⟩
    rw [hb]
    rfl
  · intro hb
    obtain ⟨⟨lMin, lMax⟩, hb⟩ := Option.isSome_iff_exists.1 hb
    exact ⟨lMin, lMax, bounds?_le hb, hb⟩

end DupSetup

namespace Line

variable {h : Host} {s t : DupSetup}

/-- **A line is accepted as it says.** -/
theorem set_iff (line : Line) :
    (∃ t, line.set h s = .ok t) ↔ line.Accepted h (s.conf.confs line.addr) = true := by
  unfold set Accepted
  cases line.directive with
  | dupName pName => by_cases hn : pName = [] <;> simp [DupSetup.setName, hn]
  | dupUrlCodec pUrlCodec => by_cases hn : pUrlCodec = [] <;> simp [DupSetup.setUrlCodec, hn]
  | dupTimeout pTimeout =>
    cases ht : lexicalCastUnsigned 32 pTimeout <;> simp [DupSetup.setTimeout, ht]
  | dupThreads pMin pMax =>
    simp only [DupSetup.setThreads_eq_ok, ← DupSetup.bounds_iff]
    exact ⟨fun ⟨_, lMin, lMax, hle, hb, _⟩ => ⟨lMin, lMax, hle, hb⟩,
      fun ⟨lMin, lMax, hle, hb⟩ => ⟨_, lMin, lMax, hle, hb, rfl⟩⟩
  | dupQueue pMin pMax =>
    simp only [DupSetup.setQueue_eq_ok, ← DupSetup.bounds_iff]
    exact ⟨fun ⟨_, lMin, lMax, hle, hb, _⟩ => ⟨lMin, lMax, hle, hb⟩,
      fun ⟨lMin, lMax, hle, hb⟩ => ⟨_, lMin, lMax, hle, hb, rfl⟩⟩
  | dupDuplicationType pDupType =>
    simp only [DupSetup.setDuplicationType, DupSetup.bind_setActive_eq_ok]
    cases DuplicationType.stringToEnum pDupType <;> simp
  | dupDestination pDestination perc =>
    simp only [DupSetup.setDestination_eq_ok]
    cases percentage? perc <;> simp
  | dupApplicationScope pAppScope =>
    simp only [DupSetup.setApplicationScope, DupSetup.bind_setActive_eq_ok]
    cases ApplicationScope.stringToEnum pAppScope <;> simp
  | dupFilter pField pFilter => exact DupSetup.filterOf_iff
  | dupPreventFilter pField pFilter => exact DupSetup.filterOf_iff
  | dupRawFilter pExpression => exact DupSetup.declare_iff
  | dupRawPreventFilter pExpression => exact DupSetup.declare_iff
  | dupRawSubstitute pMatch pReplace => exact DupSetup.declare_iff
  | dupSubstitute pField pMatch pReplace => exact DupSetup.declare_iff
  | dupErrorLogBodyMatch pMatch =>
    cases hre : h.compile pMatch <;> simp [DupSetup.setErrorLogBodyMatch, hre]
  | dupSync => simp [DupSetup.setSynchronous]
  | dup => simp [DupSetup.setActive_eq_ok]

/-- What an accepted line does: it moves the cursor of its location, declares what it says there,
and does so by operations of the processor and the configuration objects. -/
structure Effect (h : Host) (s t : DupSetup) (line : Line) : Prop where
  confs : t.conf.confs =
    Function.update s.conf.confs line.addr (line.cursor (s.conf.confs line.addr))
  quiet : line.declares h (s.conf.confs line.addr) = none →
    t.conf.proc.mCommands = s.conf.proc.mCommands
  declared : ∀ d x, line.declares h (s.conf.confs line.addr) = some (d, x) →
    t.conf.proc.mCommands =
      (s.conf.proc.modifyCommands line.addr d fun cmds => x.addTo cmds).mCommands
  ops : ∃ ops : List ConfOp, t.conf = ops.foldl ConfState.step s.conf

/-- A line that changes neither the processor nor a configuration object. -/
theorem Effect.of_same {line : Line} (hconf : t.conf = s.conf)
    (hcursor : line.cursor (s.conf.confs line.addr) = s.conf.confs line.addr)
    (hnone : line.declares h (s.conf.confs line.addr) = none) : Effect h s t line := by
  refine ⟨?_, fun _ => by rw [hconf], fun d x hx => ?_, [], hconf⟩
  · rw [hconf, hcursor, Function.update_eq_self]
  · rw [hnone] at hx
    cases hx

theorem Effect.of_declare {line : Line} {op : ConfOp} {x : Declaration}
    (ht : t = (s.apply (.setActive line.addr line.path)).apply op)
    (hconfs : ∀ s : ConfState, (s.step op).confs = s.confs)
    (hcursor : line.cursor (s.conf.confs line.addr) =
      (s.conf.confs line.addr).setActive line.path)
    (hdeclares : line.declares h (s.conf.confs line.addr) =
      some ((s.conf.confs line.addr).currentDupDestination, x))
    (hop : t.conf.proc.mCommands = (s.conf.proc.modifyCommands line.addr
      (s.conf.confs line.addr).currentDupDestination fun cmds => x.addTo cmds).mCommands) :
    Effect h s t line := by
  refine ⟨?_, fun hnone => ?_, fun d y hy => ?_, [.setActive line.addr line.path, op], ?_⟩
  · rw [ht, hcursor]
    exact hconfs _
  · rw [hdeclares] at hnone
    cases hnone
  · rw [hdeclares] at hy
    obtain ⟨rfl, rfl⟩ := Prod.mk.inj (Option.some.inj hy)
    exact hop
  · rw [ht]
    rfl

theorem effect_filterOf {line : Line} {fType : FilterTypes} {pField pFilter : Bytes}
    (ht : s.filterOf h line.addr line.path fType pField pFilter = .ok t)
    (hcursor : line.cursor (s.conf.confs line.addr) =
      (s.conf.confs line.addr).setActive line.path)
    (hdeclares : line.declares h (s.conf.confs line.addr) = (h.compile pFilter).map fun re =>
      ((s.conf.confs line.addr).currentDupDestination,
        .filter (toUpper pField) ((s.conf.confs line.addr).filter re fType))) :
    Effect h s t line := by
  obtain ⟨hcan, re, hre, rfl⟩ := DupSetup.filterOf_eq_ok.1 ht
  rw [hre, Option.map_some] at hdeclares
  refine .of_declare rfl (fun _ => rfl) hcursor hdeclares ?_
  rw [Bool.and_eq_true] at hcan
  change ((s.apply (.setActive line.addr line.path)).conf.proc.addFilter pField re line.addr
    ((s.apply (.setActive line.addr line.path)).conf.confs line.addr) fType).mCommands = _
  rw [DupSetup.confs_apply_setActive, RequestProcessor.addFilter]
  exact congrArg RequestProcessor.mCommands (if_pos hcan.2)

theorem effect_declare {line : Line} {text missing invalid : Bytes} {op : Regex → ConfOp}
    {x : Regex → Declaration}
    (ht : s.declare h line.addr line.path text missing invalid op = .ok t)
    (hconfs : ∀ (s : ConfState) (re : Regex), (s.step (op re)).confs = s.confs)
    (hcursor : line.cursor (s.conf.confs line.addr) =
      (s.conf.confs line.addr).setActive line.path)
    (hdeclares : line.declares h (s.conf.confs line.addr) = (h.compile text).map fun re =>
      ((s.conf.confs line.addr).currentDupDestination, x re))
    (hop : ∀ re, ((s.apply (.setActive line.addr line.path)).apply (op re)).conf.proc.mCommands =
      (s.conf.proc.modifyCommands line.addr (s.conf.confs line.addr).currentDupDestination
        fun cmds => (x re).addTo cmds).mCommands) :
    Effect h s t line := by
  obtain ⟨-, re, hre, rfl⟩ := DupSetup.declare_eq_ok.1 ht
  rw [hre, Option.map_some] at hdeclares
  exact .of_declare rfl (fun s => hconfs s re) hcursor hdeclares (hop re)

theorem Effect.of_modifyConf {line : Line} {op : ConfOp} {f : DupConf → DupConf}
    (ht : t = (s.apply (.setActive line.addr line.path)).apply op)
    (hop : ∀ s : ConfState, s.step op = s.modifyConf line.addr f)
    (hcursor : line.cursor (s.conf.confs line.addr) =
      f ((s.conf.confs line.addr).setActive line.path))
    (hnone : line.declares h (s.conf.confs line.addr) = none) : Effect h s t line := by
  have hconf : t.conf = (s.conf.step (.setActive line.addr line.path)).modifyConf line.addr f := by
    rw [ht, ← hop]
    rfl
  refine ⟨?_, fun _ => by rw [hconf]; rfl, fun d x hx => ?_, [.setActive line.addr line.path, op],
    ?_⟩
  · rw [hconf, hcursor]
    simp [ConfState.modifyConf, ConfState.step]
  · rw [hnone] at hx
    cases hx
  · rw [ht]
    rfl

/-- **An accepted line does what it says.** -/
theorem effect_set {line : Line} (ht : line.set h s = .ok t) : Effect h s t line := by
  have hactive : DupSetup.setActive h s line.addr line.path = .ok t →
      t = s.apply (.setActive line.addr line.path) := fun h => (DupSetup.setActive_eq_ok.1 h).2
  cases line with
  | mk c path directive =>
    unfold set at ht
    cases directive with
    | dupName pName =>
      by_cases hn : pName = []
      · simp [DupSetup.setName, hn] at ht
      · simp only [DupSetup.setName, if_neg hn, Except.ok.injEq] at ht
        exact .of_same (ht ▸ rfl) rfl rfl
    | dupUrlCodec pUrlCodec =>
      by_cases hn : pUrlCodec = []
      · simp [DupSetup.setUrlCodec, hn] at ht
      · simp only [DupSetup.setUrlCodec, if_neg hn, Except.ok.injEq] at ht
        subst ht
        refine ⟨?_, fun _ => rfl, fun d x hx => (by cases hx), [.setUrlCodec pUrlCodec], rfl⟩
        exact (Function.update_eq_self c s.conf.confs).symm
    | dupTimeout pTimeout =>
      cases htime : lexicalCastUnsigned 32 pTimeout with
      | none => simp [DupSetup.setTimeout, htime] at ht
      | some lTimeout =>
        simp only [DupSetup.setTimeout, htime, Except.ok.injEq] at ht
        exact .of_same (ht ▸ rfl) rfl rfl
    | dupThreads pMin pMax =>
      obtain ⟨lMin, lMax, hle, -, rfl⟩ := DupSetup.setThreads_eq_ok.1 ht
      exact .of_same rfl rfl rfl
    | dupQueue pMin pMax =>
      obtain ⟨lMin, lMax, hle, -, rfl⟩ := DupSetup.setQueue_eq_ok.1 ht
      exact .of_same rfl rfl rfl
    | dupDuplicationType pDupType =>
      simp only [DupSetup.setDuplicationType] at ht
      obtain ⟨-, ht⟩ := DupSetup.bind_setActive_eq_ok.1 ht
      cases hdt : DuplicationType.stringToEnum pDupType with
      | none => simp [hdt] at ht
      | some dt =>
        simp only [hdt, Except.ok.injEq] at ht
        exact .of_modifyConf (f := fun conf => conf.setCurrentDuplicationType dt) ht.symm
          (fun _ => rfl) (by simp [cursor, hdt]) rfl
    | dupDestination pDestination perc =>
      obtain ⟨-, n, hn, rfl⟩ := DupSetup.setDestination_eq_ok.1 ht
      refine ⟨?_, fun hnone => ?_, fun d x hx => ?_, [.setActive c path,
        .setCurrentDupDestination c pDestination,
        .setDestinationDuplicationPercentage c pDestination n], rfl⟩
      · simp [DupSetup.apply, ConfState.step, ConfState.modifyConf, cursor]
      · simp [declares, hn] at hnone
      · simp only [declares, hn, Option.map_some, Option.some.injEq, Prod.mk.injEq] at hx
        obtain ⟨rfl, rfl⟩ := hx
        rfl
    | dupApplicationScope pAppScope =>
      simp only [DupSetup.setApplicationScope] at ht
      obtain ⟨-, ht⟩ := DupSetup.bind_setActive_eq_ok.1 ht
      cases hscope : ApplicationScope.stringToEnum pAppScope with
      | none => simp [hscope] at ht
      | some scope =>
        simp only [hscope, Except.ok.injEq] at ht
        exact .of_modifyConf (f := fun conf => { conf with currentApplicationScope := scope })
          ht.symm (fun _ => rfl) (by simp [cursor, hscope]) rfl
    | dupFilter pField pFilter => exact effect_filterOf ht rfl rfl
    | dupPreventFilter pField pFilter => exact effect_filterOf ht rfl rfl
    | dupRawFilter pExpression =>
      refine effect_declare ht (fun _ _ => rfl) rfl rfl fun re => ?_
      simp only [DupSetup.apply, ConfState.step, RequestProcessor.addRawFilter,
        ConfState.modifyConf, Function.update_self]
      rfl
    | dupRawPreventFilter pExpression =>
      refine effect_declare ht (fun _ _ => rfl) rfl rfl fun re => ?_
      simp only [DupSetup.apply, ConfState.step, RequestProcessor.addRawFilter,
        ConfState.modifyConf, Function.update_self]
      rfl
    | dupRawSubstitute pMatch pReplace =>
      refine effect_declare ht (fun _ _ => rfl) rfl rfl fun re => ?_
      simp only [DupSetup.apply, ConfState.step, RequestProcessor.addRawSubstitution,
        ConfState.modifyConf, Function.update_self]
      rfl
    | dupSubstitute pField pMatch pReplace =>
      refine effect_declare ht (fun _ _ => rfl) rfl rfl fun re => ?_
      simp only [DupSetup.apply, ConfState.step, RequestProcessor.addSubstitution,
        ConfState.modifyConf, Function.update_self]
      rfl
    | dupErrorLogBodyMatch pMatch =>
      cases hre : h.compile pMatch with
      | none => simp [DupSetup.setErrorLogBodyMatch, hre] at ht
      | some re =>
        simp only [DupSetup.setErrorLogBodyMatch, hre, Except.ok.injEq] at ht
        exact .of_same (ht ▸ rfl) rfl rfl
    | dupSync =>
      simp only [DupSetup.setSynchronous, Except.ok.injEq] at ht
      subst ht
      exact ⟨rfl, fun _ => rfl, fun d x hx => (by cases hx), [.setSynchronous c], rfl⟩
    | dup =>
      rw [hactive ht]
      exact ⟨rfl, fun _ => rfl, fun d x hx => (by cases hx), [.setActive c path], rfl⟩

end Line

end ModDup
