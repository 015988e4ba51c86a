import ModDup.RequestInfo
import ModDup.UrlCodec

/-!
# The configuration of `mod_dup`

A location declares destinations, and for each destination filters, substitutions and a
percentage.  They are stored in `RequestProcessor::mCommands`, indexed by the address of the
configuration object and the destination (`src/RequestProcessor.hh`), and are added one
directive at a time while the server reads its configuration.

Regular expressions are Boost's: a `Regex` is any matcher that returns some substring of the
text it searches.

## Main definitions

* `Regex`, `TFilter`, `TSubstitute`, `Commands`, `DupConf`, `RequestProcessor`.
* `ConfOp`, `ConfState.step`, `ConfState.run` : the configuration phase as a transition system.
* `ConfState.Inv` : what every configuration satisfies (`ConfState.inv_run`).
-/

namespace ModDup

open Bytes

/-- A compiled `boost::regex`: its source text, `regex_search` (the text of the first match, if
there is one) and `regex_replace` with a given format. -/
structure Regex where
  /-- The source of the expression. -/
  str : Bytes
  /-- `regex_search`, returning `what[0]`. -/
  search : Bytes → Option Bytes
  /-- `regex_replace` on a text with a replacement format. -/
  replace : Bytes → Bytes → Bytes
  /-- A match is a substring of the text. -/
  search_infix : ∀ text m, search text = some m → m <:+: text

/-- `regex_search` returns true. -/
def Regex.found (re : Regex) (text : Bytes) : Bool := (re.search text).isSome

/-- An expression that matches the text `pat` and only it; `source` is how it is written. -/
def Regex.quoted (source pat : Bytes) : Regex where
  str := source
  search text := if pat <:+: text then some pat else none
  replace text replacement := replaceAll pat replacement text
  search_infix text m h := by
    split_ifs at h with hp
    exact Option.some.inj h ▸ hp

/-- A text without special characters as an expression. -/
def Regex.literal (pat : Bytes) : Regex := .quoted pat pat

/-- The expression `.+`, in which the dot is any byte: everything there is. -/
def Regex.dotPlus : Regex where
  str := Bytes.str ".+"
  search text := if text = [] then none else some text
  replace text replacement := if text = [] then [] else replacement
  search_infix text m h := by
    split_ifs at h
    exact Option.some.inj h ▸ List.infix_refl m

/-- `tFilter::eFilterTypes`. -/
inductive FilterTypes where
  | regular
  | preventDuplication
  deriving DecidableEq, Repr

/-- `tFilter`.  `mMatch` is mutable in the source: matching a filter writes it. -/
structure TFilter where
  mScope : ApplicationScope
  mRegex : Regex
  mDestination : Bytes
  mDuplicationType : DuplicationType
  mFilterType : FilterTypes
  mMatch : Bytes := []

/-- `tSubstitute`. -/
structure TSubstitute where
  mScope : ApplicationScope
  mRegex : Regex
  mReplacement : Bytes

/-- `tFiltersMap`, a multimap with case-insensitive keys.  Entries with equivalent keys keep
their insertion order and no function depends on the order of the others, so the entries are
listed as they were inserted. -/
abbrev FiltersMap := List (Bytes × TFilter)

/-- `tFieldSubstitutionMap`. -/
abbrev FieldSubstitutionMap := OrdMap Bytes (List TSubstitute)

/-- `Commands`: what is configured for one destination. -/
structure Commands where
  mFilters : FiltersMap := []
  mRawFilters : List TFilter := []
  mSubstitutions : FieldSubstitutionMap := .empty
  mRawSubstitutions : List TSubstitute := []
  mDuplicationPercentage : ℕ := 100

/-- Every filter of a destination, whatever its kind. -/
def Commands.filters (c : Commands) : List TFilter := c.mFilters.map Prod.snd ++ c.mRawFilters

/-- `DupConf`, the configuration object of a location. -/
structure DupConf where
  currentApplicationScope : ApplicationScope := .queryString
  dirName : Option Bytes := none
  currentDupDestination : Bytes := []
  synchronous : Bool := false
  mCurrentDuplicationType : DuplicationType := .none
  mHighestDuplicationType : DuplicationType := .none

/-- `DupConf::setCurrentDuplicationType`. -/
def DupConf.setCurrentDuplicationType (conf : DupConf) (dt : DuplicationType) : DupConf :=
  { conf with
    mCurrentDuplicationType := dt
    mHighestDuplicationType :=
      if dt.val > conf.mHighestDuplicationType.val then dt else conf.mHighestDuplicationType }

/-- `setActive`: the name of the location is the one of its first activation. -/
def DupConf.setActive (conf : DupConf) (path : Bytes) : DupConf :=
  { conf with dirName := some (conf.dirName.getD path) }

/-- `tCommandsByDestination`. -/
abbrev CommandsByDestination := OrdMap Bytes Commands

/-- The state of the `RequestProcessor`. -/
structure RequestProcessor where
  /-- Commands by address of the configuration object and destination. -/
  mCommands : OrdMap ℕ CommandsByDestination := .empty
  mUrlCodec : UrlCodec := .default
  mTimeoutCount : ℕ := 0
  mDuplicatedCount : ℕ := 0

namespace RequestProcessor

/-- The commands of destination `d` for the configuration object at address `c`. -/
def commands? (p : RequestProcessor) (c : ℕ) (d : Bytes) : Option Commands :=
  (p.mCommands.get? c).bind fun cbd => cbd.get? d

/-- Update `mCommands[c][d]`, created empty when it is not there yet. -/
def modifyCommands (p : RequestProcessor) (c : ℕ) (d : Bytes) (f : Commands → Commands) :
    RequestProcessor :=
  let cbd := (p.mCommands.get? c).getD .empty
  { p with mCommands := p.mCommands.set c (cbd.set d (f ((cbd.get? d).getD {}))) }

theorem commands?_modifyCommands (p : RequestProcessor) (c c' : ℕ) (d d' : Bytes)
    (f : Commands → Commands) :
    (p.modifyCommands c d f).commands? c' d' =
      if c' = c ∧ d' = d then some (f ((p.commands? c d).getD {})) else p.commands? c' d' := by
  unfold modifyCommands commands?
  by_cases hc : c' = c
  · subst hc
    by_cases hd : d' = d
    · subst hd
      cases p.mCommands.get? c' <;> simp
    · cases p.mCommands.get? c' <;> simp [hd]
  · simp [hc]

/-- `RequestProcessor::setUrlCodec`. -/
def setUrlCodec (p : RequestProcessor) (pUrlCodec : Bytes) : RequestProcessor :=
  { p with mUrlCodec := UrlCodec.getUrlCodec pUrlCodec }

/-- `RequestProcessor::addFilter`; a scope that holds neither body, headers nor query string
is refused with an exception, and nothing is stored. -/
def addFilter (p : RequestProcessor) (pField : Bytes) (pFilter : Regex) (c : ℕ) (conf : DupConf)
    (fType : FilterTypes) : RequestProcessor :=
  let s := conf.currentApplicationScope
  if s.has .body || s.has .headers || s.has .queryString then
    p.modifyCommands c conf.currentDupDestination fun cmds =>
      { cmds with mFilters := cmds.mFilters ++ [(toUpper pField,
        { mScope := s, mRegex := pFilter, mDestination := conf.currentDupDestination
          mDuplicationType := conf.mCurrentDuplicationType, mFilterType := fType })] }
  else p

/-- `RequestProcessor::setDestinationDuplicationPercentage`. -/
def setDestinationDuplicationPercentage (p : RequestProcessor) (c : ℕ) (destination : Bytes)
    (percentage : ℕ) : RequestProcessor :=
  p.modifyCommands c destination fun cmds => { cmds with mDuplicationPercentage := percentage }

/-- `RequestProcessor::addRawFilter`. -/
def addRawFilter (p : RequestProcessor) (pFilter : Regex) (c : ℕ) (conf : DupConf)
    (fType : FilterTypes) : RequestProcessor :=
  p.modifyCommands c conf.currentDupDestination fun cmds =>
    { cmds with mRawFilters := cmds.mRawFilters ++ [
      { mScope := conf.currentApplicationScope, mRegex := pFilter
        mDestination := conf.currentDupDestination
        mDuplicationType := conf.mCurrentDuplicationType, mFilterType := fType }] }

/-- `RequestProcessor::addSubstitution`. -/
def addSubstitution (p : RequestProcessor) (pField : Bytes) (pMatch : Regex) (pReplace : Bytes)
    (c : ℕ) (conf : DupConf) : RequestProcessor :=
  p.modifyCommands c conf.currentDupDestination fun cmds =>
    let declared := (cmds.mSubstitutions.get? (toUpper pField)).getD []
    let subst : TSubstitute := ⟨conf.currentApplicationScope, pMatch, pReplace⟩
    { cmds with
      mSubstitutions := cmds.mSubstitutions.set (toUpper pField) (declared ++ [subst]) }

/-- `RequestProcessor::addRawSubstitution`. -/
def addRawSubstitution (p : RequestProcessor) (pRegex : Regex) (pReplace : Bytes) (c : ℕ)
    (conf : DupConf) : RequestProcessor :=
  p.modifyCommands c conf.currentDupDestination fun cmds =>
    { cmds with mRawSubstitutions := cmds.mRawSubstitutions ++
        [⟨conf.currentApplicationScope, pRegex, pReplace⟩] }

end RequestProcessor

/-! ### The configuration phase -/

/-- One configuration operation, on the object at address `c` unless it is about the codec. -/
inductive ConfOp where
  | setUrlCodec (pUrlCodec : Bytes)
  | setActive (c : ℕ) (path : Bytes)
  | setSynchronous (c : ℕ)
  | addFilter (c : ℕ) (pField : Bytes) (pFilter : Regex) (fType : FilterTypes)
  | addRawFilter (c : ℕ) (pFilter : Regex) (fType : FilterTypes)
  | addSubstitution (c : ℕ) (pField : Bytes) (pMatch : Regex) (pReplace : Bytes)
  | addRawSubstitution (c : ℕ) (pRegex : Regex) (pReplace : Bytes)
  | setDestinationDuplicationPercentage (c : ℕ) (destination : Bytes) (percentage : ℕ)
  | setCurrentDuplicationType (c : ℕ) (dt : DuplicationType)
  | setCurrentDupDestination (c : ℕ) (destination : Bytes)
  | setCurrentApplicationScope (c : ℕ) (scope : ApplicationScope)

/-- The processor and the configuration objects, by address. -/
structure ConfState where
  proc : RequestProcessor := {}
  confs : ℕ → DupConf := fun _ => {}

namespace ConfState

/-- Update one configuration object. -/
def modifyConf (s : ConfState) (c : ℕ) (f : DupConf → DupConf) : ConfState :=
  { s with confs := Function.update s.confs c (f (s.confs c)) }

/-- One operation. -/
def step (s : ConfState) : ConfOp → ConfState
  | .setUrlCodec pUrlCodec => { s with proc := s.proc.setUrlCodec pUrlCodec }
  | .setActive c path => s.modifyConf c fun conf => conf.setActive path
  | .setSynchronous c => s.modifyConf c fun conf => { conf with synchronous := true }
  | .addFilter c pField pFilter fType =>
    { s with proc := s.proc.addFilter pField pFilter c (s.confs c) fType }
  | .addRawFilter c pFilter fType =>
    { s with proc := s.proc.addRawFilter pFilter c (s.confs c) fType }
  | .addSubstitution c pField pMatch pReplace =>
    { s with proc := s.proc.addSubstitution pField pMatch pReplace c (s.confs c) }
  | .addRawSubstitution c pRegex pReplace =>
    { s with proc := s.proc.addRawSubstitution pRegex pReplace c (s.confs c) }
  | .setDestinationDuplicationPercentage c destination percentage =>
    { s with proc := s.proc.setDestinationDuplicationPercentage c destination percentage }
  | .setCurrentDuplicationType c dt =>
    s.modifyConf c fun conf => conf.setCurrentDuplicationType dt
  | .setCurrentDupDestination c destination =>
    s.modifyConf c fun conf => { conf with currentDupDestination := destination }
  | .setCurrentApplicationScope c scope =>
    s.modifyConf c fun conf => { conf with currentApplicationScope := scope }

/-- The state after a sequence of operations. -/
def run (ops : List ConfOp) : ConfState := ops.foldl step {}

/-- A filter stored for destination `d` names it, and asks for no more than the highest
duplication type of its location. -/
def FilterOk (conf : DupConf) (d : Bytes) (f : TFilter) : Prop :=
  f.mDestination = d ∧ f.mDuplicationType.val ≤ conf.mHighestDuplicationType.val

/-- The invariant of the configuration phase. -/
structure Inv (s : ConfState) : Prop where
  /-- Stored filters agree with where they are stored. -/
  filters : ∀ c d cmds, s.proc.commands? c d = some cmds →
    ∀ f ∈ cmds.filters, FilterOk (s.confs c) d f
  /-- The current duplication type never exceeds the highest. -/
  current : ∀ c, (s.confs c).mCurrentDuplicationType.val ≤ (s.confs c).mHighestDuplicationType.val

/-- An operation that changes the commands of one destination keeps the invariant when every
filter it leaves there was there before or is a new one for that destination. -/
theorem inv_modifyCommands {s : ConfState} (h : s.Inv) (c : ℕ) (d : Bytes)
    (f : Commands → Commands)
    (hf : ∀ cmds, ∀ x ∈ (f cmds).filters, x ∈ cmds.filters ∨ FilterOk (s.confs c) d x) :
    Inv { s with proc := s.proc.modifyCommands c d f } := by
  refine ⟨fun c' d' cmds hget x hx => ?_, h.current⟩
  simp only [RequestProcessor.commands?_modifyCommands] at hget
  split_ifs at hget with hcd
  · obtain ⟨rfl, rfl⟩ := hcd
    obtain rfl := Option.some.inj hget
    rcases hf _ x hx with hold | hnew
    · cases hcmd : s.proc.commands? c' d' with
      | none => simp [hcmd, Commands.filters] at hold
      | some old => exact h.filters _ _ _ hcmd x (by simpa [hcmd] using hold)
    · exact hnew
  · exact h.filters _ _ _ hget x hx

theorem inv_modifyConf {s : ConfState} (h : s.Inv) (c : ℕ) (f : DupConf → DupConf)
    (hhigh : ∀ conf : DupConf,
      conf.mHighestDuplicationType.val ≤ (f conf).mHighestDuplicationType.val)
    (hcur : ∀ conf : DupConf,
      conf.mCurrentDuplicationType.val ≤ conf.mHighestDuplicationType.val →
        (f conf).mCurrentDuplicationType.val ≤ (f conf).mHighestDuplicationType.val) :
    (s.modifyConf c f).Inv := by
  refine ⟨fun c' d cmds hget x hx => ?_, fun c' => ?_⟩
  · obtain ⟨hd, ht⟩ := h.filters c' d cmds hget x hx
    refine ⟨hd, ht.trans ?_⟩
    by_cases hc : c' = c
    · subst hc; simpa [modifyConf] using hhigh (s.confs c')
    · simp [modifyConf, hc]
  · by_cases hc : c' = c
    · subst hc; simpa [modifyConf] using hcur _ (h.current c')
    · simpa [modifyConf, hc] using h.current c'

theorem inv_step {s : ConfState} (h : s.Inv) (op : ConfOp) : (s.step op).Inv := by
  cases op with
  | setUrlCodec pUrlCodec => exact ⟨h.filters, h.current⟩
  | setActive c path =>
    rw [step]
    exact inv_modifyConf h c _ (fun _ => le_rfl) fun _ hc => hc
  | setSynchronous c =>
    rw [step]
    exact inv_modifyConf h c _ (fun _ => le_rfl) fun _ hc => hc
  | addFilter c pField pFilter fType =>
    simp only [step, RequestProcessor.addFilter]
    split_ifs
    · refine inv_modifyCommands h c _ _ fun cmds x hx => ?_
      simp only [Commands.filters, List.map_append, List.map_cons, List.map_nil, List.mem_append,
        List.mem_singleton] at hx ⊢
      rcases hx with (hx | rfl) | hx
      · exact .inl (.inl hx)
      · exact .inr ⟨rfl, h.current c⟩
      · exact .inl (.inr hx)
    · exact h
  | addRawFilter c pFilter fType =>
    refine inv_modifyCommands h c _ _ fun cmds x hx => ?_
    simp only [Commands.filters, List.mem_append, List.mem_singleton] at hx ⊢
    rcases hx with hx | hx | rfl
    · exact .inl (.inl hx)
    · exact .inl (.inr hx)
    · exact .inr ⟨rfl, h.current c⟩
  | addSubstitution c pField pMatch pReplace =>
    exact inv_modifyCommands h c _ _ fun _ _ hx => .inl hx
  | addRawSubstitution c pRegex pReplace =>
    exact inv_modifyCommands h c _ _ fun _ _ hx => .inl hx
  | setDestinationDuplicationPercentage c destination percentage =>
    exact inv_modifyCommands h c _ _ fun _ _ hx => .inl hx
  | setCurrentDuplicationType c dt =>
    rw [step]
    refine inv_modifyConf h c _ (fun conf => ?_) fun conf _ => ?_ <;>
      simp only [DupConf.setCurrentDuplicationType] <;> split_ifs <;> omega
  | setCurrentDupDestination c destination =>
    rw [step]
    exact inv_modifyConf h c _ (fun _ => le_rfl) fun _ hc => hc
  | setCurrentApplicationScope c scope =>
    rw [step]
    exact inv_modifyConf h c _ (fun _ => le_rfl) fun _ hc => hc

/-- **Every configuration satisfies the invariant.** -/
theorem inv_run (ops : List ConfOp) : (run ops).Inv := by
  have h0 : Inv {} := by
    refine ⟨fun c d cmds hget => ?_, fun _ => le_rfl⟩
    simp [RequestProcessor.commands?] at hget
  exact List.foldlRecOn ops step h0 fun s hs op _ => inv_step hs op

end ConfState

end ModDup
