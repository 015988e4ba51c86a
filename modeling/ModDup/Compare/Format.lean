import ModDup.Compare.Deserialize

/-!
# The bodies `mod_compare` accepts

The dup format is three sections, each after its size on eight digits (`docs/USAGE.md`).  The reader
takes more than that: `boost::lexical_cast` reads a size with a sign, `substr` gives what is left
when a section is shorter than announced, and nothing looks behind the last section.

## Main definitions

* `HeaderBlock`, `DupPayload`, `DupFormat` : the format.
* `Lax` : the bodies that are accepted and are not in the format.

## Main results

* `deserializeBody_ok_iff` : what is accepted.
* `acceptsExactly_iff` : the reader is exact on a body iff it is not one of these.
-/

namespace ModDup

open Bytes RequestInfo

/-! ### Sizes -/

theorem SizeField.eq_padLeft {f : Bytes} {n : ℕ} (h : SizeField f n)
    (hdigits : ∀ c ∈ f, 48 ≤ c ∧ c ≤ 57) :
    f = padLeft 48 sectionSizeChars (decimal n) := by
  have hlt := h.lt
  obtain ⟨hlen, hplain | ⟨t, rfl, -⟩ | ⟨rfl, -⟩⟩ := h
  · refine ofDecimal_inj ?_ hplain (by rw [ofDecimal_padLeft, ofDecimal_decimal])
    rw [hlen, length_padLeft (length_decimal_le (by decide) hlt)]
  · exact absurd (hdigits 43 List.mem_cons_self) (by decide)
  · exact absurd (hdigits 45 (by decide)) (by decide)

theorem digits_padLeft (n w : ℕ) : ∀ c ∈ padLeft 48 w (decimal n), 48 ≤ c ∧ c ≤ 57 :=
  @digits_of_ofDecimal 0 n _ (by rw [ofDecimal_padLeft, ofDecimal_decimal])

theorem SizeField.inj {f : Bytes} {n m : ℕ} (h : SizeField f n) (h' : SizeField f m) : n = m := by
  have hn := ((sizeField_iff h.1).2 h).1
  rw [((sizeField_iff h.1).2 h').1] at hn
  exact (Option.some.inj hn).symm

theorem readSection_beyond {s : Bytes} {pos : ℕ} (h : s.length < pos) :
    readSection s pos = none := by
  rw [readSection, getLength, substr, if_neg (by omega), Option.bind_none, Option.bind_none]

/-! ### What is accepted -/

theorem readSection_split {before s b : Bytes} {pos : ℕ}
    (h : readSection (before ++ s) before.length = some (b, pos))
    (hpos : pos ≤ (before ++ s).length) :
    ∃ f rest, s = f ++ b ++ rest ∧ SizeField f b.length ∧ pos = (before ++ (f ++ b)).length := by
  obtain ⟨f, rest, n, rfl, hf, rfl, rfl⟩ := readSection_eq_some.1 h
  have hlen : (rest.take n).length = n := by
    rw [List.length_append, List.length_append, hf.1] at hpos
    rw [List.length_take]
    omega
  refine ⟨f, rest.drop n, by rw [List.append_assoc, List.take_append_drop], ?_, ?_⟩
  · rw [hlen]
    exact hf
  · simp only [List.length_append, hlen, hf.1]
    omega

/-- **The bodies that are accepted.** -/
theorem deserializeBody_ok_iff (r : RequestInfo) :
    (deserializeBody r).1 = .ok ↔
      ∃ b h a, Reads r.mBody b h a ∧ (deserializeHeader r.mResponseHeader h).1 = true := by
  constructor
  · intro hok
    unfold deserializeBody at hok
    split_ifs at hok with hsize
    split at hok
    · cases hok
    · rename_i b pos hread₁
      dsimp only at hok
      split at hok
      · cases hok
      · rename_i h pos' hread₂
        split at hok
        · cases hok
        · rename_i a pos'' hread₃
          -- a position beyond the end would have stopped the next section
          have hpos : pos ≤ ([] ++ r.mBody).length := by
            by_contra hbeyond
            rw [readSection_beyond (by simpa using hbeyond)] at hread₂
            cases hread₂
          obtain ⟨f₁, s₁, hs, hf₁, hp⟩ := @readSection_split [] r.mBody b pos hread₁ hpos
          rw [hs, hp] at hread₂
          have hpos' : pos' ≤ (f₁ ++ b ++ s₁).length := by
            by_contra hbeyond
            rw [hs, readSection_beyond (by simpa using hbeyond)] at hread₃
            cases hread₃
          obtain ⟨f₂, s₂, hs', hf₂, hp'⟩ := readSection_split hread₂ hpos'
          have hwhole : r.mBody = f₁ ++ b ++ (f₂ ++ h) ++ s₂ := by
            rw [hs, hs']
            simp only [List.append_assoc]
          rw [hwhole, hp'] at hread₃
          obtain ⟨f₃, rest, n, hs'', hf₃, ha, -⟩ := readSection_eq_some.1 hread₃
          refine ⟨b, h, a, ⟨f₁, f₂, f₃, rest, n, ?_, hf₁, hf₂, hf₃, ha⟩, ?_⟩
          · rw [hwhole, hs'']
            simp only [List.append_assoc]
          · by_contra hlines
            simp [hlines] at hok
  · rintro ⟨b, h, a, hr, hlines⟩
    rw [deserializeBody_reads hr, if_pos hlines]

/-! ### The format -/

/-- A header block with one line `name: value` for each header. -/
def HeaderBlock (H : KeyValList) (h : Bytes) : Prop :=
  getlines h = H.map (fun v => v.1 ++ lDelim ++ v.2) ∧ ∀ v ∈ H, ¬ lDelim <:+: v.1

/-- A body in the dup format, with its three sections. -/
structure DupPayload (b h a s : Bytes) : Prop where
  reqBody : b.length < 10 ^ sectionSizeChars
  header : h.length < 10 ^ sectionSizeChars
  answer : a.length < 10 ^ sectionSizeChars
  lines : ∃ H, HeaderBlock H h
  text : s = serialize b ++ serialize h ++ serialize a

/-- The dup format. -/
def DupFormat (s : Bytes) : Prop := ∃ b h a, DupPayload b h a s

/-- What is expected of the reader on a body: it accepts the format and nothing else, and gives
what was serialised. -/
def AcceptsExactly (s : Bytes) (res : ApStatus × RequestInfo) : Prop :=
  (DupFormat s → res.1 = .ok) ∧ (¬ DupFormat s → res.1 = .httpBadRequest) ∧
    (res.1 = .ok → ∃ H h, h.length < 10 ^ sectionSizeChars ∧ HeaderBlock H h ∧
      s = serialize res.2.mReqBody ++ serialize h ++ serialize res.2.mResponseBody ∧
      res.2.mResponseHeader = OrdMap.empty.setAll H)

/-- The bodies that can be read and are not in the format: a size has a sign, or the last section is
shorter than its size, or longer. -/
def Lax (s : Bytes) : Prop :=
  ∃ f₁ b f₂ h f₃ rest n, s = f₁ ++ b ++ (f₂ ++ h ++ (f₃ ++ rest)) ∧ SizeField f₁ b.length ∧
    SizeField f₂ h.length ∧ SizeField f₃ n ∧ (∀ l ∈ getlines h, lDelim <:+: l) ∧
    ((∃ c ∈ f₁ ++ f₂ ++ f₃, ¬ (48 ≤ c ∧ c ≤ 57)) ∨ rest.length ≠ n)

theorem exists_lines {ls : List Bytes} (h : ∀ l ∈ ls, lDelim <:+: l) :
    ∃ H : KeyValList, ls = H.map (fun v => v.1 ++ lDelim ++ v.2) ∧ ∀ v ∈ H, ¬ lDelim <:+: v.1 := by
  induction ls with
  | nil => exact ⟨[], rfl, fun v hv => by cases hv⟩
  | cons l ls ih =>
    obtain ⟨hl, hls⟩ := List.forall_mem_cons.1 h
    obtain ⟨H, rfl, hH⟩ := ih hls
    obtain ⟨pos, hpos⟩ := Option.isSome_iff_exists.1 (find_lDelim_isSome.2 hl)
    obtain ⟨name, value, rfl, -, hname⟩ := find_eq_some (by decide) hpos
    exact ⟨(name, value) :: H, rfl, List.forall_mem_cons.2 ⟨hname, hH⟩⟩

theorem HeaderBlock.deserializeHeader_eq {H : KeyValList} {h : Bytes} (hblock : HeaderBlock H h)
    (m : MapStr) : deserializeHeader m h = (true, m.setAll H) := by
  rw [deserializeHeader, hblock.1]
  exact deserializeLines_lines m hblock.2

theorem SizeField.eq_of_append {f x y : Bytes} {n m : ℕ} (hf : SizeField f n)
    (hm : m < 10 ^ sectionSizeChars)
    (h : f ++ x = padLeft 48 sectionSizeChars (decimal m) ++ y) :
    f = padLeft 48 sectionSizeChars (decimal m) ∧ n = m ∧ x = y := by
  have hpad := sizeField_padLeft hm
  obtain ⟨rfl, rfl⟩ := List.append_inj h (hf.1.trans hpad.1.symm)
  exact ⟨rfl, hf.inj hpad, rfl⟩

/-- A body in the format is none of the others. -/
theorem not_lax_of_serialize {f₁ b f₂ h f₃ rest h' : Bytes} {n : ℕ} (h₁ : SizeField f₁ b.length)
    (h₂ : SizeField f₂ h.length) (h₃ : SizeField f₃ n) (hh' : h'.length < 10 ^ sectionSizeChars)
    (heq : f₁ ++ b ++ (f₂ ++ h ++ (f₃ ++ rest)) =
      serialize b ++ serialize h' ++ serialize (rest.take n)) :
    (∀ c ∈ f₁ ++ f₂ ++ f₃, 48 ≤ c ∧ c ≤ 57) ∧ rest.length = n := by
  have hn : (rest.take n).length < 10 ^ sectionSizeChars :=
    lt_of_le_of_lt (List.length_take_le _ _) h₃.lt
  simp only [serialize, List.append_assoc] at heq
  obtain ⟨rfl, -, heq₁⟩ := h₁.eq_of_append h₁.lt heq
  obtain ⟨rfl, hlen, heq₂⟩ := h₂.eq_of_append hh' (List.append_cancel_left heq₁)
  have heq₃ := (List.append_inj heq₂ hlen).2
  obtain ⟨rfl, hlen', heq₄⟩ := h₃.eq_of_append hn heq₃
  refine ⟨?_, ?_⟩
  · intro c hc
    rcases List.mem_append.1 hc with hc | hc
    · rcases List.mem_append.1 hc with hc | hc
      · exact digits_padLeft _ _ c hc
      · exact digits_padLeft _ _ c hc
    · exact digits_padLeft _ _ c hc
  · rw [heq₄]
    exact hlen'.symm

/-- A body that can be read and is not one of these is in the format. -/
theorem Reads.serialize_eq {s b h a : Bytes} (hr : Reads s b h a)
    (hlines : ∀ l ∈ getlines h, lDelim <:+: l) (hlax : ¬ Lax s) :
    s = serialize b ++ serialize h ++ serialize a ∧ b.length < 10 ^ sectionSizeChars ∧
      h.length < 10 ^ sectionSizeChars ∧ a.length < 10 ^ sectionSizeChars := by
  obtain ⟨f₁, f₂, f₃, rest, n, hs, h₁, h₂, h₃, ha⟩ := hr
  have hexact : (∀ c ∈ f₁ ++ f₂ ++ f₃, 48 ≤ c ∧ c ≤ 57) ∧ rest.length = n := by
    by_contra hcon
    refine hlax ⟨f₁, b, f₂, h, f₃, rest, n, hs, h₁, h₂, h₃, hlines, ?_⟩
    rw [not_and_or] at hcon
    refine hcon.imp (fun hdigits => ?_) id
    push Not at hdigits
    obtain ⟨c, hc, hc'⟩ := hdigits
    exact ⟨c, hc, fun hboth => absurd (hc' hboth.1) (not_lt.2 hboth.2)⟩
  obtain ⟨hdigits, hlen⟩ := hexact
  have hrest : a = rest := by rw [ha, ← hlen, List.take_length]
  subst hrest
  have hf₁ := h₁.eq_padLeft fun c hc => hdigits c (by simp [hc])
  have hf₂ := h₂.eq_padLeft fun c hc => hdigits c (by simp [hc])
  have hf₃ := h₃.eq_padLeft fun c hc => hdigits c (by simp [hc])
  refine ⟨?_, h₁.lt, h₂.lt, by rw [hlen]; exact h₃.lt⟩
  rw [hs, hf₁, hf₂, hf₃, ← hlen]
  simp only [serialize, List.append_assoc]

/-- The other bodies are accepted. -/
theorem Lax.not_acceptsExactly {s : Bytes} (h : Lax s) (id : Bytes) (startTime : ℤ) :
    (deserializeBody (RequestInfo.received id startTime s)).1 = .ok ∧
      ¬ AcceptsExactly s (deserializeBody (RequestInfo.received id startTime s)) := by
  obtain ⟨f₁, b, f₂, h, f₃, rest, n, hs, h₁, h₂, h₃, hlines, hlax⟩ := h
  have hreads : Reads (RequestInfo.received id startTime s).mBody b h (rest.take n) :=
    ⟨f₁, f₂, f₃, rest, n, hs, h₁, h₂, h₃, rfl⟩
  have haccepted : (deserializeHeader OrdMap.empty h).1 = true :=
    (deserializeLines_fst _ _).2 hlines
  rw [deserializeBody_reads hreads]
  have hok : (if (deserializeHeader (RequestInfo.received id startTime s).mResponseHeader h).1 then
      ApStatus.ok else .httpBadRequest) = .ok := if_pos haccepted
  refine ⟨hok, ?_⟩
  rintro ⟨-, -, hexact⟩
  obtain ⟨H', h', hh', -, heq, -⟩ := hexact hok
  obtain ⟨hdigits, hlen⟩ := not_lax_of_serialize h₁ h₂ h₃ hh' (hs.symm.trans heq)
  rcases hlax with ⟨c, hc, hnot⟩ | hne
  · exact hnot (hdigits c hc)
  · exact hne hlen

/-- **The reader is exact on a body iff no size in it has a sign and its last section is as long as
announced**, as far as the body can be read at all. -/
theorem acceptsExactly_iff (id : Bytes) (startTime : ℤ) (s : Bytes) :
    AcceptsExactly s (deserializeBody (RequestInfo.received id startTime s)) ↔ ¬ Lax s := by
  set r := RequestInfo.received id startTime s with hr
  have hempty : r.mResponseHeader = OrdMap.empty := rfl
  constructor
  · intro hexact hlax
    exact (hlax.not_acceptsExactly id startTime).2 hexact
  · intro hlax
    have hread : (deserializeBody r).1 = .ok → ∃ H h, h.length < 10 ^ sectionSizeChars ∧
        HeaderBlock H h ∧ s = serialize (deserializeBody r).2.mReqBody ++ serialize h ++
          serialize (deserializeBody r).2.mResponseBody ∧
        (deserializeBody r).2.mResponseHeader = OrdMap.empty.setAll H ∧
        (deserializeBody r).2.mReqBody.length < 10 ^ sectionSizeChars ∧
        (deserializeBody r).2.mResponseBody.length < 10 ^ sectionSizeChars := by
      intro hok
      obtain ⟨b, h, a, hreads, haccepted⟩ := (deserializeBody_ok_iff r).1 hok
      have hlines := (deserializeLines_fst _ _).1 haccepted
      obtain ⟨H, hH⟩ := exists_lines hlines
      have hblock : HeaderBlock H h := hH
      obtain ⟨heq, hb, hh, ha⟩ := hreads.serialize_eq hlines hlax
      rw [deserializeBody_reads hreads, hblock.deserializeHeader_eq, hempty]
      exact ⟨H, h, hh, hblock, heq, rfl, hb, ha⟩
    refine ⟨?_, fun hnot => ?_, fun hok => ?_⟩
    · rintro ⟨b, h, a, hb, hh, ha, ⟨H, hblock⟩, heq⟩
      rw [deserializeBody_sections r heq hb hh ha, hblock.deserializeHeader_eq]
      rfl
    · cases hstatus : (deserializeBody r).1 with
      | httpBadRequest => rfl
      | ok =>
        obtain ⟨H, h, hh, hblock, heq, -, hb, ha⟩ := hread hstatus
        exact absurd ⟨_, h, _, hb, hh, ha, ⟨H, hblock⟩, heq⟩ hnot
    · obtain ⟨H, h, hh, hblock, heq, hmap, -⟩ := hread hok
      exact ⟨H, h, hh, hblock, heq, hmap⟩

/-- **A body with a signed size, and one with bytes after its last section, are accepted.** -/
theorem lax_accepted :
    let signed := deserializeBody (RequestInfo.received [] 0 (str "+00000000000000000000000"))
    let longer := deserializeBody (RequestInfo.received [] 0 (str "000000000000000000000000tail"))
    (signed.1 = .ok ∧ ¬ AcceptsExactly (str "+00000000000000000000000") signed) ∧
      (longer.1 = .ok ∧ ¬ AcceptsExactly (str "000000000000000000000000tail") longer) := by
  have hzero : SizeField (str "00000000") 0 := ⟨by decide, .inl (by decide)⟩
  have hplus : SizeField (str "+0000000") 0 :=
    ⟨by decide, .inr (.inl ⟨str "0000000", rfl, by decide⟩)⟩
  refine ⟨Lax.not_acceptsExactly ?_ [] 0, Lax.not_acceptsExactly ?_ [] 0⟩
  · exact ⟨str "+0000000", [], str "00000000", [], str "00000000", [], 0, by decide, hplus, hzero,
      hzero, by decide, .inl ⟨43, by decide, by decide⟩⟩
  · exact ⟨str "00000000", [], str "00000000", [], str "00000000", str "tail", 0, by decide, hzero,
      hzero, hzero, by decide, .inr (by decide)⟩

end ModDup
