import PushDown.Text.AsciiCase
import PushDown.Text.LowerCase

/-! # Two ways to ignore case

    Names are compared in two ways. Either their lower-case forms agree, which
    is a matter of all letters there are and of where a sigma stands in its
    word. Or they are the same word, which is a matter of `A` to `Z` only.

    The same word always has the same lower-case form (`lowerCase_eq_of_sameWord`).
    A letter of ASCII has case, is not passed over when the neighbours of a sigma
    are looked for, and has the small form that the word key gives it.

    The other direction fails for every letter beyond ASCII. Within ASCII it
    holds but for one character: the Kelvin sign is written like a capital `K`
    and has the small form `k` (`sameWord_iff_of_isAscii`).
-/

namespace PushDown.Text

variable {a b : String} {c d : Char} {before before' chars chars' : List Char}

/-! ## §1. Characters -/

/-- A capital letter of ASCII comes 32 places before its small form. -/
theorem toNat_toLower (c : Char) :
    c.toLower.toNat = if 65 ≤ c.toNat ∧ c.toNat ≤ 90 then c.toNat + 32 else c.toNat := by
  have hcapital : c.val ≥ 'A'.val ∧ c.val ≤ 'Z'.val ↔ 65 ≤ c.toNat ∧ c.toNat ≤ 90 := by
    rw [ge_iff_le, UInt32.le_iff_toNat_le, UInt32.le_iff_toNat_le]
    rfl
  unfold Char.toLower
  by_cases h : 65 ≤ c.toNat ∧ c.toNat ≤ 90
  · rw [dif_pos (hcapital.mpr h), if_pos h]
    show (c.val + 32).toNat = c.val.toNat + 32
    have hle : c.val.toNat ≤ 90 := h.2
    rw [UInt32.toNat_add]
    show (c.val.toNat + 32) % 4294967296 = c.val.toNat + 32
    omega
  · rw [dif_neg (mt hcapital.mp h), if_neg h]

/-- A letter of ASCII. -/
def IsLetter (c : Char) : Prop :=
  65 ≤ c.toNat ∧ c.toNat ≤ 90 ∨ 97 ≤ c.toNat ∧ c.toNat ≤ 122

/-- Characters with one key are the same, or two forms of a letter of ASCII. -/
theorem eq_or_isLetter (h : c.toLower = d.toLower) : c = d ∨ IsLetter c ∧ IsLetter d := by
  have hcode : c.toLower.toNat = d.toLower.toNat := congrArg Char.toNat h
  rw [toNat_toLower, toNat_toLower] at hcode
  unfold IsLetter
  by_cases heq : c.toNat = d.toNat
  · exact .inl (Char.toNat_inj.mp heq)
  · right
    split at hcode <;> split at hcode <;> omega

/-- The letters of ASCII have case, and are not passed over. -/
theorem casing_of_letterCode : ∀ code, code < 123 → 65 ≤ code ∧ code ≤ 90 ∨ 97 ≤ code →
    inRanges casedRanges code = true ∧ inRanges caseIgnorableRanges code = false := by
  decide +kernel

theorem IsLetter.casing (h : IsLetter c) : isCased c = true ∧ isCaseIgnorable c = false := by
  unfold IsLetter at h
  exact casing_of_letterCode c.toNat (by omega) (by omega)

/-- Characters with one key play the same part beside a sigma. -/
theorem casing_eq (h : c.toLower = d.toLower) :
    isCased c = isCased d ∧ isCaseIgnorable c = isCaseIgnorable d := by
  rcases eq_or_isLetter h with rfl | ⟨hc, hd⟩
  · exact ⟨rfl, rfl⟩
  · rw [hc.casing.1, hc.casing.2, hd.casing.1, hd.casing.2]
    exact ⟨rfl, rfl⟩

theorem lowerChar_of_ascii (h : c.toNat < 128) : lowerChar c = c.toLower := by
  unfold lowerChar
  rw [if_pos h]

/-! ## §2. The same word has one lower-case form -/

theorem meetsCased_congr (h : chars.map Char.toLower = chars'.map Char.toLower) :
    meetsCased chars = meetsCased chars' := by
  unfold meetsCased
  induction chars generalizing chars' with
  | nil =>
    rw [List.map_nil, eq_comm, List.map_eq_nil_iff] at h
    rw [h]
  | cons c chars ih =>
    cases chars' with
    | nil => cases h
    | cons d chars' =>
      obtain ⟨hhead, htail⟩ := List.cons.inj h
      obtain ⟨hcased, hignorable⟩ := casing_eq hhead
      rw [List.dropWhile_cons, List.dropWhile_cons, hignorable]
      cases isCaseIgnorable d with
      | true => exact ih htail
      | false => exact hcased

/-- The small forms of a text are those of every text with its key, after what has one key. -/
theorem lowerFrom_congr (hbefore : before.map Char.toLower = before'.map Char.toLower)
    (h : chars.map Char.toLower = chars'.map Char.toLower) :
    lowerFrom before chars = lowerFrom before' chars' := by
  induction chars generalizing before before' chars' with
  | nil =>
    rw [List.map_nil, eq_comm, List.map_eq_nil_iff] at h
    rw [h, lowerFrom, lowerFrom]
  | cons c chars ih =>
    cases chars' with
    | nil => cases h
    | cons d chars' =>
      obtain ⟨hhead, htail⟩ := List.cons.inj h
      have hnext : (c :: before).map Char.toLower = (d :: before').map Char.toLower := by
        rw [List.map_cons, List.map_cons, hhead, hbefore]
      have hsigma : lowerSigma before chars = lowerSigma before' chars' := by
        rw [lowerSigma, lowerSigma, meetsCased_congr hbefore, meetsCased_congr htail]
      rw [lowerFrom, lowerFrom, ih hnext htail, hsigma]
      rcases eq_or_isLetter hhead with rfl | ⟨hc, hd⟩
      · rfl
      · -- a letter of ASCII is neither a sigma nor a dotted capital
        have hplain : ∀ {x : Char}, IsLetter x → x.toNat < 128 ∧ x ≠ 'Σ' ∧ x ≠ 'İ' := by
          intro x hx
          unfold IsLetter at hx
          refine ⟨by omega, ?_, ?_⟩
          · rintro rfl
            exact absurd hx (by decide)
          · rintro rfl
            exact absurd hx (by decide)
        obtain ⟨hcAscii, hcSigma, hcDotted⟩ := hplain hc
        obtain ⟨hdAscii, hdSigma, hdDotted⟩ := hplain hd
        rw [if_neg hcSigma, if_neg hcDotted, if_neg hdSigma, if_neg hdDotted,
          lowerChar_of_ascii hcAscii, lowerChar_of_ascii hdAscii, hhead]

theorem lowerCase_eq_of_sameWord (h : sameWord a b = true) : lowerCase a = lowerCase b := by
  rw [lowerCase, lowerCase, lowerFrom_congr rfl (sameWord_iff.mp h)]

/-! ## §3. Texts of ASCII -/

/-- Whether every character of the text belongs to ASCII. -/
def isAscii (text : String) : Bool :=
  text.toList.all fun c => c.toNat < 128

theorem isAscii_iff : isAscii a = true ↔ ∀ c ∈ a.toList, c.toNat < 128 := by
  simp [isAscii]

/-- The sign for the unit of temperature, which is a letter of its own. -/
def kelvinSign : Char := '\u212A'

theorem toLower_lt_iff : c.toLower.toNat < 128 ↔ c.toNat < 128 := by
  rw [toNat_toLower]
  split <;> omega

/-- But for the Kelvin sign, nothing beyond ASCII has a small form in ASCII. Small forms are
    characters. -/
theorem target_of_mem_lowerRuns : ∀ run ∈ lowerRuns, run.last < 128 ∨
    run.first = kelvinSign.toNat ∧ run.last = kelvinSign.toNat ∨
    128 ≤ run.target ∧ (run.target + (run.last - run.first) < 0xD800 ∨
      0xDFFF < run.target ∧ run.target + (run.last - run.first) < 0x110000) := by
  decide +kernel

theorem toNat_ofNat {code : Nat} (h : code.isValidChar) : (Char.ofNat code).toNat = code := by
  rw [Char.ofNat, dif_pos h]
  rfl

theorem ascii_of_lowerChar (h : (lowerChar c).toNat < 128) (hkelvin : c ≠ kelvinSign) :
    c.toNat < 128 := by
  refine Nat.lt_of_not_le fun hge => ?_
  unfold lowerChar at h
  rw [if_neg (Nat.not_lt.mpr hge)] at h
  split at h
  · next code hfound =>
    obtain ⟨run, hrun, hmap⟩ := List.exists_of_findSome?_eq_some hfound
    unfold CaseRun.map? at hmap
    split at hmap
    · next hin =>
      obtain rfl := Option.some.inj hmap
      rcases target_of_mem_lowerRuns run hrun with hlast | ⟨hfirst, hlast⟩ | ⟨htarget, hvalid⟩
      · omega
      · exact hkelvin (Char.toNat_inj.mp (by omega))
      · rw [toNat_ofNat (by unfold Nat.isValidChar; omega)] at h
        omega
    · cases hmap
  · omega

/-- A text of ASCII has its key as its lower-case form. -/
theorem lowerFrom_of_ascii (h : ∀ c ∈ chars, c.toNat < 128) :
    lowerFrom before chars = chars.map Char.toLower := by
  induction chars generalizing before with
  | nil => rw [lowerFrom, List.map_nil]
  | cons c chars ih =>
    have hc : c.toNat < 128 := h c List.mem_cons_self
    have hsigma : c ≠ 'Σ' := by
      rintro rfl
      exact absurd hc (by decide)
    have hdotted : c ≠ 'İ' := by
      rintro rfl
      exact absurd hc (by decide)
    rw [lowerFrom, if_neg hsigma, if_neg hdotted, lowerChar_of_ascii hc,
      ih fun x hx => h x (List.mem_cons_of_mem c hx)]
    rfl

/-- A text whose small forms are all in ASCII is a text of ASCII, up to Kelvin signs. -/
theorem ascii_of_lowerFrom (h : ∀ c ∈ lowerFrom before chars, c.toNat < 128)
    (hkelvin : kelvinSign ∉ chars) : ∀ c ∈ chars, c.toNat < 128 := by
  induction chars generalizing before with
  | nil => exact fun c hc => nomatch hc
  | cons c chars ih =>
    rw [lowerFrom] at h
    obtain ⟨hhead, htail⟩ := List.forall_mem_append.mp h
    have hne : c ≠ kelvinSign := fun heq => hkelvin (heq ▸ List.mem_cons_self)
    have hrest : kelvinSign ∉ chars := fun hmem => hkelvin (List.mem_cons_of_mem c hmem)
    refine List.forall_mem_cons.mpr ⟨?_, ih htail hrest⟩
    split at hhead
    · -- neither form of a sigma belongs to ASCII
      have hsigma := hhead _ List.mem_cons_self
      unfold lowerSigma at hsigma
      split at hsigma
      · exact absurd hsigma (by decide)
      · exact absurd hsigma (by decide)
    · split at hhead
      · -- nor does the dot that is left behind
        have hdot := hhead '\u0307' (by simp)
        exact absurd hdot (by decide)
      · exact ascii_of_lowerChar (hhead _ List.mem_cons_self) hne

/-- A text is the same word as a text of ASCII exactly if it has the same lower-case form and no
    Kelvin sign stands in it. -/
theorem sameWord_iff_of_isAscii (ha : isAscii a = true) :
    sameWord a b = true ↔ lowerCase a = lowerCase b ∧ kelvinSign ∉ b.toList := by
  rw [isAscii_iff] at ha
  constructor
  · intro h
    refine ⟨lowerCase_eq_of_sameWord h, fun hmem => ?_⟩
    -- the key of the text would not belong to ASCII
    have hkey : kelvinSign.toLower ∈ wordKey a := by
      rw [sameWord_iff.mp h]
      exact List.mem_map_of_mem hmem
    obtain ⟨c, hc, heq⟩ := List.mem_map.mp hkey
    have hlt : kelvinSign.toLower.toNat < 128 := heq ▸ toLower_lt_iff.mpr (ha c hc)
    exact absurd hlt (by decide)
  · rintro ⟨h, hkelvin⟩
    have hforms : lowerFrom [] a.toList = lowerFrom [] b.toList := String.ofList_inj.mp h
    have hsmall : ∀ c ∈ lowerFrom [] b.toList, c.toNat < 128 := by
      rw [← hforms, lowerFrom_of_ascii ha]
      intro c hc
      obtain ⟨x, hx, rfl⟩ := List.mem_map.mp hc
      exact toLower_lt_iff.mpr (ha x hx)
    rw [lowerFrom_of_ascii ha, lowerFrom_of_ascii (ascii_of_lowerFrom hsmall hkelvin)] at hforms
    exact sameWord_iff.mpr hforms

end PushDown.Text
