import ActionScript.Number.Decimal
import ActionScript.Settings

/-! # Lower case

A text in lower case is its own lower case (`Text.lower_lower`): no character that the case tables
lead to is mapped by them again. So are the texts of finite numbers (`Number.lower_text`), while
those of the others have capitals. No table leads to a digit, so no other text has a numeral as its
lower case (`Text.lower_eq_of_isDigit`). -/

namespace ActionScript

namespace Text

/-! ## Case tables -/

namespace CaseRange

variable {r t : CaseRange} {n : Nat}

theorem contains_iff :
    r.contains n ↔ r.first ≤ n ∧ n ≤ r.last ∧ (n - r.first) % r.step = 0 := by
  simp [contains, and_assoc]

/-- The members of a range are congruent. -/
theorem mod_eq_of_contains (hn : r.contains n) : n % r.step = r.first % r.step := by
  obtain ⟨hfirst, _, hstep⟩ := contains_iff.mp hn
  obtain ⟨q, hq⟩ := Nat.dvd_of_mod_eq_zero hstep
  have hsum : n = r.first + r.step * q := by omega
  rw [hsum, Nat.add_mul_mod_self_left]

/-- The range of the images. -/
def image (r : CaseRange) : CaseRange :=
  { r with first := (r.first + r.shift).toNat, last := (r.last + r.shift).toNat }

/-- The shift of a range takes its members to its image. -/
theorem contains_image (hfirst : 0 ≤ r.first + r.shift) (hn : r.contains n) :
    r.image.contains (n + r.shift).toNat := by
  obtain ⟨hle, hlast, hstep⟩ := contains_iff.mp hn
  have hdiff : (n + r.shift).toNat - (r.first + r.shift).toNat = n - r.first := by omega
  refine contains_iff.mpr ⟨?_, ?_, ?_⟩
  · simp only [image]
    omega
  · simp only [image]
    omega
  · simp only [image]
    rw [hdiff, hstep]

/-- Ranges without a common member: one ends before the other begins, or their members are not
congruent. -/
def misses (r t : CaseRange) : Bool :=
  Nat.blt r.last t.first || Nat.blt t.last r.first ||
    (Nat.beq r.step t.step || Nat.beq r.first r.last) &&
      !Nat.beq (r.first % t.step) (t.first % t.step)

/-- Ranges that miss each other have no member in common. -/
theorem not_contains_of_misses (h : r.misses t) (hn : r.contains n) : t.contains n = false := by
  rw [Bool.eq_false_iff]
  intro ht
  have hr := contains_iff.mp hn
  have ht' := contains_iff.mp ht
  have hmod := mod_eq_of_contains ht
  simp only [misses, Bool.or_eq_true, Nat.blt_eq, Bool.and_eq_true, Bool.not_eq_true',
    ← Bool.not_eq_true, Nat.beq_eq] at h
  rcases h with (hlast | hlast) | ⟨hstep | hsingle, hne⟩
  · omega
  · omega
  · exact hne (by rw [← hmod, ← hstep, mod_eq_of_contains hn])
  · have hn : n = r.first := by omega
    exact hne (by rw [← hmod, hn])

end CaseRange

/-- No range of the table leads into a range of the table. -/
theorem misses_lowerRanges :
    (lowerRanges.all fun r => lowerRanges.all fun t => r.image.misses t) = true := by
  decide +kernel

/-! ## Characters -/

/-- The character is its own lower case wherever it stands. -/
def isLower (c : Char) : Bool := c ≠ 'Σ' && lowerChar c == [c]

theorem isLower_iff {c : Char} : isLower c ↔ c ≠ 'Σ' ∧ lowerChar c = [c] := by
  simp [isLower]

theorem isLower_toLower {c : Char} (hc : c.toNat < 128) : isLower c.toLower := by
  have hcodes : ∀ n < 128, isLower (Char.ofNat n).toLower := by decide +kernel
  have hlower := hcodes c.toNat hc
  rwa [Char.ofNat_toNat] at hlower

/-- Characters that no table maps. -/
theorem isLower_of_unmapped {c : Char} (hc : 128 ≤ c.toNat)
    (hsequences : lowerSequences.lookup c.toNat = none)
    (hranges : ∀ r ∈ lowerRanges, r.contains c.toNat = false) : isLower c := by
  refine isLower_iff.mpr ⟨?_, ?_⟩
  · rintro rfl
    exact absurd hranges (by decide)
  · have hfind : lowerRanges.find? (·.contains c.toNat) = none := by
      rw [List.find?_eq_none]
      intro r hr
      simp [hranges r hr]
    rw [lowerChar, if_neg (by omega), mapCase, hsequences, hfind]

/-- The images of a range are characters beyond ASCII, or there is only one, and none is a digit. -/
theorem image_lowerRanges : ∀ r ∈ lowerRanges, 0 ≤ r.first + r.shift ∧ 58 ≤ r.image.first ∧
    r.image.contains 0x130 = false ∧
    (128 ≤ r.image.first ∧ (r.image.last < 0xd800 ∨ 0xdfff < r.image.first ∧
      r.image.last < 0x110000) ∨ r.first = r.last ∧ isLower (Char.ofNat r.image.first)) := by
  decide +kernel

theorem isLower_of_range {r : CaseRange} {n : Nat} (hr : r ∈ lowerRanges) (hn : r.contains n) :
    isLower (Char.ofNat (n + r.shift).toNat) := by
  obtain ⟨hfirst, _, hsequence, hbeyond | ⟨hsingle, hlower⟩⟩ := image_lowerRanges r hr
  · have himage := CaseRange.contains_image hfirst hn
    have hbounds := CaseRange.contains_iff.mp himage
    have hvalid : (n + r.shift).toNat.isValidChar := by
      rw [Nat.isValidChar]
      omega
    have hcode : (Char.ofNat (n + r.shift).toNat).toNat = (n + r.shift).toNat := by
      rw [Char.ofNat, dif_pos hvalid]
      rfl
    refine isLower_of_unmapped ?_ ?_ ?_
    · omega
    · rw [hcode]
      have hne : (n + r.shift).toNat ≠ 0x130 := by
        intro heq
        rw [heq, hsequence] at himage
        cases himage
      rw [lowerSequences, List.lookup_cons, beq_false_of_ne hne]
      rfl
    · intro t ht
      have hmisses := misses_lowerRanges
      rw [List.all_eq_true] at hmisses
      rw [hcode]
      exact CaseRange.not_contains_of_misses (List.all_eq_true.mp (hmisses r hr) t ht) himage
  · have hbounds := CaseRange.contains_iff.mp hn
    have hn : n = r.first := by omega
    rw [hn]
    exact hlower

/-- The lower case of a character is in lower case. -/
theorem isLower_of_mem_lowerChar {c d : Char} (hd : d ∈ lowerChar c) : isLower d := by
  rw [lowerChar] at hd
  split at hd
  · rename_i hascii
    rw [List.mem_singleton.mp hd]
    exact isLower_toLower hascii
  rename_i hbeyond
  rw [mapCase] at hd
  split at hd
  · rename_i image himage
    have hsequences : ∀ e ∈ lowerSequences, ∀ n ∈ e.2, isLower (Char.ofNat n) := by
      decide
    obtain ⟨n, hn, rfl⟩ := List.mem_map.mp hd
    obtain ⟨_, _, htable, _⟩ := List.lookup_eq_some_iff.mp himage
    exact hsequences (c.toNat, image) (by rw [htable]; simp) n hn
  · rename_i hsequence
    split at hd
    · rename_i r hr
      have hc : r.contains c.toNat := by simpa using List.find?_some hr
      rw [List.mem_singleton.mp hd]
      exact isLower_of_range (List.mem_of_find?_eq_some hr) hc
    · rename_i hranges
      rw [List.mem_singleton.mp hd]
      refine isLower_of_unmapped (by omega) hsequence fun r hr => ?_
      rw [List.find?_eq_none] at hranges
      exact Bool.eq_false_iff.mpr (hranges r hr)

/-! ## Texts -/

theorem lowerAfter_of_isLower {cs : List Char} (hcs : ∀ c ∈ cs, isLower c) (before : List Char) :
    lowerAfter before cs = cs := by
  induction cs generalizing before with
  | nil => rfl
  | cons c cs ih =>
    obtain ⟨hsigma, hc⟩ := isLower_iff.mp (hcs c List.mem_cons_self)
    rw [lowerAfter, if_neg hsigma, hc, ih fun d hd => hcs d (List.mem_cons_of_mem c hd)]
    rfl

theorem isLower_of_mem_lowerAfter {before cs : List Char} {d : Char}
    (hd : d ∈ lowerAfter before cs) : isLower d := by
  induction cs generalizing before with
  | nil => cases hd
  | cons c cs ih =>
    rw [lowerAfter, List.mem_append] at hd
    rcases hd with hd | hd
    · split at hd
      · rw [List.mem_singleton.mp hd]
        split <;> decide
      · exact isLower_of_mem_lowerChar hd
    · exact ih hd

/-- A text in lower case is left as it is. -/
theorem lower_of_isLower {s : String} (hs : ∀ c ∈ s.toList, isLower c) : lower s = s := by
  rw [lower, lowerAfter_of_isLower hs, String.ofList_toList]

@[simp] theorem lower_lower (s : String) : lower (lower s) = lower s := by
  refine lower_of_isLower fun c hc => ?_
  rw [lower, String.toList_ofList] at hc
  exact isLower_of_mem_lowerAfter hc

end Text

@[simp] theorem Settings.normalize_normalize (s : Settings) (name : String) :
    s.normalize (s.normalize name) = s.normalize name := by
  simp only [normalize]
  split
  · rfl
  · exact Text.lower_lower name

/-! ## Digits -/

namespace Text

theorem code_of_isDigit {c : Char} (hc : c.isDigit) : 48 ≤ c.toNat ∧ c.toNat ≤ 57 := by
  simpa [Char.isDigit, UInt32.le_iff_toNat_le] using hc

theorem toLower_of_lt {c : Char} (hc : c.toNat < 65) : c.toLower = c := by
  have hcapital : ¬ (c.val ≥ 'A'.val ∧ c.val ≤ 'Z'.val) := by
    intro h
    have hlow : 65 ≤ c.toNat := UInt32.le_iff_toNat_le.mp h.1
    omega
  exact dif_neg hcapital

/-- A capital has no digit as its lower case. -/
theorem toLower_of_isDigit {c : Char} (hc : c.toLower.isDigit) : c.toLower = c := by
  by_cases hcapital : c.val ≥ 'A'.val ∧ c.val ≤ 'Z'.val
  · have hlow : 65 ≤ c.toNat := UInt32.le_iff_toNat_le.mp hcapital.1
    have hhigh : c.toNat ≤ 90 := UInt32.le_iff_toNat_le.mp hcapital.2
    have hcode : c.toLower.toNat = (c.val + 32).toNat := congrArg Char.toNat (dif_pos hcapital)
    have hsum : (c.val + 32).toNat = c.toNat + 32 :=
      (UInt32.toNat_add c.val 32).trans (Nat.mod_eq_of_lt (by simp; omega))
    have hbounds := code_of_isDigit hc
    omega
  · exact dif_neg hcapital

theorem isLower_of_isDigit {c : Char} (hc : c.isDigit) : isLower c := by
  have hbounds := code_of_isDigit hc
  rw [← toLower_of_lt (by omega : c.toNat < 65)]
  exact isLower_toLower (by omega)

theorem not_isDigit_ofNat {n : Nat} (hn : 58 ≤ n) : (Char.ofNat n).isDigit = false := by
  rw [Bool.eq_false_iff]
  intro hdigit
  have hbounds := code_of_isDigit hdigit
  by_cases hvalid : n.isValidChar
  · have hcode : (Char.ofNat n).toNat = n := by
      rw [Char.ofNat, dif_pos hvalid]
      rfl
    omega
  · rw [Char.ofNat, dif_neg hvalid] at hbounds
    exact absurd hbounds (by decide)

/-- A character with a digit in its lower case is that digit. -/
theorem eq_of_isDigit_of_mem_lowerChar {c d : Char} (hd : d ∈ lowerChar c) (hdigit : d.isDigit) :
    d = c := by
  rw [lowerChar] at hd
  split at hd
  · rw [List.mem_singleton.mp hd] at hdigit ⊢
    exact toLower_of_isDigit hdigit
  rw [mapCase] at hd
  split at hd
  · rename_i image himage
    have hsequences : ∀ e ∈ lowerSequences, ∀ n ∈ e.2, 58 ≤ n := by decide
    obtain ⟨n, hn, rfl⟩ := List.mem_map.mp hd
    obtain ⟨_, _, htable, _⟩ := List.lookup_eq_some_iff.mp himage
    have hbeyond := hsequences (c.toNat, image) (by rw [htable]; simp) n hn
    rw [not_isDigit_ofNat hbeyond] at hdigit
    cases hdigit
  · split at hd
    · rename_i r hr
      have hc : r.contains c.toNat := by simpa using List.find?_some hr
      obtain ⟨hfirst, hbeyond, _⟩ := image_lowerRanges r (List.mem_of_find?_eq_some hr)
      have hbounds := CaseRange.contains_iff.mp (CaseRange.contains_image hfirst hc)
      rw [List.mem_singleton.mp hd, not_isDigit_ofNat (by omega)] at hdigit
      cases hdigit
    · exact List.mem_singleton.mp hd

theorem lowerChar_ne_nil (c : Char) : lowerChar c ≠ [] := by
  rw [lowerChar, mapCase]
  split
  · exact List.cons_ne_nil _ _
  · split
    · rename_i image himage
      have hsequences : ∀ e ∈ lowerSequences, e.2 ≠ [] := by decide
      obtain ⟨_, _, htable, _⟩ := List.lookup_eq_some_iff.mp himage
      simpa using hsequences (c.toNat, image) (by rw [htable]; simp)
    · split <;> exact List.cons_ne_nil _ _

/-- Where a text in lower case has digits only, so it had before. -/
theorem lowerAfter_eq_of_isDigit {before cs : List Char}
    (hdigits : ∀ d ∈ lowerAfter before cs, d.isDigit) : lowerAfter before cs = cs := by
  induction cs generalizing before with
  | nil => rfl
  | cons c cs ih =>
    rw [lowerAfter] at hdigits ⊢
    rw [List.forall_mem_append] at hdigits
    obtain ⟨himage, hrest⟩ := hdigits
    rw [ih hrest]
    split at himage
    · exact absurd (himage _ List.mem_cons_self) (by split <;> decide)
    · rename_i hsigma
      obtain ⟨d, hd⟩ := List.exists_mem_of_ne_nil _ (lowerChar_ne_nil c)
      have hc : c.isDigit := eq_of_isDigit_of_mem_lowerChar hd (himage d hd) ▸ himage d hd
      rw [if_neg hsigma, (isLower_iff.mp (isLower_of_isDigit hc)).2]
      rfl

/-- Digits come from digits only, so a text that folds to digits was one. -/
theorem lower_eq_of_isDigit {s : String} (hdigits : ∀ d ∈ (lower s).toList, d.isDigit) :
    lower s = s := by
  rw [lower, String.toList_ofList] at hdigits
  rw [lower, lowerAfter_eq_of_isDigit hdigits, String.ofList_toList]

end Text

/-! ## Texts of numbers -/

theorem Decimal.isLower_of_mem_text {d : Decimal} : ∀ c ∈ d.text.toList, Text.isLower c := by
  have hnumeral : ∀ n, ∀ c ∈ Nat.toDigits 10 n, Text.isLower c := fun n c hc =>
    Text.isLower_of_isDigit (Nat.isDigit_of_mem_toDigits (by decide) (by decide) hc)
  have hdigits : ∀ c ∈ d.digits, Text.isLower c := hnumeral d.coefficient
  have hzeros : ∀ n, ∀ c ∈ List.replicate n '0', Text.isLower c := fun n c hc => by
    rw [List.eq_of_mem_replicate hc]
    decide
  have hpoint : Text.isLower '.' := by decide
  have htake : ∀ n, ∀ c ∈ d.digits.take n, Text.isLower c := fun n c hc =>
    hdigits c (List.mem_of_mem_take hc)
  have hdrop : ∀ n, ∀ c ∈ d.digits.drop n, Text.isLower c := fun n c hc =>
    hdigits c (List.mem_of_mem_drop hc)
  rw [text]
  simp only [String.toList_ofList, layout, positional, scientific]
  split
  · split
    · simp only [List.forall_mem_append, List.forall_mem_cons]
      exact ⟨⟨by decide, hpoint, hzeros _⟩, hdigits⟩
    · split
      · simp only [List.forall_mem_append]
        exact ⟨hdigits, hzeros _⟩
      · simp only [List.forall_mem_append, List.forall_mem_cons]
        exact ⟨htake _, hpoint, hdrop _⟩
  · simp only [List.forall_mem_append, List.forall_mem_cons]
    refine ⟨?_, by decide, ?_, hnumeral _⟩
    · split
      · exact htake 1
      · simp only [List.forall_mem_append, List.forall_mem_cons]
        exact ⟨htake 1, hpoint, hdrop 1⟩
    · split <;> decide

/-- The text of a finite number has no capitals. -/
theorem Number.lower_text {x : Number} (hx : x.isFinite) : Text.lower x.text = x.text := by
  refine Text.lower_of_isLower ?_
  have hsingle : ∀ c, Text.isLower c → ∀ d ∈ [c], Text.isLower d := by
    intro c hc d hd
    rwa [List.mem_singleton.mp hd]
  cases x with
  | nan => cases hx
  | infinite negative => cases hx
  | finite negative m e h =>
    rw [text]
    split
    · exact hsingle '0' (by decide)
    · split
      · rw [String.toList_append, List.forall_mem_append]
        exact ⟨hsingle '-' (by decide), Decimal.isLower_of_mem_text⟩
      · exact Decimal.isLower_of_mem_text

end ActionScript
