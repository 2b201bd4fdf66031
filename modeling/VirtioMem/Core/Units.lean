import Mathlib.Data.Rat.Defs
import Mathlib.Tactic.FieldSimp
import Mathlib.Tactic.Positivity
import Mathlib.Tactic.NormNum
import VirtioMem.Lib.Result
import VirtioMem.Lib.Text
import VirtioMem.Lib.Word

/-!
# Sizes written by hand

A configuration may give a size as a text such as `8.5 GiB`. `parseByteSize` reads it in steps of the
source: it trims, splits the number from the unit and the number at its dot, checks the digits, and
scales them in 128 bits, where each step may refuse.

`SizeText` is the grammar, with the rational number that each of its texts stands for. The two agree on
every text (`parseByteSize_eq_ok`): what has a value that is a whole number of 64 bits never leaves the
128 bits on the way.
-/

namespace VirtioMem.Core

open VirtioMem.Word VirtioMem.Text VirtioMem.Result

/-! ## Parsing -/

/-- The accepted units in lower case, and the power of two of each. -/
def byteUnits : List (List Char × Nat) :=
  [("".toList, 0), ("b".toList, 0), ("k".toList, 10), ("kb".toList, 10), ("kib".toList, 10),
    ("m".toList, 20), ("mb".toList, 20), ("mib".toList, 20), ("g".toList, 30), ("gb".toList, 30),
    ("gib".toList, 30), ("t".toList, 40), ("tb".toList, 40), ("tib".toList, 40)]

/-- The letters may be of either case. -/
def unitShift (unit : List Char) : Option Nat := byteUnits.lookup (unit.map Char.toLower)

/-- The value of these digits, if it fits into 128 bits. -/
def parseU128 (digits : List Char) : Option Nat :=
  if digits = [] ∨ !digits.all Char.isDigit then none
  else if Nat.ofDigitChars 10 digits 0 < 2 ^ 128 then some (Nat.ofDigitChars 10 digits 0) else none

/-- A shift in 128 bits; the bits that leave them are lost. -/
def checkedShl (value shift : Nat) : Option Nat :=
  if shift < 128 then some (value <<< shift % 2 ^ 128) else none

section

-- How an error shows the text it is about, which the source leaves to `{:?}`.
variable (debug : String → String)

/-- The digits times their unit, without the digits of the fraction. -/
def scaleBytes (text : String) (digits shift fraction : Nat) : Except String Nat := do
  let scale := 10 ^ fraction
  let scaled ← okOr ((checkedShl digits shift).filter fun value => value >>> shift = digits)
    s!"size {debug text} is too large"
  if scaled % scale ≠ 0 then .error s!"size {debug text} is not a whole number of bytes"
  else if scaled / scale ≤ maximum then .ok (scaled / scale)
  else .error s!"size {debug text} is too large"

def parseByteSize (text : String) : Except String Nat :=
  let text := trim text
  let number := text.toList.takeWhile fun c => c.isDigit || c == '.'
  let unit := text.toList.dropWhile fun c => c.isDigit || c == '.'
  match unitShift (trim (String.ofList unit)).toList with
  | none => .error s!"unknown size unit in {debug text}; use B, KB, MB, GB or TB"
  | some shift =>
    -- Without a dot all of it is the whole part.
    let whole := number.takeWhile (· != '.')
    let fraction := (number.dropWhile (· != '.')).tail
    if (whole = [] ∧ fraction = []) ∨ !((whole ++ fraction).all Char.isDigit) ∨
        fraction.length > 18 then
      .error s!"invalid size {debug text}; expected e.g. \"8GB\" or \"1024MB\""
    else do
      let digits ← okOr (parseU128 (whole ++ fraction)) s!"size {debug text} is too large"
      scaleBytes debug text digits shift fraction.length

end

/-! ## The grammar of a size -/

/-- A size as it is written. -/
structure SizeText where
  whole : List Char
  /-- What stands behind the dot, if there is one. -/
  fraction : Option (List Char)
  gap : List Char
  unit : List Char
  deriving DecidableEq

namespace SizeText

def decimals (size : SizeText) : List Char := size.fraction.getD []

def render (size : SizeText) : List Char :=
  size.whole ++ (match size.fraction with
    | none => []
    | some fraction => '.' :: fraction) ++ size.gap ++ size.unit

/-- **What counts as a size**: digits with at most one dot, white space, and a unit. -/
structure WellFormed (size : SizeText) (shift : Nat) : Prop where
  whole : ∀ c ∈ size.whole, c.isDigit = true
  decimals : ∀ c ∈ size.decimals, c.isDigit = true
  digits : size.whole ≠ [] ∨ size.decimals ≠ []
  short : size.decimals.length ≤ 18
  gap : ∀ c ∈ size.gap, isWhitespace c = true
  unit : (size.unit.map Char.toLower, shift) ∈ byteUnits

/-- **The number it stands for.** -/
def value (size : SizeText) (shift : Nat) : ℚ :=
  ((Nat.ofDigitChars 10 size.whole 0 : ℚ) +
    Nat.ofDigitChars 10 size.decimals 0 / 10 ^ size.decimals.length) * 2 ^ shift

end SizeText

/-! ## The two agree -/

variable {debug : String → String}

theorem byteUnits_lookup : ∀ unit ∈ byteUnits, byteUnits.lookup unit.1 = some unit.2 := by decide

theorem unitShift_eq_some {unit : List Char} {shift : Nat} :
    unitShift unit = some shift ↔ (unit.map Char.toLower, shift) ∈ byteUnits := by
  constructor
  · intro h
    obtain ⟨before, after, hunits, -⟩ := List.lookup_eq_some_iff.mp h
    rw [hunits]
    simp
  · exact byteUnits_lookup _

/-- A unit is written in letters. -/
theorem unit_letters {unit : List Char} {shift : Nat} (h : (unit.map Char.toLower, shift) ∈ byteUnits) :
    ∀ c ∈ unit, isWhitespace c = false ∧ (c.isDigit || c == '.') = false := by
  have hletters : byteUnits.all (fun unit => unit.1.all (·.isLower)) = true := by decide
  intro c hc
  have hlower := List.all_eq_true.mp (List.all_eq_true.mp hletters _ h) _ (List.mem_map_of_mem hc)
  have halpha : c.isUpper = true ∨ c.isLower = true := by
    by_cases hupper : c.isUpper = true
    · exact .inl hupper
    · have hlowered : c.toLower = c := dif_neg fun h => hupper (decide_eq_true h)
      exact .inr (hlowered ▸ hlower)
  have hgraphic := isGraphic_alphanum (isAlphanum_iff.mpr (.inl halpha))
  refine ⟨isGraphic_whitespace hgraphic, ?_⟩
  have hdigit : c.isDigit = false := by
    rw [isUpper_iff, isLower_iff] at halpha
    rw [Bool.eq_false_iff, ne_eq, isDigit_iff]
    omega
  have hdot : (c == '.') = false := by
    rw [beq_eq_false_iff_ne]
    rintro rfl
    exact absurd halpha (by decide)
  rw [hdigit, hdot]
  rfl

theorem shift_le {unit : List Char × Nat} (h : unit ∈ byteUnits) : unit.2 ≤ 40 := by
  have hall : ∀ unit ∈ byteUnits, unit.2 ≤ 40 := by decide
  exact hall unit h

/-- In 128 bits nothing is lost exactly where the shifted value fits. -/
theorem checkedShl_filter {digits shift : Nat} (hshift : shift < 128) :
    (checkedShl digits shift).filter (fun value => value >>> shift = digits) =
      if digits * 2 ^ shift < 2 ^ 128 then some (digits * 2 ^ shift) else none := by
  have hpos : 0 < 2 ^ shift := Nat.two_pow_pos shift
  have hpow : 2 ^ 128 = 2 ^ (128 - shift) * 2 ^ shift := by
    rw [← Nat.pow_add]
    congr 1
    omega
  rw [checkedShl, if_pos hshift, Nat.shiftLeft_eq]
  split_ifs with hfits
  · rw [Nat.mod_eq_of_lt hfits, Option.filter_some, Nat.shiftRight_eq_div_pow,
      Nat.mul_div_cancel _ hpos]
    simp
  · rw [Option.filter_some, Nat.shiftRight_eq_div_pow]
    refine if_neg ?_
    -- What is left is too short to be the digits.
    have hmod := Nat.mod_lt (digits * 2 ^ shift) (show 0 < 2 ^ 128 by decide)
    have hquotient : digits * 2 ^ shift % 2 ^ 128 / 2 ^ shift < 2 ^ (128 - shift) := by
      rw [Nat.div_lt_iff_lt_mul hpos, ← hpow]
      exact hmod
    have hlarge : 2 ^ (128 - shift) ≤ digits := by
      rw [not_lt, hpow] at hfits
      exact Nat.le_of_mul_le_mul_right hfits hpos
    simp only [decide_eq_true_eq]
    omega

/-- **Scaling is exact**: it gives the number of bytes where there is one of 64 bits. -/
theorem scaleBytes_eq_ok {text : String} {digits shift fraction bytes : Nat}
    (hshift : shift ≤ 40) (hfraction : fraction ≤ 18) :
    scaleBytes debug text digits shift fraction = .ok bytes ↔
      bytes * 10 ^ fraction = digits * 2 ^ shift ∧ bytes < 2 ^ 64 := by
  have hscale : 0 < 10 ^ fraction := Nat.pow_pos (by decide)
  have hscale' : 10 ^ fraction ≤ 10 ^ 18 := Nat.pow_le_pow_right (by decide) hfraction
  unfold scaleBytes
  rw [bind_eq_ok]
  simp only [okOr_eq_ok, checkedShl_filter (show shift < 128 by omega),
    Option.ite_none_right_eq_some, Option.some.injEq]
  constructor
  · rintro ⟨scaled, ⟨hfits, rfl⟩, hresult⟩
    split_ifs at hresult with hmod hmax
    cases hresult
    have hdvd := Nat.dvd_of_mod_eq_zero (not_not.mp hmod)
    exact ⟨Nat.div_mul_cancel hdvd, by have : maximum + 1 = 2 ^ 64 := rfl; omega⟩
  · rintro ⟨hexact, hbytes⟩
    have hfits : digits * 2 ^ shift < 2 ^ 128 := by
      rw [← hexact]
      calc bytes * 10 ^ fraction ≤ bytes * 10 ^ 18 := Nat.mul_le_mul_left _ hscale'
        _ < 2 ^ 64 * 10 ^ 18 := Nat.mul_lt_mul_of_pos_right hbytes (by decide)
        _ ≤ 2 ^ 128 := by decide
    refine ⟨_, ⟨hfits, rfl⟩, ?_⟩
    rw [← hexact, Nat.mul_mod_left, Nat.mul_div_cancel _ hscale]
    have : bytes ≤ maximum := Nat.le_pred_of_lt hbytes
    simp [this]

/-- White space is no part of a number. -/
theorem whitespace_not_number {c : Char} (h : isWhitespace c = true) :
    (c.isDigit || c == '.') = false := by
  rw [Bool.or_eq_false_iff, beq_eq_false_iff_ne]
  constructor
  · rw [Bool.eq_false_iff]
    intro hdigit
    have halphanum : c.isAlphanum = true := by simp [Char.isAlphanum, hdigit]
    rw [isGraphic_whitespace (isGraphic_alphanum halphanum)] at h
    cases h
  · rintro rfl
    exact absurd h (by decide)

theorem digit_not_dot {c : Char} (h : c.isDigit = true) : (c != '.') = true := by
  rw [bne_iff_ne]
  rintro rfl
  exact absurd h (by decide)

namespace SizeText

variable {size : SizeText} {shift bytes : Nat} {text : String}

/-- The digits and the dot. -/
def number (size : SizeText) : List Char :=
  size.whole ++ (match size.fraction with
    | none => []
    | some fraction => '.' :: fraction)

theorem render_eq (size : SizeText) : size.render = size.number ++ (size.gap ++ size.unit) := by
  rw [render, number, List.append_assoc]

/-- A number ends where its unit begins. -/
theorem WellFormed.span (h : size.WellFormed shift) :
    size.render.takeWhile (fun c => c.isDigit || c == '.') = size.number ∧
      size.render.dropWhile (fun c => c.isDigit || c == '.') = size.gap ++ size.unit := by
  rw [render_eq]
  refine span_append (fun c hc => ?_) fun c hc => ?_
  · rcases List.mem_append.mp hc with hc | hc
    · simp [h.whole c hc]
    · have hdecimals := h.decimals
      unfold SizeText.decimals at hdecimals
      cases hfraction : size.fraction with
      | none =>
          rw [hfraction] at hc
          cases hc
      | some fraction =>
          rw [hfraction] at hc hdecimals
          rcases List.mem_cons.mp hc with rfl | hc
          · rfl
          · simp [hdecimals c hc]
  · rcases List.mem_append.mp (List.mem_of_head? hc) with hc | hc
    · exact whitespace_not_number (h.gap c hc)
    · exact (unit_letters h.unit c hc).2

/-- And its whole part where its dot stands. -/
theorem WellFormed.split (h : size.WellFormed shift) :
    size.number.takeWhile (· != '.') = size.whole ∧
      (size.number.dropWhile (· != '.')).tail = size.decimals := by
  have hwhole := fun c hc => digit_not_dot (h.whole c hc)
  unfold number SizeText.decimals
  cases size.fraction with
  | none =>
      obtain ⟨htake, hdrop⟩ := @span_append (· != '.') size.whole [] hwhole (by simp)
      rw [htake, hdrop]
      exact ⟨rfl, rfl⟩
  | some fraction =>
      obtain ⟨htake, hdrop⟩ := @span_append (· != '.') size.whole ('.' :: fraction) hwhole (by simp)
      rw [htake, hdrop]
      exact ⟨rfl, rfl⟩

/-- What is left behind the number is its unit, in white space. -/
theorem WellFormed.unit_trimmed (h : size.WellFormed shift) :
    unitShift (trim (String.ofList (size.gap ++ size.unit))).toList = some shift := by
  rw [trim_gap h.gap fun c hc => (unit_letters h.unit c hc).1, unitShift_eq_some]
  exact h.unit

/-- **The value in whole numbers.** -/
theorem value_eq_iff : (bytes : ℚ) = size.value shift ↔
    bytes * 10 ^ size.decimals.length =
      Nat.ofDigitChars 10 (size.whole ++ size.decimals) 0 * 2 ^ shift := by
  have hpos : (10 : ℚ) ^ size.decimals.length ≠ 0 := by positivity
  rw [Nat.ofDigitChars_append, Nat.ofDigitChars_eq_ofDigitChars_zero, value,
    ← mul_left_inj' hpos, ← @Nat.cast_inj ℚ]
  push_cast
  constructor
  · intro hvalue
    rw [hvalue]
    field_simp
  · intro hvalue
    rw [hvalue]
    field_simp

/-- The text of a size is parsed to what it stands for, if that is a number of bytes. -/
theorem WellFormed.parse (h : size.WellFormed shift) (htext : (trim text).toList = size.render)
    (hvalue : (bytes : ℚ) = size.value shift) (hbytes : bytes < 2 ^ 64) :
    parseByteSize debug text = .ok bytes := by
  have hexact := value_eq_iff.mp hvalue
  have hdigits : (size.whole ++ size.decimals).all Char.isDigit = true := by
    rw [List.all_append, List.all_eq_true.mpr h.whole, List.all_eq_true.mpr h.decimals]
    rfl
  have hne : ¬(size.whole = [] ∧ size.decimals = []) := by
    have := h.digits
    tauto
  have hfits : Nat.ofDigitChars 10 (size.whole ++ size.decimals) 0 < 2 ^ 128 := by
    -- 128 bits hold every number of bytes, scaled to eighteen decimals.
    calc Nat.ofDigitChars 10 (size.whole ++ size.decimals) 0
        ≤ Nat.ofDigitChars 10 (size.whole ++ size.decimals) 0 * 2 ^ shift :=
          Nat.le_mul_of_pos_right _ (Nat.two_pow_pos shift)
      _ = bytes * 10 ^ size.decimals.length := hexact.symm
      _ ≤ bytes * 10 ^ 18 := Nat.mul_le_mul_left _ (Nat.pow_le_pow_right (by decide) h.short)
      _ < 2 ^ 64 * 10 ^ 18 := Nat.mul_lt_mul_of_pos_right hbytes (by decide)
      _ ≤ 2 ^ 128 := by decide
  have hparsed : parseU128 (size.whole ++ size.decimals) =
      some (Nat.ofDigitChars 10 (size.whole ++ size.decimals) 0) := by
    rw [parseU128, if_neg, if_pos hfits]
    simp only [List.append_eq_nil_iff, hdigits, Bool.not_true, Bool.false_eq_true, or_false]
    exact hne
  have hrefused : ¬((size.whole = [] ∧ size.decimals = []) ∨
      (!(size.whole ++ size.decimals).all Char.isDigit) = true ∨ size.decimals.length > 18) := by
    rw [hdigits]
    have := h.short
    simp only [Bool.not_true, Bool.false_eq_true, false_or, not_or]
    exact ⟨hne, by omega⟩
  unfold parseByteSize
  simp only [htext, h.span.1, h.span.2, h.unit_trimmed, h.split.1, h.split.2]
  rw [if_neg hrefused, hparsed]
  exact (scaleBytes_eq_ok (shift_le h.unit) h.short).mpr ⟨hexact, hbytes⟩

end SizeText

/-- A number and its parts. -/
theorem number_split (number : List Char) : ∃ fraction : Option (List Char),
    number = number.takeWhile (· != '.') ++ (match fraction with
      | none => []
      | some fraction => '.' :: fraction) ∧
    fraction.getD [] = (number.dropWhile (· != '.')).tail := by
  have hnumber := List.takeWhile_append_dropWhile (p := (· != '.')) (l := number)
  cases hdrop : number.dropWhile (· != '.') with
  | nil =>
      rw [hdrop] at hnumber
      exact ⟨none, hnumber.symm, rfl⟩
  | cons c fraction =>
      have hc := List.head?_dropWhile_not (· != '.') number
      rw [hdrop] at hc hnumber
      have hdot : c = '.' := by simpa using hc
      subst hdot
      exact ⟨some fraction, hnumber.symm, rfl⟩

/-- Behind a trimmed text there is no more white space. -/
theorem trimmed_gap {text : String} {rest : List Char} (hrest : rest <:+ (trim text).toList) :
    ∃ gap, (∀ c ∈ gap, isWhitespace c = true) ∧
      rest = gap ++ (trim (String.ofList rest)).toList := by
  obtain ⟨front, back, hsplit, hfront, hback⟩ := trim_split rest
  rcases List.eq_nil_or_concat back with rfl | ⟨others, last, rfl⟩
  · exact ⟨front, hfront, by simpa using hsplit⟩
  · obtain ⟨before, hbefore⟩ := hrest
    have hlast : (trim text).toList.getLast? = some last := by
      rw [← hbefore, hsplit]
      simp
    have hspace := hback last (by simp)
    rw [getLast_trim hlast] at hspace
    cases hspace

theorem parseU128_eq_some {digits : List Char} {value : Nat} (h : parseU128 digits = some value) :
    value = Nat.ofDigitChars 10 digits 0 ∧ ∀ c ∈ digits, c.isDigit = true := by
  unfold parseU128 at h
  split_ifs at h with hdigits
  simp only [not_or, Bool.not_eq_true', Bool.not_eq_false] at hdigits
  exact ⟨(Option.some.inj h).symm, List.all_eq_true.mp hdigits.2⟩

/-- What a parse has checked of its number and its unit. -/
theorem parseByteSize_checked {text : String} {bytes : Nat} {number unit : List Char}
    (hnumber : (trim text).toList.takeWhile (fun c => c.isDigit || c == '.') = number)
    (hunit : (trim text).toList.dropWhile (fun c => c.isDigit || c == '.') = unit)
    (h : parseByteSize debug text = .ok bytes) :
    ∃ shift whole fraction, ((trim (String.ofList unit)).toList.map Char.toLower, shift) ∈ byteUnits ∧
      number.takeWhile (· != '.') = whole ∧ (number.dropWhile (· != '.')).tail = fraction ∧
      (∀ c ∈ whole ++ fraction, c.isDigit = true) ∧ ¬(whole = [] ∧ fraction = []) ∧
      fraction.length ≤ 18 ∧
      bytes * 10 ^ fraction.length = Nat.ofDigitChars 10 (whole ++ fraction) 0 * 2 ^ shift ∧
      bytes < 2 ^ 64 := by
  unfold parseByteSize at h
  simp only [hnumber, hunit] at h
  cases hshift : unitShift (trim (String.ofList unit)).toList with
  | none =>
      simp only [hshift] at h
      cases h
  | some shift =>
      simp only [hshift] at h
      split_ifs at h with hrefused
      simp only [not_or, not_lt] at hrefused
      obtain ⟨digits, hparsed, hscaled⟩ := bind_eq_ok.mp h
      obtain ⟨rfl, hdigits⟩ := parseU128_eq_some (okOr_eq_ok.mp hparsed)
      have hshift := unitShift_eq_some.mp hshift
      obtain ⟨hexact, hbytes⟩ := (scaleBytes_eq_ok (shift_le hshift) hrefused.2.2).mp hscaled
      exact ⟨shift, _, _, hshift, rfl, rfl, hdigits, hrefused.1, hrefused.2.2, hexact, hbytes⟩

/-- **Every text that is parsed is the text of a size.** -/
theorem parseByteSize_sizeText {text : String} {bytes : Nat} (h : parseByteSize debug text = .ok bytes) :
    ∃ size shift, SizeText.WellFormed size shift ∧ (trim text).toList = size.render ∧
      (bytes : ℚ) = size.value shift ∧ bytes < 2 ^ 64 := by
  obtain ⟨number, hnumber⟩ :
      ∃ number, (trim text).toList.takeWhile (fun c => c.isDigit || c == '.') = number := ⟨_, rfl⟩
  obtain ⟨unit, hunit⟩ :
      ∃ unit, (trim text).toList.dropWhile (fun c => c.isDigit || c == '.') = unit := ⟨_, rfl⟩
  have htext : number ++ unit = (trim text).toList := by
    rw [← hnumber, ← hunit, List.takeWhile_append_dropWhile]
  obtain ⟨gap, hgap, hgapped⟩ := trimmed_gap ⟨number, htext⟩
  obtain ⟨fraction, hparts, hdecimals⟩ := number_split number
  obtain ⟨shift, whole, decimals, hshift, hwhole, htail, hdigits, hne, hshort, hexact, hbytes⟩ :=
    parseByteSize_checked hnumber hunit h
  obtain rfl : decimals = fraction.getD [] := htail.symm.trans hdecimals.symm
  obtain ⟨trimmed, htrimmed⟩ : ∃ trimmed, (trim (String.ofList unit)).toList = trimmed := ⟨_, rfl⟩
  rw [hwhole] at hparts
  rw [htrimmed] at hgapped hshift
  have hsize : (⟨whole, fraction, gap, trimmed⟩ : SizeText).WellFormed shift :=
    ⟨fun c hc => hdigits c (List.mem_append_left _ hc),
      fun c hc => hdigits c (List.mem_append_right _ hc), not_and_or.mp hne, hshort, hgap, hshift⟩
  refine ⟨_, shift, hsize, ?_, SizeText.value_eq_iff.mpr hexact, hbytes⟩
  rw [SizeText.render_eq, ← hgapped, SizeText.number, ← hparts, htext]

/-- The text of a number is the text of its size. -/
theorem parseByteSize_repr {bytes : Nat} (hbytes : bytes < 2 ^ 64) :
    parseByteSize debug (toString bytes) = .ok bytes := by
  have hdigits : ∀ c ∈ (toString bytes).toList, c.isDigit = true := by
    intro c hc
    rw [Nat.toString_eq_repr, Nat.toList_repr] at hc
    exact Nat.isDigit_of_mem_toDigits (by decide) (by decide) hc
  have hvalue : Nat.ofDigitChars 10 (toString bytes).toList 0 = bytes := by
    rw [Nat.toString_eq_repr, Nat.toList_repr, Nat.ofDigitChars_ten_toDigits]
  have hne : (toString bytes).toList ≠ [] := by
    rw [Nat.toString_eq_repr, Nat.toList_repr]
    exact Nat.toDigits_ne_nil
  have htrim := @trim_gap [] (toString bytes).toList (by simp) fun c hc =>
    isGraphic_whitespace (graphic_repr bytes c hc)
  rw [List.nil_append, String.ofList_toList] at htrim
  have hsize : (⟨(toString bytes).toList, none, [], []⟩ : SizeText).WellFormed 0 :=
    ⟨hdigits, fun c hc => (List.not_mem_nil hc).elim, .inl hne, Nat.zero_le _,
      fun c hc => (List.not_mem_nil hc).elim, List.mem_cons_self⟩
  refine hsize.parse ?_ (SizeText.value_eq_iff.mpr ?_) hbytes
  · rw [htrim]
    simp [SizeText.render]
  · show bytes * 10 ^ 0 = Nat.ofDigitChars 10 ((toString bytes).toList ++ []) 0 * 2 ^ 0
    rw [List.append_nil, hvalue, Nat.pow_zero, Nat.pow_zero]

/-- **A size is parsed exactly if it is one**, and to the number it stands for. -/
theorem parseByteSize_eq_ok :
    (∀ text bytes, parseByteSize debug text = .ok bytes ↔
      ∃ size shift, SizeText.WellFormed size shift ∧ (trim text).toList = size.render ∧
        (bytes : ℚ) = size.value shift ∧ bytes < 2 ^ 64) ∧
    ∀ bytes, bytes < 2 ^ 64 → parseByteSize debug (toString bytes) = .ok bytes := by
  refine ⟨fun text bytes => ⟨parseByteSize_sizeText, ?_⟩, fun bytes => parseByteSize_repr⟩
  rintro ⟨size, shift, hsize, htext, hvalue, hbytes⟩
  exact hsize.parse htext hvalue hbytes

theorem largest_parsed : parseByteSize String.quote (toString maximum) = .ok maximum :=
  parseByteSize_eq_ok.2 maximum (by decide)

example : parseByteSize String.quote " 8.5 GiB " = .ok (8 * 2 ^ 30 + 2 ^ 29) := by decide +kernel

end VirtioMem.Core
