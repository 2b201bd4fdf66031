import Mathlib.Tactic.Common
import VirtioMem.Lib.Result
import VirtioMem.Lib.Text

/-!
# Windows paths

The guest's configuration names files of which some must not be the same. Windows takes many texts for
one path, so the paths are brought to a normal form before they are compared, and what it would expand
by rules of its own is refused.

What is accepted is a drive and a list of components (`normalizeWindowsPath_eq_ok`). The components of
the normal form are the components, in lower case, and everything that is asked of a component is blind
to case: hence the normal form is a fixed point and decides which paths are the same
(`normalizeWindowsPath_spec`).
-/

namespace VirtioMem.Core

open VirtioMem.Result VirtioMem.Text

/-- The text with `/` written as `\`. -/
def backslashed (value : String) : List Char :=
  value.toList.map fun c => if c = '/' then '\\' else c

def reservedNames : List (List Char) :=
  ["CON", "PRN", "AUX", "NUL", "COM1", "COM2", "COM3", "COM4", "COM5", "COM6", "COM7", "COM8",
    "COM9", "LPT1", "LPT2", "LPT3", "LPT4", "LPT5", "LPT6", "LPT7", "LPT8", "LPT9"].map String.toList

/-- Whether the component names a device, with any extension. -/
def isReserved (part : List Char) : Bool :=
  reservedNames.contains ((part.takeWhile (· ≠ '.')).map Char.toUpper)

def refusedChars : List Char := [':', '"', '<', '>', '|', '?', '*']

/-- Whether Windows reads the component in a way of its own. -/
def isAmbiguous (part : List Char) : Bool :=
  part == ['.', '.'] || part.getLast? == some '.' || part.getLast? == some ' ' ||
    part.any (refusedChars.contains ·) || isReserved part

/-- The normal forms of the components that stay. -/
def normalParts (toLowercase : List Char → List Char) :
    List (List Char) → Except String (List (List Char))
  | [] => .ok []
  | part :: rest =>
    if part = ['.'] ∨ part = [] then normalParts toLowercase rest
    else if isAmbiguous part then
      .error "path contains an ambiguous or reserved Windows component"
    else do return toLowercase part :: (← normalParts toLowercase rest)

/-- The normal form of a Windows path. The lower case of a text is that of the standard library. -/
def normalizeWindowsPath (toLowercase : List Char → List Char) (value : String) :
    Except String String :=
  let path := backslashed value
  -- the first byte is that of a letter, so these bytes are characters
  if hasControl value = true ∨ (String.ofList path).utf8ByteSize < 4 ∨
      (path.headD '\\').isAlpha = false ∨ path[1]? ≠ some ':' ∨ path[2]? ≠ some '\\' then
    .error "path must be an absolute Windows drive path without control characters"
  else do
    let parts ← normalParts toLowercase ((path.drop 3).splitOn '\\')
    if parts.isEmpty then .error "path must name a file"
    else return .ofList ((path.headD '\\').toLower :: ':' :: '\\' :: ['\\'].intercalate parts)

example : normalizeWindowsPath (·.map Char.toLower) "C:/Data\\.\\CONFIG.json" =
    .ok "c:\\data\\config.json" := by decide +kernel

/-! ## What is accepted -/

/-- The components that say something. -/
def kept (parts : List (List Char)) : List (List Char) :=
  parts.filter fun part => ¬(part = ['.'] ∨ part = [])

/-- The components of what follows the drive. -/
def components (rest : List Char) : List (List Char) := kept (rest.splitOn '\\')

variable {toLowercase : List Char → List Char}

theorem normalParts_eq_ok {parts normal : List (List Char)} :
    normalParts toLowercase parts = .ok normal ↔
      (∀ part ∈ kept parts, isAmbiguous part = false) ∧ normal = (kept parts).map toLowercase := by
  induction parts generalizing normal with
  | nil =>
    constructor
    · intro h
      exact ⟨by simp [kept], (Except.ok.inj h).symm⟩
    · rintro ⟨-, rfl⟩
      rfl
  | cons part rest ih =>
    rw [normalParts]
    by_cases hdropped : part = ['.'] ∨ part = []
    · rw [if_pos hdropped, ih, kept, kept, List.filter_cons_of_neg (by simp [hdropped])]
    rw [if_neg hdropped, kept, List.filter_cons_of_pos (by simpa using hdropped), ← kept]
    cases hambiguous : isAmbiguous part with
    | true => simp [hambiguous]
    | false =>
      simp only [Bool.false_eq_true, if_false, bind_eq_ok, ih, List.forall_mem_cons, hambiguous,
        true_and, List.map_cons]
      constructor
      · rintro ⟨normal, ⟨hclean, rfl⟩, h⟩
        exact ⟨hclean, (Except.ok.inj h).symm⟩
      · rintro ⟨hclean, rfl⟩
        exact ⟨_, ⟨hclean, rfl⟩, rfl⟩

theorem components_nil : components [] = [] := by decide

/-- **What is accepted**: a drive and components that are left, none of them ambiguous. -/
theorem normalizeWindowsPath_eq_ok {value output : String} :
    normalizeWindowsPath toLowercase value = .ok output ↔
      hasControl value = false ∧ ∃ drive rest, backslashed value = drive :: ':' :: '\\' :: rest ∧
        drive.isAlpha = true ∧ components rest ≠ [] ∧
        (∀ part ∈ components rest, isAmbiguous part = false) ∧
        output = .ofList (drive.toLower :: ':' :: '\\' ::
          ['\\'].intercalate ((components rest).map toLowercase)) := by
  unfold normalizeWindowsPath
  generalize backslashed value = path
  dsimp only
  constructor
  · intro h
    split at h
    · cases h
    next hform =>
      simp only [not_or, not_not, Bool.not_eq_true, Bool.not_eq_false] at hform
      obtain ⟨hcontrol, -, halpha, hcolon, hslash⟩ := hform
      obtain ⟨parts, hparts, h⟩ := bind_eq_ok.mp h
      rcases path with _ | ⟨drive, _ | ⟨colon, _ | ⟨slash, rest⟩⟩⟩
      · cases hcolon
      · cases hcolon
      · cases hslash
      · obtain rfl := Option.some.inj hcolon
        obtain rfl := Option.some.inj hslash
        obtain ⟨hclean, rfl⟩ := normalParts_eq_ok.mp hparts
        split at h
        · cases h
        next hnonempty =>
          refine ⟨hcontrol, drive, rest, rfl, halpha, ?_, hclean, (Except.ok.inj h).symm⟩
          intro hnone
          have hparts : (components rest).map toLowercase = [] := by rw [hnone]; rfl
          exact hnonempty (List.isEmpty_iff.mpr hparts)
  · rintro ⟨hcontrol, drive, rest, rfl, halpha, hnonempty, hclean, rfl⟩
    -- A component is left, so the text has its four bytes.
    have hsize : 4 ≤ (String.ofList (drive :: ':' :: '\\' :: rest)).utf8ByteSize := by
      rcases rest with _ | ⟨c, rest⟩
      · exact absurd components_nil hnonempty
      · have := drive.utf8Size_pos
        have := c.utf8Size_pos
        rw [size_ofList]
        simp only [List.map_cons, List.sum_cons, show (':').utf8Size = 1 from rfl,
          show ('\\').utf8Size = 1 from rfl]
        omega
    have hparts : (components rest).map toLowercase ≠ [] := by simpa using hnonempty
    have hform : ¬(hasControl value = true ∨
        (String.ofList (drive :: ':' :: '\\' :: rest)).utf8ByteSize < 4 ∨
        ((drive :: ':' :: '\\' :: rest).headD '\\').isAlpha = false ∨
        (drive :: ':' :: '\\' :: rest)[1]? ≠ some ':' ∨
        (drive :: ':' :: '\\' :: rest)[2]? ≠ some '\\') := by
      simp only [not_or, not_not, Bool.not_eq_true, Bool.not_eq_false]
      exact ⟨hcontrol, Nat.not_lt.mpr hsize, halpha, rfl, rfl⟩
    rw [if_neg hform, show (drive :: ':' :: '\\' :: rest).drop 3 = rest from rfl,
      normalParts_eq_ok.mpr ⟨hclean, rfl⟩]
    exact if_neg fun hempty => hparts (List.isEmpty_iff.mp hempty)

/-! ## Blind to case -/

/-- The characters that a path or a component is looked at for. -/
def marks : List Char := ['\\', '/', '.', ' '] ++ refusedChars

/-- What the lower case of an ASCII character leaves as it is. -/
theorem lower_spec {c : Char} (h : c.toNat < 128) :
    isControl c.toLower = isControl c ∧ c.toLower.isAlpha = c.isAlpha ∧
      c.toLower.toUpper = c.toUpper ∧ c.toLower.toLower = c.toLower ∧ c.toLower.toNat < 128 ∧
      (marks.all fun mark => decide (c.toLower = mark) == decide (c = mark)) = true := by
  have hall : ∀ n < 128, isControl (Char.ofNat n).toLower = isControl (.ofNat n) ∧
      (Char.ofNat n).toLower.isAlpha = (Char.ofNat n).isAlpha ∧
      (Char.ofNat n).toLower.toUpper = (Char.ofNat n).toUpper ∧
      (Char.ofNat n).toLower.toLower = (Char.ofNat n).toLower ∧
      (Char.ofNat n).toLower.toNat < 128 ∧
      (marks.all fun mark => decide ((Char.ofNat n).toLower = mark) == decide (Char.ofNat n = mark)) =
        true := by decide +kernel
  simpa only [Char.ofNat_toNat] using hall c.toNat h

theorem lower_eq_mark {c mark : Char} (h : c.toNat < 128) (hmark : mark ∈ marks) :
    c.toLower = mark ↔ c = mark := by
  have hsame := List.all_eq_true.mp (lower_spec h).2.2.2.2.2 mark hmark
  rwa [beq_iff_eq, decide_eq_decide] at hsame

/-- A text of ASCII characters. -/
abbrev Ascii (text : List Char) : Prop := ∀ c ∈ text, c.toNat < 128

abbrev lower (text : List Char) : List Char := text.map Char.toLower

theorem lower_lower {text : List Char} (h : Ascii text) : lower (lower text) = lower text := by
  rw [lower, lower, List.map_map]
  exact List.map_congr_left fun c hc => (lower_spec (h c hc)).2.2.2.1

theorem ascii_lower {text : List Char} (h : Ascii text) : Ascii (lower text) := by
  intro c hc
  obtain ⟨d, hd, rfl⟩ := List.mem_map.mp hc
  exact (lower_spec (h d hd)).2.2.2.2.1

theorem lower_eq_word {text word : List Char} (h : Ascii text) (hword : ∀ c ∈ word, c ∈ marks) :
    lower text = word ↔ text = word := by
  induction text generalizing word with
  | nil => rfl
  | cons c text ih =>
    simp only [List.forall_mem_cons] at h
    cases word with
    | nil => simp
    | cons mark word =>
      simp only [List.forall_mem_cons] at hword
      rw [lower, List.map_cons, List.cons.injEq, List.cons.injEq, lower_eq_mark h.1 hword.1,
        ih h.2 hword.2]

theorem getLast_lower {part : List Char} {mark : Char} (h : Ascii part) (hmark : mark ∈ marks) :
    ((lower part).getLast? == some mark) = (part.getLast? == some mark) := by
  rw [lower, List.getLast?_map]
  cases hlast : part.getLast? with
  | none => rfl
  | some c =>
    have hc := List.mem_of_getLast? hlast
    rw [Bool.eq_iff_iff]
    simpa using lower_eq_mark (h c hc) hmark

theorem refused_lower {c : Char} (h : c.toNat < 128) :
    refusedChars.contains c.toLower = refusedChars.contains c := by
  rw [Bool.eq_iff_iff, List.contains_iff_mem, List.contains_iff_mem]
  have hmarks : ∀ mark ∈ refusedChars, mark ∈ marks := fun mark => List.mem_append_right _
  constructor
  · intro hmem
    rwa [(lower_eq_mark h (hmarks _ hmem)).mp rfl]
  · intro hmem
    rwa [(lower_eq_mark h (hmarks _ hmem)).mpr rfl]

theorem isReserved_lower {part : List Char} (h : Ascii part) :
    isReserved (lower part) = isReserved part := by
  have hstem : (lower part).takeWhile (· ≠ '.') = lower (part.takeWhile (· ≠ '.')) := by
    induction part with
    | nil => rfl
    | cons c part ih =>
      simp only [List.forall_mem_cons] at h
      have hdot : c.toLower = '.' ↔ c = '.' := lower_eq_mark h.1 (by simp [marks])
      by_cases hc : c = '.'
      · simp [lower, hc]
      · have hc' : ¬c.toLower = '.' := mt hdot.mp hc
        simpa [lower, List.takeWhile_cons, hc, hc'] using ih h.2
  rw [isReserved, isReserved, hstem, lower, List.map_map]
  congr 1
  refine List.map_congr_left fun c hc => (lower_spec (h c ?_)).2.2.1
  exact (List.takeWhile_sublist _).subset hc

theorem isAmbiguous_lower {part : List Char} (h : Ascii part) :
    isAmbiguous (lower part) = isAmbiguous part := by
  have hdots : (lower part == ['.', '.']) = (part == ['.', '.']) := by
    rw [Bool.eq_iff_iff, beq_iff_eq, beq_iff_eq]
    exact lower_eq_word h (by simp [marks])
  have hrefused : (lower part).any (refusedChars.contains ·) = part.any (refusedChars.contains ·) := by
    rw [lower, List.any_map, Bool.eq_iff_iff, List.any_eq_true, List.any_eq_true]
    refine exists_congr fun c => and_congr_right fun hc => ?_
    rw [Function.comp, refused_lower (h c hc)]
  rw [isAmbiguous, isAmbiguous, hdots, getLast_lower h (by simp [marks]),
    getLast_lower h (by simp [marks]), hrefused, isReserved_lower h]

theorem splitOn_lower {text : List Char} (h : Ascii text) :
    (lower text).splitOn '\\' = (text.splitOn '\\').map lower := by
  induction text with
  | nil => rfl
  | cons c text ih =>
    simp only [List.forall_mem_cons] at h
    have hsep : (c.toLower == '\\') = (c == '\\') := by
      rw [Bool.eq_iff_iff, beq_iff_eq, beq_iff_eq]
      exact lower_eq_mark h.1 (by simp [marks])
    rw [lower, List.map_cons, List.splitOn_cons_eq_if_modifyHead, List.splitOn_cons_eq_if_modifyHead,
      hsep, ih h.2]
    split
    · rfl
    · cases text.splitOn '\\' <;> rfl

/-- The characters of a component are those of its path. -/
theorem mem_of_mem_component {rest part : List Char} (hpart : part ∈ rest.splitOn '\\') {c : Char}
    (hc : c ∈ part) : c ∈ rest := by
  have hjoined : ['\\'].intercalate (rest.splitOn '\\') = rest := List.intercalate_splitOn '\\'
  rw [← hjoined]
  exact (sublist_intercalate hpart).subset hc

theorem ascii_component {rest part : List Char} (h : Ascii rest) (hpart : part ∈ rest.splitOn '\\') :
    Ascii part := fun c hc => h c (mem_of_mem_component hpart hc)

theorem components_lower {rest : List Char} (h : Ascii rest) :
    components (lower rest) = (components rest).map lower := by
  rw [components, splitOn_lower h, kept, List.filter_map, components, kept]
  congr 1
  refine List.filter_congr fun part hpart => ?_
  have hascii := ascii_component h hpart
  rw [Function.comp, decide_eq_decide, lower_eq_word hascii (by simp [marks]),
    lower_eq_word hascii (by simp)]

/-! ## Normal forms -/

/-- A component of a normal form. -/
structure NormalPart (part : List Char) : Prop where
  kept : part ≠ ['.'] ∧ part ≠ []
  clean : isAmbiguous part = false
  whole : '\\' ∉ part
  slashes : '/' ∉ part
  ascii : Ascii part
  control : ∀ c ∈ part, isControl c = false
  lowered : lower part = part

/-- The normal form of a drive and components. -/
def normalForm (drive : Char) (parts : List (List Char)) : List Char :=
  drive :: ':' :: '\\' :: ['\\'].intercalate parts

theorem components_normalForm {parts : List (List Char)} (hparts : parts ≠ [])
    (h : ∀ part ∈ parts, NormalPart part) : components (['\\'].intercalate parts) = parts := by
  rw [components, List.splitOn_intercalate '\\' (fun part hpart => (h part hpart).whole) hparts, kept]
  exact List.filter_eq_self.mpr fun part hpart => by simp [(h part hpart).kept]

theorem backslashed_of_none {text : List Char} (h : '/' ∉ text) :
    backslashed (.ofList text) = text := by
  rw [backslashed, String.toList_ofList]
  conv_rhs => rw [← List.map_id text]
  refine List.map_congr_left fun c hc => if_neg ?_
  rintro rfl
  exact h hc

theorem no_slash (value : String) : '/' ∉ backslashed value := by
  rw [backslashed, List.mem_map]
  rintro ⟨c, -, hc⟩
  split at hc
  · exact absurd hc (by decide)
  next hother => exact hother hc

theorem control_alpha {c : Char} (h : c.isAlpha = true) : isControl c = false :=
  isGraphic_control (isGraphic_alphanum (by rw [Char.isAlphanum, h, Bool.true_or]))

/-- A normal form is one of its own. -/
theorem normalizeWindowsPath_normalForm
    (hlower : ∀ text, Ascii text → toLowercase text = lower text) {drive : Char}
    (hdrive : drive.isAlpha = true) (hlowered : drive.toLower = drive) {parts : List (List Char)}
    (hparts : parts ≠ []) (h : ∀ part ∈ parts, NormalPart part) :
    normalizeWindowsPath toLowercase (.ofList (normalForm drive parts)) =
      .ok (.ofList (normalForm drive parts)) := by
  -- A character is of the drive, of the punctuation or of a component.
  have hmem : ∀ c ∈ normalForm drive parts, c = drive ∨ c = ':' ∨ c = '\\' ∨
      ∃ part ∈ parts, c ∈ part := by
    intro c hc
    simp only [normalForm, List.mem_cons] at hc
    rcases hc with hc | hc | hc | hc
    · exact .inl hc
    · exact .inr (.inl hc)
    · exact .inr (.inr (.inl hc))
    · rcases mem_intercalate hc with hc | hc
      · exact .inr (.inr (.inl (List.mem_singleton.mp hc)))
      · exact .inr (.inr (.inr hc))
  have hslashes : backslashed (.ofList (normalForm drive parts)) = normalForm drive parts := by
    refine backslashed_of_none fun hslash => ?_
    rcases hmem '/' hslash with rfl | hc | hc | ⟨part, hpart, hc⟩
    · exact absurd hdrive (by decide)
    · exact absurd hc (by decide)
    · exact absurd hc (by decide)
    · exact (h part hpart).slashes hc
  have hcontrol : hasControl (.ofList (normalForm drive parts)) = false := by
    rw [hasControl, String.toList_ofList, List.any_eq_false]
    intro c hc
    rcases hmem c hc with rfl | rfl | rfl | ⟨part, hpart, hc⟩
    · simp [control_alpha hdrive]
    · decide
    · decide
    · simp [(h part hpart).control c hc]
  refine normalizeWindowsPath_eq_ok.mpr ⟨hcontrol, drive, _, hslashes, hdrive, ?_⟩
  rw [components_normalForm hparts h]
  refine ⟨hparts, fun part hpart => (h part hpart).clean, ?_⟩
  -- Lower case stays as it is.
  have hsame : parts.map toLowercase = parts := by
    conv_rhs => rw [← List.map_id parts]
    refine List.map_congr_left fun part hpart => ?_
    rw [hlower part (h part hpart).ascii, (h part hpart).lowered]
    rfl
  rw [hsame, hlowered]
  rfl

theorem normalPart_of_component {rest part : List Char} (hascii : Ascii rest) (hslash : '/' ∉ rest)
    (hcontrol : ∀ c ∈ rest, isControl c = false) (hpart : part ∈ components rest)
    (hclean : isAmbiguous part = false) : NormalPart (lower part) := by
  obtain ⟨hpart, hkept⟩ := List.mem_filter.mp hpart
  have hsub : ∀ c ∈ part, c ∈ rest := fun c hc => mem_of_mem_component hpart hc
  have hpartAscii : Ascii part := fun c hc => hascii c (hsub c hc)
  have hmark : ∀ mark ∈ marks, mark ∉ part → mark ∉ lower part := by
    intro mark hmark hnot hmem
    obtain ⟨c, hc, hcmark⟩ := List.mem_map.mp hmem
    exact hnot ((lower_eq_mark (hpartAscii c hc) hmark).mp hcmark ▸ hc)
  have hsplit : '\\' ∉ part := by
    intro hmem
    rw [List.splitOn_eq_splitOnP, List.splitOnP_eq_splitOnPPrepend] at hpart
    exact absurd (not_separator_of_mem_splitOnPPrepend (by simp) hpart _ hmem) (by decide)
  refine
    { kept := ?_
      clean := by rw [isAmbiguous_lower hpartAscii, hclean]
      whole := hmark _ (by simp [marks]) hsplit
      slashes := hmark _ (by simp [marks]) fun hmem => hslash (hsub _ hmem)
      ascii := ascii_lower hpartAscii
      control := ?_
      lowered := lower_lower hpartAscii }
  · have hpart : ¬(part = ['.'] ∨ part = []) := of_decide_eq_true hkept
    rw [not_or] at hpart
    exact ⟨mt (lower_eq_word hpartAscii (by simp [marks])).mp hpart.1,
      mt (lower_eq_word hpartAscii (by simp)).mp hpart.2⟩
  · intro c hc
    obtain ⟨d, hd, rfl⟩ := List.mem_map.mp hc
    rw [(lower_spec (hpartAscii d hd)).1]
    exact hcontrol d (hsub d hd)

theorem backslashed_spec {value : String} (hascii : Ascii value.toList)
    (hcontrol : hasControl value = false) :
    ∀ c ∈ backslashed value, c.toNat < 128 ∧ isControl c = false := by
  intro c hc
  obtain ⟨d, hd, rfl⟩ := List.mem_map.mp hc
  split
  · exact ⟨by decide, by decide⟩
  · exact ⟨hascii d hd, by simpa using List.any_eq_false.mp hcontrol d hd⟩

/-- The normal form has the letter of the drive and the components, in lower case. -/
theorem normalForm_of_accepted (hlower : ∀ text, Ascii text → toLowercase text = lower text)
    {value output : String} (hascii : Ascii value.toList)
    (h : normalizeWindowsPath toLowercase value = .ok output) :
    ∃ drive rest, backslashed value = drive :: ':' :: '\\' :: rest ∧ drive.isAlpha = true ∧
      drive.toNat < 128 ∧ output = .ofList (normalForm drive.toLower ((components rest).map lower)) ∧
      components rest ≠ [] ∧ ∀ part ∈ (components rest).map lower, NormalPart part := by
  obtain ⟨hcontrol, drive, rest, hpath, halpha, hparts, hclean, rfl⟩ :=
    normalizeWindowsPath_eq_ok.mp h
  have hchars := backslashed_spec hascii hcontrol
  have hslash := no_slash value
  rw [hpath] at hchars hslash
  simp only [List.forall_mem_cons] at hchars
  simp only [List.mem_cons, not_or] at hslash
  obtain ⟨hdrive, -, -, hrest⟩ := hchars
  have hrestAscii : Ascii rest := fun c hc => (hrest c hc).1
  have hlowered : (components rest).map toLowercase = (components rest).map lower := by
    refine List.map_congr_left fun part hpart => hlower part ?_
    exact ascii_component hrestAscii (List.mem_filter.mp hpart).1
  refine ⟨drive, rest, hpath, halpha, hdrive.1, by rw [hlowered]; rfl, hparts, ?_⟩
  intro part hpart
  obtain ⟨part, hmem, rfl⟩ := List.mem_map.mp hpart
  exact normalPart_of_component hrestAscii hslash.2.2.2 (fun c hc => (hrest c hc).2) hmem
    (hclean part hmem)

/-! ## Acceptance -/

/-- The text with letter case and the direction of slashes ignored. -/
def caseFolded (value : String) : List Char := lower (backslashed value)

/-- Whether a folded path is accepted. -/
def Accepted (path : List Char) : Prop :=
  (∀ c ∈ path, isControl c = false) ∧ ∃ drive rest, path = drive :: ':' :: '\\' :: rest ∧
    drive.isAlpha = true ∧ components rest ≠ [] ∧ ∀ part ∈ components rest, isAmbiguous part = false

theorem control_caseFolded {value : String} (hascii : Ascii value.toList) :
    (∀ c ∈ caseFolded value, isControl c = false) ↔ hasControl value = false := by
  have hchar : ∀ c ∈ value.toList,
      isControl (if c = '/' then '\\' else c).toLower = isControl c := by
    intro c hc
    split
    next hslash => rw [hslash]; decide
    · exact (lower_spec (hascii c hc)).1
  simp only [caseFolded, lower, backslashed, List.map_map, List.forall_mem_map, Function.comp]
  rw [hasControl, List.any_eq_false]
  refine forall₂_congr fun c hc => ?_
  rw [hchar c hc, Bool.not_eq_true]

/-- Acceptance looks at nothing that folding removes. -/
theorem accepted_iff {value : String} (hascii : Ascii value.toList) :
    (∃ output, normalizeWindowsPath toLowercase value = .ok output) ↔ Accepted (caseFolded value) := by
  simp only [normalizeWindowsPath_eq_ok]
  constructor
  · rintro ⟨output, hcontrol, drive, rest, hpath, halpha, hparts, hclean, -⟩
    have hchars := backslashed_spec hascii hcontrol
    rw [hpath] at hchars
    simp only [List.forall_mem_cons] at hchars
    have hrest : Ascii rest := fun c hc => (hchars.2.2.2 c hc).1
    refine ⟨(control_caseFolded hascii).mpr hcontrol, drive.toLower, lower rest, ?_, ?_, ?_, ?_⟩
    · rw [caseFolded, hpath]
      rfl
    · rw [(lower_spec hchars.1.1).2.1, halpha]
    · rw [components_lower hrest]
      simpa using hparts
    · rw [components_lower hrest, List.forall_mem_map]
      intro part hpart
      rw [isAmbiguous_lower (ascii_component hrest (List.mem_filter.mp hpart).1), hclean part hpart]
  · rintro ⟨hcontrol, drive, rest, hpath, halpha, hparts, hclean⟩
    have hcontrol := (control_caseFolded hascii).mp hcontrol
    have hchars := backslashed_spec hascii hcontrol
    rw [caseFolded] at hpath
    rcases hbackslashed : backslashed value with _ | ⟨d, _ | ⟨colon, _ | ⟨slash, r⟩⟩⟩ <;>
      rw [hbackslashed] at hpath hchars <;> simp [lower] at hpath
    obtain ⟨rfl, hcolon, hslash, rfl⟩ := hpath
    simp only [List.forall_mem_cons] at hchars
    have hrest : Ascii r := fun c hc => (hchars.2.2.2 c hc).1
    rw [components_lower hrest] at hparts hclean
    obtain rfl := (lower_eq_mark hchars.2.1.1 (by simp [marks, refusedChars])).mp hcolon
    obtain rfl := (lower_eq_mark hchars.2.2.1.1 (by simp [marks])).mp hslash
    refine ⟨_, hcontrol, d, r, rfl, ?_, by simpa using hparts, ?_, rfl⟩
    · rw [← (lower_spec hchars.1.1).2.1, halpha]
    · intro part hpart
      rw [← isAmbiguous_lower (ascii_component hrest (List.mem_filter.mp hpart).1)]
      exact hclean _ (List.mem_map_of_mem hpart)

theorem head_of_backslashed {value : String} {drive : Char} {rest : List Char}
    (halpha : drive.isAlpha = true) (h : backslashed value = drive :: rest) :
    value.toList.head? = some drive := by
  obtain ⟨c, tail, hvalue, hc, -⟩ := List.map_eq_cons_iff.mp h
  rw [hvalue]
  split at hc
  · rw [← hc] at halpha
    exact absurd halpha (by decide)
  · rw [hc]
    rfl

/-- A normal form is made of one drive and one list of components. -/
theorem normalForm_inj {drive drive' : Char} {parts parts' : List (List Char)} (hparts : parts ≠ [])
    (hparts' : parts' ≠ []) (h : ∀ part ∈ parts, NormalPart part)
    (h' : ∀ part ∈ parts', NormalPart part) :
    normalForm drive parts = normalForm drive' parts' ↔ drive = drive' ∧ parts = parts' := by
  constructor
  · intro hsame
    simp only [normalForm, List.cons.injEq, true_and] at hsame
    have hcomponents := congrArg components hsame.2
    rw [components_normalForm hparts h, components_normalForm hparts' h'] at hcomponents
    exact ⟨hsame.1, hcomponents⟩
  · rintro ⟨rfl, rfl⟩
    rfl

/-- The components of a path. -/
def pathComponents (value : String) : List (List Char) := components ((backslashed value).drop 3)

/-- **The normal form decides what a path names.** For ASCII texts, and a lower case that is the one of
ASCII there: a normal form is its own, with components that Windows takes literally; two accepted paths
have one normal form exactly if they have the same drive and the same components, but for case; and
acceptance is blind to case and to the direction of slashes. -/
theorem normalizeWindowsPath_spec (hlower : ∀ text, Ascii text → toLowercase text = lower text) :
    (∀ value output, isAscii value = true →
      normalizeWindowsPath toLowercase value = .ok output →
      normalizeWindowsPath toLowercase output = .ok output ∧
        ∀ part ∈ (output.toList.drop 3).splitOn '\\', part ≠ [] ∧ part ≠ ['.'] ∧ part ≠ ['.', '.'] ∧
          part.getLast? ≠ some '.' ∧ part.getLast? ≠ some ' ' ∧ isReserved part = false) ∧
    (∀ value value' output output', isAscii value = true → isAscii value' = true →
      normalizeWindowsPath toLowercase value = .ok output →
      normalizeWindowsPath toLowercase value' = .ok output' →
      (output = output' ↔
        value.toList.head?.map Char.toLower = value'.toList.head?.map Char.toLower ∧
          (pathComponents value).map lower = (pathComponents value').map lower)) ∧
    ∀ value value', isAscii value = true → isAscii value' = true → caseFolded value = caseFolded value' →
      ((∃ output, normalizeWindowsPath toLowercase value = .ok output) ↔
        ∃ output, normalizeWindowsPath toLowercase value' = .ok output) := by
  have hascii : ∀ {value : String}, isAscii value = true → Ascii value.toList := by
    intro value h c hc
    simpa using List.all_eq_true.mp h c hc
  refine ⟨?_, ?_, ?_⟩
  · intro value output hvalue h
    obtain ⟨drive, rest, -, halpha, hdrive, rfl, hparts, hnormal⟩ :=
      normalForm_of_accepted hlower (hascii hvalue) h
    have hlowered := lower_spec hdrive
    have hne : (components rest).map lower ≠ [] := by simpa using hparts
    refine ⟨normalizeWindowsPath_normalForm hlower (hlowered.2.1 ▸ halpha) hlowered.2.2.2.1 hne
      hnormal, ?_⟩
    rw [String.toList_ofList, normalForm, List.drop_succ_cons, List.drop_succ_cons,
      List.drop_succ_cons, List.drop_zero,
      List.splitOn_intercalate '\\' (fun part hpart => (hnormal part hpart).whole) hne]
    intro part hpart
    have hclean := (hnormal part hpart).clean
    simp only [isAmbiguous, Bool.or_eq_false_iff, beq_eq_false_iff_ne] at hclean
    obtain ⟨⟨⟨⟨hdots, hdot⟩, hspace⟩, -⟩, hreserved⟩ := hclean
    obtain ⟨hkept, hempty⟩ := (hnormal part hpart).kept
    exact ⟨hempty, hkept, hdots, hdot, hspace, hreserved⟩
  · intro value value' output output' hvalue hvalue' h h'
    obtain ⟨drive, rest, hpath, halpha, hdrive, rfl, hparts, hnormal⟩ :=
      normalForm_of_accepted hlower (hascii hvalue) h
    obtain ⟨drive', rest', hpath', halpha', hdrive', rfl, hparts', hnormal'⟩ :=
      normalForm_of_accepted hlower (hascii hvalue') h'
    rw [pathComponents, pathComponents, hpath, hpath', head_of_backslashed halpha hpath,
      head_of_backslashed halpha' hpath', String.ofList_inj,
      normalForm_inj (by simpa using hparts) (by simpa using hparts') hnormal hnormal',
      Option.map_some, Option.map_some, Option.some.injEq]
    rfl
  · intro value value' hvalue hvalue' hsame
    rw [accepted_iff (hascii hvalue), accepted_iff (hascii hvalue'), hsame]

theorem config_is_normal :
    normalizeWindowsPath lower "c:\\data\\config.json" = .ok "c:\\data\\config.json" :=
  ((normalizeWindowsPath_spec fun _ _ => rfl).1 "C:/Data\\.\\CONFIG.json" _ (by decide +kernel)
    (by decide +kernel)).1

end VirtioMem.Core
