import Mathlib.Algebra.GroupWithZero.Nat
import Mathlib.Data.List.Basic

/-!
# Text as the standard library of the source sees it

The character classes are the Unicode ones (`White_Space` and the control category `Cc`), lengths
are lengths in UTF-8 bytes, and trimming looks at both ends.
-/

namespace VirtioMem.Text

/-- The Unicode property `White_Space`. -/
def isWhitespace (c : Char) : Bool :=
  let n := c.toNat
  (9 ≤ n && n ≤ 13) || n == 0x20 || n == 0x85 || n == 0xA0 || n == 0x1680 ||
    (0x2000 ≤ n && n ≤ 0x200A) || n == 0x2028 || n == 0x2029 || n == 0x202F || n == 0x205F ||
    n == 0x3000

/-- The Unicode category `Cc`. -/
def isControl (c : Char) : Bool :=
  let n := c.toNat
  n ≤ 0x1F || (0x7F ≤ n && n ≤ 0x9F)

/-- Whether trimming leaves nothing. -/
def isBlank (s : String) : Bool := s.toList.all isWhitespace

def isAscii (s : String) : Bool := s.toList.all (·.toNat < 128)

def hasControl (s : String) : Bool := s.toList.any isControl

/-- The text without the white space at either end. -/
def trim (s : String) : String :=
  String.ofList (((s.toList.dropWhile isWhitespace).reverse.dropWhile isWhitespace).reverse)

/-- The longest prefix of at most `budget` UTF-8 bytes. -/
def takeBytes : Nat → List Char → List Char
  | _, [] => []
  | budget, c :: cs => if c.utf8Size ≤ budget then c :: takeBytes (budget - c.utf8Size) cs else []

/-- The maximal runs of characters outside `separator`, in order. -/
def words (separator : Char → Bool) (cs : List Char) : List (List Char) :=
  (cs.splitOnP separator).filter (· ≠ [])

/-- A text the reader of a report cannot use: blank, too long or with control characters. -/
def unreadable (limit : Nat) (value : String) : Bool :=
  isBlank value || value.utf8ByteSize > limit || hasControl value

/-! ## What cutting and splitting leave -/

theorem takeBytes_isPrefix (budget : Nat) (cs : List Char) : takeBytes budget cs <+: cs := by
  induction cs generalizing budget with
  | nil => exact List.prefix_rfl
  | cons c cs ih =>
      rw [takeBytes]
      split
      · exact (List.cons_prefix_cons).mpr ⟨rfl, ih _⟩
      · exact List.nil_prefix

/-- A cut text fits its budget. -/
theorem size_takeBytes (budget : Nat) (cs : List Char) :
    (String.ofList (takeBytes budget cs)).utf8ByteSize ≤ budget := by
  induction cs generalizing budget with
  | nil => simp [takeBytes]
  | cons c cs ih =>
      rw [takeBytes]
      split
      · next hfits =>
        rw [String.ofList_cons, String.utf8ByteSize_append, String.utf8ByteSize_singleton]
        have := ih (budget - c.utf8Size)
        omega
      · simp

theorem not_separator_of_mem_splitOnPPrepend {separator : Char → Bool} {cs acc word : List Char}
    (hacc : ∀ c ∈ acc, separator c = false) (h : word ∈ cs.splitOnPPrepend separator acc) :
    ∀ c ∈ word, separator c = false := by
  induction cs generalizing acc with
  | nil =>
      simp only [List.splitOnPPrepend_nil, List.mem_singleton] at h
      subst h
      simpa using hacc
  | cons c cs ih =>
      rw [List.splitOnPPrepend_cons_eq_if] at h
      split at h
      · rcases List.mem_cons.mp h with rfl | h
        · simpa using hacc
        · exact ih (fun _ hc => absurd hc List.not_mem_nil) h
      · next hc =>
        refine ih ?_ h
        intro d hd
        rcases List.mem_cons.mp hd with rfl | hd
        · simpa using hc
        · exact hacc d hd

/-- No word has a separator in it. -/
theorem not_separator_of_mem_words {separator : Char → Bool} {cs word : List Char}
    (h : word ∈ words separator cs) : ∀ c ∈ word, separator c = false :=
  not_separator_of_mem_splitOnPPrepend (fun _ hc => absurd hc List.not_mem_nil)
    (List.mem_of_mem_filter h)

/-- What is joined is its first part, and every other behind a separator. -/
theorem intercalate_flatMap {c : Char} {part : List Char} {parts : List (List Char)} :
    [c].intercalate (part :: parts) = part ++ parts.flatMap (c :: ·) := by
  induction parts generalizing part with
  | nil => simp
  | cons next parts ih => rw [List.intercalate_cons_cons, ih, List.flatMap_cons]; simp

theorem mem_intercalate {separator : List Char} {parts : List (List Char)} {c : Char}
    (h : c ∈ separator.intercalate parts) : c ∈ separator ∨ ∃ part ∈ parts, c ∈ part := by
  induction parts with
  | nil => simp [List.intercalate_nil] at h
  | cons part parts ih =>
      cases parts with
      | nil => exact .inr ⟨part, List.mem_singleton_self _, by simpa using h⟩
      | cons other parts =>
          rw [List.intercalate_cons_cons, List.mem_append, List.mem_append] at h
          rcases h with (h | h) | h
          · exact .inr ⟨part, List.mem_cons_self, h⟩
          · exact Or.inl h
          · rcases ih h with h | ⟨found, hfound, hc⟩
            · exact .inl h
            · exact .inr ⟨found, List.mem_cons_of_mem _ hfound, hc⟩

/-- What is joined begins with the first part. -/
theorem head_intercalate {separator : List Char} {parts : List (List Char)} {c : Char}
    {rest : List Char} (hparts : ∀ part ∈ parts, part ≠ [])
    (h : separator.intercalate parts = c :: rest) : ∃ part ∈ parts, c ∈ part := by
  cases parts with
  | nil => simp [List.intercalate_nil] at h
  | cons part parts =>
      refine ⟨part, List.mem_cons_self, ?_⟩
      cases part with
      | nil => exact absurd rfl (hparts [] List.mem_cons_self)
      | cons d ds =>
          have hhead : c = d := by
            cases parts with
            | nil => simpa using (congrArg List.head? h).symm
            | cons other parts =>
                rw [List.intercalate_cons_cons] at h
                simpa using (congrArg List.head? h).symm
          rw [hhead]
          exact List.mem_cons_self

/-- Behind a separator the rest of a text is a word, if there is none in it. -/
theorem mem_words_append {separator : Char → Bool} {lead word : List Char} {c : Char}
    (hc : separator c = true) (hword : ∀ d ∈ word, separator d = false) (hne : word ≠ []) :
    word ∈ words separator (lead ++ c :: word) := by
  refine List.mem_filter.mpr ⟨?_, by simpa using hne⟩
  rw [List.splitOnP_append_cons _ _ hc, List.splitOnP_eq_singleton hword]
  exact List.mem_append_right _ List.mem_cons_self

theorem sublist_intercalate {separator part : List Char} {parts : List (List Char)}
    (h : part ∈ parts) : part.Sublist (separator.intercalate parts) := by
  induction parts with
  | nil => cases h
  | cons first parts ih =>
      cases parts with
      | nil =>
          rw [List.mem_singleton.mp h]
          simp
      | cons other parts =>
          rw [List.intercalate_cons_cons]
          rcases List.mem_cons.mp h with rfl | h
          · rw [List.append_assoc]
            exact List.sublist_append_left ..
          · exact (ih h).trans (List.sublist_append_right ..)

/-- A separator at the end begins no word. -/
theorem words_concat {separator : Char → Bool} {c : Char} (hc : separator c = true)
    (cs : List Char) : words separator (cs ++ [c]) = words separator cs := by
  rw [words, List.splitOnP_append_cons _ _ hc, List.filter_append]
  simp [words]

/-- **Joined words are read back.** -/
theorem words_intercalate {separator : Char → Bool} {c : Char} (hc : separator c = true)
    {parts : List (List Char)} (hparts : ∀ part ∈ parts, part ≠ [] ∧ ∀ d ∈ part, separator d = false) :
    words separator ([c].intercalate parts) = parts := by
  induction parts with
  | nil => simp [words]
  | cons part parts ih =>
      obtain ⟨hne, hpart⟩ := hparts part List.mem_cons_self
      have hrest := ih fun other hother => hparts other (List.mem_cons_of_mem _ hother)
      cases parts with
      | nil => simpa [words, List.splitOnP_eq_singleton hpart] using hne
      | cons next parts =>
          rw [List.intercalate_cons_cons, List.append_assoc, List.singleton_append, words,
            List.splitOnP_append_cons_of_forall_mem hpart _ hc,
            List.filter_cons_of_pos (by simpa using hne)]
          exact congrArg (part :: ·) hrest

/-- A beginning of joined words is joined itself, or a separator stands at its end. -/
theorem prefix_intercalate {separator : Char → Bool} {c : Char} {parts : List (List Char)}
    (hparts : ∀ part ∈ parts, part ≠ [] ∧ ∀ d ∈ part, separator d = false) {cut : List Char}
    (hcut : cut <+: [c].intercalate parts) :
    (∃ kept : List (List Char), (∀ part ∈ kept, part ≠ [] ∧ ∀ d ∈ part, separator d = false) ∧
      cut = [c].intercalate kept) ∨
    ∃ front next rest, parts = front ++ next :: rest ∧ front ≠ [] ∧
      cut = [c].intercalate front ++ [c] := by
  have hin : ∀ {cut part : List Char}, (part ≠ [] ∧ ∀ d ∈ part, separator d = false) →
      cut <+: part →
      ∃ kept : List (List Char), (∀ part ∈ kept, part ≠ [] ∧ ∀ d ∈ part, separator d = false) ∧
        cut = [c].intercalate kept := by
    intro cut part hpart hcut
    by_cases hempty : cut = []
    · exact ⟨[], by simp, by simpa using hempty⟩
    · refine ⟨[cut], fun other hother => ?_, by simp⟩
      rw [List.mem_singleton.mp hother]
      exact ⟨hempty, fun d hd => hpart.2 d (hcut.subset hd)⟩
  -- By induction on the words: the cut is inside the first one, at its end, or behind it.
  induction parts generalizing cut with
  | nil => exact .inl ⟨[], by simp, by simpa using hcut⟩
  | cons part parts ih =>
      have hpart := hparts part List.mem_cons_self
      cases parts with
      | nil => exact .inl (hin hpart (by simpa using hcut))
      | cons next parts =>
          rw [List.intercalate_cons_cons, List.append_assoc, List.singleton_append] at hcut
          rcases List.prefix_or_prefix_of_prefix hcut (List.prefix_append part _) with
            hshort | ⟨behind, rfl⟩
          · exact .inl (hin hpart hshort)
          rw [List.prefix_append_right_inj] at hcut
          cases behind with
          | nil => exact .inl (hin hpart (by simp))
          | cons d behind =>
              obtain ⟨rfl, hbehind⟩ := List.cons_prefix_cons.mp hcut
              rcases ih (fun other hother => hparts other (List.mem_cons_of_mem _ hother)) hbehind with
                ⟨kept, hkept, rfl⟩ | ⟨front, word, rest, hfront, hne, rfl⟩
              · cases kept with
                | nil =>
                    refine .inr ⟨[part], next, parts, rfl, by simp, by simp⟩
                | cons first kept =>
                    refine .inl ⟨part :: first :: kept, fun other hother => ?_, ?_⟩
                    · rcases List.mem_cons.mp hother with rfl | hother
                      · exact hpart
                      · exact hkept other hother
                    · rw [List.intercalate_cons_cons]
                      simp
              · refine .inr ⟨part :: front, word, rest, by rw [hfront]; rfl, by simp, ?_⟩
                obtain ⟨first, front, rfl⟩ := List.exists_cons_of_ne_nil hne
                rw [List.intercalate_cons_cons]
                simp

/-! ### Cuts -/

theorem takeBytes_append {budget : Nat} {front rest : List Char}
    (h : (String.ofList front).utf8ByteSize ≤ budget) :
    takeBytes budget (front ++ rest) =
      front ++ takeBytes (budget - (String.ofList front).utf8ByteSize) rest := by
  induction front generalizing budget with
  | nil => simp
  | cons c front ih =>
      rw [String.ofList_cons, String.utf8ByteSize_append, String.utf8ByteSize_singleton] at h ⊢
      rw [List.cons_append, takeBytes, if_pos (by omega), ih (by omega), Nat.sub_sub]
      rfl

/-- A text that fits is not cut. -/
theorem takeBytes_of_fits {budget : Nat} {cs : List Char}
    (h : (String.ofList cs).utf8ByteSize ≤ budget) : takeBytes budget cs = cs := by
  have hcut := @takeBytes_append budget cs [] h
  rwa [takeBytes, List.append_nil] at hcut

/-- A cut goes as far as it can. -/
theorem takeBytes_rest {budget : Nat} {cs rest : List Char} {c : Char}
    (h : cs = takeBytes budget cs ++ c :: rest) :
    budget < (String.ofList (takeBytes budget cs)).utf8ByteSize + c.utf8Size := by
  induction cs generalizing budget with
  | nil => simp [takeBytes] at h
  | cons d cs ih =>
      rw [takeBytes] at h ⊢
      split_ifs at h ⊢ with hfits
      · have htail : cs = takeBytes (budget - d.utf8Size) cs ++ c :: rest := by simpa using h
        have := ih htail
        rw [String.ofList_cons, String.utf8ByteSize_append, String.utf8ByteSize_singleton]
        omega
      · obtain ⟨rfl, -⟩ := List.cons.inj (show d :: cs = c :: rest from h)
        simpa using hfits

/-- What trimming leaves does not end in white space, so it is blank only where it is empty. -/
theorem isBlank_trim {s : String} (h : (trim s).toList ≠ []) : isBlank (trim s) = false := by
  simp only [trim, String.toList_ofList, ne_eq, List.reverse_eq_nil_iff] at h
  have hlast := List.head_dropWhile_not isWhitespace h
  rw [isBlank, trim, String.toList_ofList, List.all_reverse, List.all_eq_false]
  exact ⟨_, List.head_mem h, by simp [hlast]⟩

theorem getLast_trim {s : String} {c : Char} (h : (trim s).toList.getLast? = some c) :
    isWhitespace c = false := by
  rw [trim, String.toList_ofList, List.getLast?_reverse] at h
  have hhead := List.head?_dropWhile_not isWhitespace (s.toList.dropWhile isWhitespace).reverse
  rw [h] at hhead
  simpa using hhead

/-- What trimming takes away is white space at either end. -/
theorem trim_split (cs : List Char) : ∃ front back,
    cs = front ++ (trim (String.ofList cs)).toList ++ back ∧
      (∀ c ∈ front, isWhitespace c = true) ∧ ∀ c ∈ back, isWhitespace c = true := by
  have hback := List.takeWhile_append_dropWhile (p := isWhitespace)
    (l := (cs.dropWhile isWhitespace).reverse)
  refine ⟨cs.takeWhile isWhitespace, ((cs.dropWhile isWhitespace).reverse.takeWhile isWhitespace).reverse,
    ?_, List.all_eq_true.mp List.all_takeWhile, fun c hc => ?_⟩
  · rw [trim, String.toList_ofList, String.toList_ofList, List.append_assoc, ← List.reverse_append,
      hback, List.reverse_reverse, List.takeWhile_append_dropWhile]
  · exact List.all_eq_true.mp List.all_takeWhile c (List.mem_reverse.mp hc)

/-- White space before a text without any is trimmed. -/
theorem trim_gap {gap text : List Char} (hgap : ∀ c ∈ gap, isWhitespace c = true)
    (htext : ∀ c ∈ text, isWhitespace c = false) :
    (trim (String.ofList (gap ++ text))).toList = text := by
  have hkept : ∀ cs : List Char, (∀ c ∈ cs, isWhitespace c = false) → cs.dropWhile isWhitespace = cs := by
    intro cs hcs
    cases cs with
    | nil => rfl
    | cons c cs => exact List.dropWhile_cons_of_neg (by simp [hcs c List.mem_cons_self])
  rw [trim, String.toList_ofList, String.toList_ofList, List.dropWhile_append_of_pos hgap, hkept text htext,
    hkept _ fun c hc => htext c (List.mem_reverse.mp hc), List.reverse_reverse]

/-- A text of one kind of characters ends where one of another kind stands. -/
theorem span_append {p : Char → Bool} {piece rest : List Char} (hpiece : ∀ c ∈ piece, p c = true)
    (hrest : ∀ c, rest.head? = some c → p c = false) :
    (piece ++ rest).takeWhile p = piece ∧ (piece ++ rest).dropWhile p = rest := by
  rw [List.takeWhile_append_of_pos hpiece, List.dropWhile_append_of_pos hpiece]
  cases rest with
  | nil => simp
  | cons c rest => simp [hrest c rfl]

/-- A lead that is not blank leaves the length to be checked. -/
theorem unreadable_append {limit : Nat} {lead text : String} (hblank : isBlank lead = false)
    (hlead : hasControl lead = false) (htext : hasControl text = false) :
    unreadable limit (lead ++ text) = false ↔
      lead.utf8ByteSize + text.utf8ByteSize ≤ limit := by
  have hcontrol : hasControl (lead ++ text) = false := by
    simp only [hasControl, String.toList_append, List.any_append, Bool.or_eq_false_iff] at *
    exact ⟨hlead, htext⟩
  have hwhole : isBlank (lead ++ text) = false := by
    simp only [isBlank, String.toList_append, List.all_append, Bool.and_eq_false_iff] at *
    exact .inl hblank
  simp [unreadable, hwhole, hcontrol, String.utf8ByteSize_append]

/-! ## Sizes -/

theorem size_ofList (cs : List Char) :
    (String.ofList cs).utf8ByteSize = (cs.map Char.utf8Size).sum := by
  induction cs with
  | nil => rfl
  | cons c cs ih =>
      rw [String.ofList_cons, String.utf8ByteSize_append, String.utf8ByteSize_singleton, ih,
        List.map_cons, List.sum_cons]

theorem size_eq_sum (s : String) : s.utf8ByteSize = (s.toList.map Char.utf8Size).sum := by
  rw [← size_ofList, String.ofList_toList]

/-- A text that is too long is cut within a character of the budget. -/
theorem size_takeBytes_of_long {budget : Nat} {cs : List Char}
    (h : budget < (String.ofList cs).utf8ByteSize) :
    budget < (String.ofList (takeBytes budget cs)).utf8ByteSize + 4 := by
  induction cs generalizing budget with
  | nil => simp at h
  | cons c cs ih =>
      have hc : c.utf8Size ≤ 4 := Char.utf8Size_le_four c
      rw [takeBytes]
      split
      · next hfits =>
        rw [String.ofList_cons, String.utf8ByteSize_append, String.utf8ByteSize_singleton] at h ⊢
        have := @ih (budget - c.utf8Size) (by omega)
        omega
      · omega

theorem size_le_of_sublist {cs ds : List Char} (h : cs.Sublist ds) :
    (String.ofList cs).utf8ByteSize ≤ (String.ofList ds).utf8ByteSize := by
  rw [size_ofList, size_ofList]
  induction h with
  | slnil => exact Nat.le_refl _
  | cons c _ ih =>
      rw [List.map_cons, List.sum_cons]
      omega
  | cons_cons c _ ih =>
      rw [List.map_cons, List.map_cons, List.sum_cons, List.sum_cons]
      omega

/-- Printable ASCII other than the blank. -/
def isGraphic (c : Char) : Bool := 0x20 < c.toNat && c.toNat < 0x7F

theorem isGraphic_size {c : Char} (h : isGraphic c = true) : c.utf8Size = 1 := by
  simp only [isGraphic, Bool.and_eq_true, decide_eq_true_eq] at h
  rw [Char.utf8Size_eq_one_iff]
  have : c.toNat = c.val.toNat := rfl
  rw [UInt32.le_iff_toNat_le]
  show c.val.toNat ≤ 127
  omega

theorem isGraphic_whitespace {c : Char} (h : isGraphic c = true) : isWhitespace c = false := by
  simp only [isGraphic, Bool.and_eq_true, decide_eq_true_eq] at h
  simp only [isWhitespace, Bool.or_eq_false_iff, Bool.and_eq_false_iff, decide_eq_false_iff_not,
    beq_eq_false_iff_ne]
  omega

theorem isGraphic_control {c : Char} (h : isGraphic c = true) : isControl c = false := by
  simp only [isGraphic, Bool.and_eq_true, decide_eq_true_eq] at h
  simp only [isControl, Bool.or_eq_false_iff, Bool.and_eq_false_iff, decide_eq_false_iff_not]
  omega

theorem size_graphic {s : String} (hgraphic : ∀ c ∈ s.toList, isGraphic c = true) :
    s.utf8ByteSize = s.toList.length := by
  rw [size_eq_sum, List.map_congr_left fun c hc => isGraphic_size (hgraphic c hc)]
  simp

/-- **Of a graphic text only the length is in question.** -/
theorem readable_graphic_iff {s : String} {limit : Nat}
    (hgraphic : ∀ c ∈ s.toList, isGraphic c = true) (hne : s.toList ≠ []) :
    unreadable limit s = false ↔ s.utf8ByteSize ≤ limit := by
  obtain ⟨c, hc⟩ := List.exists_mem_of_ne_nil _ hne
  have hblank : isBlank s = false := by
    rw [isBlank, List.all_eq_false]
    exact ⟨c, hc, by simp [isGraphic_whitespace (hgraphic c hc)]⟩
  have hcontrol : hasControl s = false := by
    rw [hasControl, List.any_eq_false]
    intro d hd
    simp [isGraphic_control (hgraphic d hd)]
  simp [unreadable, hblank, hcontrol]

theorem readable_graphic {s : String} {limit : Nat} (hgraphic : ∀ c ∈ s.toList, isGraphic c = true)
    (hne : s.toList ≠ []) (hlimit : s.toList.length ≤ limit) : unreadable limit s = false :=
  (readable_graphic_iff hgraphic hne).mpr (size_graphic hgraphic ▸ hlimit)

theorem isUpper_iff {c : Char} : c.isUpper = true ↔ 65 ≤ c.toNat ∧ c.toNat ≤ 90 := by
  rw [show c.isUpper = decide (c.val ≥ 'A'.val ∧ c.val ≤ 'Z'.val) from rfl]
  simp only [decide_eq_true_eq, UInt32.le_iff_toNat_le, ge_iff_le]
  rfl

theorem isLower_iff {c : Char} : c.isLower = true ↔ 97 ≤ c.toNat ∧ c.toNat ≤ 122 := by
  rw [show c.isLower = (decide (c.val ≥ 'a'.val) && decide (c.val ≤ 'z'.val)) from rfl]
  simp only [Bool.and_eq_true, decide_eq_true_eq, UInt32.le_iff_toNat_le, ge_iff_le]
  rfl

theorem isDigit_iff {c : Char} : c.isDigit = true ↔ 48 ≤ c.toNat ∧ c.toNat ≤ 57 := by
  rw [show c.isDigit = (decide (c.val ≥ '0'.val) && decide (c.val ≤ '9'.val)) from rfl]
  simp only [Bool.and_eq_true, decide_eq_true_eq, UInt32.le_iff_toNat_le, ge_iff_le]
  rfl

theorem isAlphanum_iff {c : Char} :
    c.isAlphanum = true ↔ (c.isUpper = true ∨ c.isLower = true) ∨ c.isDigit = true := by
  rw [show c.isAlphanum = (c.isUpper || c.isLower || c.isDigit) from rfl, Bool.or_eq_true,
    Bool.or_eq_true]

theorem isGraphic_alphanum {c : Char} (h : c.isAlphanum = true) : isGraphic c = true := by
  rw [isAlphanum_iff, isUpper_iff, isLower_iff, isDigit_iff] at h
  simp only [isGraphic, Bool.and_eq_true, decide_eq_true_eq]
  omega

theorem graphic_repr (n : Nat) : ∀ c ∈ (toString n).toList, isGraphic c = true := by
  intro c hc
  rw [Nat.toString_eq_repr, Nat.toList_repr] at hc
  have hdigit := Nat.isDigit_of_mem_toDigits (by decide) (by decide) hc
  exact isGraphic_alphanum (by simp [Char.isAlphanum, hdigit])

end VirtioMem.Text
