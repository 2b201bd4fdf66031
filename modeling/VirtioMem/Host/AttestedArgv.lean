import Mathlib.Data.List.Forall2
import VirtioMem.Host.Descriptors

/-!
# What an attestation keeps of the command line

An attestation ignores the requested size and the numbers of descriptors, and should ignore nothing
else. A command line can be read back from its text (`Argv.render_inj`), and what the scan writes is the
text of the command line with its numbers blanked. So what two command lines with one scrubbed text can
differ in is what is blanked (`attested_argv`).

There are three limits. A bare number ends where its digits do, not where the value does; a value that
is the mark itself looks like a number that was blanked; and the removal of a requested size without a
value reaches over the space behind its list (`argv_not_exact`).
-/

namespace VirtioMem.Host

open VirtioMem.Scan VirtioMem.Text

/-! ## Command lines that stay apart

A command line can be read back from its text, so two that become the same text are the same up to
what was blanked.
-/

theorem forall₂_of_map_eq {β γ : Type} {f : β → γ} {R : β → β → Prop} {xs ys : List β}
    (hR : ∀ x ∈ xs, ∀ y ∈ ys, f x = f y → R x y) (h : xs.map f = ys.map f) :
    List.Forall₂ R xs ys := by
  induction xs generalizing ys with
  | nil =>
      rw [List.map_eq_nil_iff.mp h.symm]
      exact .nil
  | cons x xs ih =>
      cases ys with
      | nil => cases h
      | cons y ys =>
          obtain ⟨hhead, htail⟩ := List.cons.inj h
          exact .cons (hR x List.mem_cons_self y List.mem_cons_self hhead) (ih (fun x' hx y' hy =>
            hR x' (List.mem_cons_of_mem _ hx) y' (List.mem_cons_of_mem _ hy)) htail)

theorem map_eq_of_forall₂ {β γ : Type} {f : β → γ} {R : β → β → Prop} {xs ys : List β}
    (hR : ∀ x y, R x y → f x = f y) (h : List.Forall₂ R xs ys) : xs.map f = ys.map f := by
  induction h with
  | nil => rfl
  | cons hhead _ ih => rw [List.map_cons, List.map_cons, hR _ _ hhead, ih]

theorem map_inj_on {β γ : Type} {f : β → γ} {xs ys : List β}
    (hf : ∀ x ∈ xs, ∀ y ∈ ys, f x = f y → x = y) (h : xs.map f = ys.map f) : xs = ys := by
  have heq := forall₂_of_map_eq hf h
  rwa [List.forall₂_eq_eq_eq] at heq

/-- Parts without their separator can be read back. -/
theorem intercalate_inj {c : Char} {xs ys : List (List Char)} (hxs : ∀ x ∈ xs, c ∉ x)
    (hys : ∀ y ∈ ys, c ∉ y) (hne : xs ≠ []) (hne' : ys ≠ [])
    (h : [c].intercalate xs = [c].intercalate ys) : xs = ys := by
  rw [← List.splitOn_intercalate c hxs hne, h, List.splitOn_intercalate c hys hne']

theorem Plain.notMem {text : List Char} {c : Char} (h : Plain text)
    (hc : isListSeparator c = true ∨ isQuote c = true) : c ∉ text := by
  intro hmem
  obtain ⟨hseparator, hquote⟩ := h c hmem
  rcases hc with hc | hc
  · rw [hseparator] at hc
    cases hc
  · rw [hquote] at hc
    cases hc

/-- What is in a member besides its key and value. -/
theorem JsonMember.WellFormed.notMem {m : JsonMember} {c : Char} (h : m.WellFormed)
    (hc : isListSeparator c = true) (hquote : c ≠ '"') (hcolon : c ≠ ':') : c ∉ m.render := by
  have hkey := h.key.notMem (.inl hc)
  have hvalue := h.value.notMem (.inl hc)
  unfold JsonMember.render JsonMember.renderValue
  split_ifs <;> simp [hkey, hvalue, hquote, hcolon]

theorem ListMember.WellFormed.notMem {m : ListMember} {c : Char} (h : m.WellFormed)
    (hc : isListSeparator c = true) (hequals : c ≠ '=') : c ∉ m.render := by
  have hkey := h.key.notMem (.inl hc)
  unfold ListMember.render
  cases hvalue : m.value with
  | none => simpa using hkey
  | some value => simp [hkey, (h.value value hvalue).notMem (.inl hc), hequals]

theorem JsonMember.render_inj {m m' : JsonMember} (h : m.WellFormed) (h' : m'.WellFormed)
    (heq : m.render = m'.render) : m = m' := by
  have hquote := h.key.notMem (c := '"') (.inr (by decide))
  have hquote' := h'.key.notMem (c := '"') (.inr (by decide))
  have hrender : ∀ m : JsonMember, m.render = '"' :: (m.key ++ '"' :: (':' :: m.renderValue)) := by
    simp [JsonMember.render]
  rw [hrender, hrender] at heq
  obtain ⟨hkey, hvalue⟩ := append_cons_inj hquote hquote' (List.cons.inj heq).2
  obtain ⟨key, quoted, value⟩ := m
  obtain ⟨key', quoted', value'⟩ := m'
  have hrest : (JsonMember.renderValue ⟨key, quoted, value⟩) =
      (JsonMember.renderValue ⟨key', quoted', value'⟩) := (List.cons.inj hvalue).2
  cases quoted <;> cases quoted' <;>
    simp only [JsonMember.renderValue, Bool.false_eq_true, if_false, if_true] at hrest
  · simp_all
  · exact absurd (hrest ▸ List.mem_cons_self) h.unquoted
  · exact absurd (hrest ▸ List.mem_cons_self) h'.unquoted
  · simp_all

theorem ListMember.render_inj {m m' : ListMember} (h : m.WellFormed) (h' : m'.WellFormed)
    (heq : m.render = m'.render) : m = m' := by
  obtain ⟨key, value⟩ := m
  obtain ⟨key', value'⟩ := m'
  cases value with
  | none =>
      cases value' with
      | none => simpa [ListMember.render] using heq
      | some value' =>
          simp only [ListMember.render, List.append_nil] at heq
          exact absurd (heq ▸ by simp) h.key_eq
  | some value =>
      cases value' with
      | none =>
          simp only [ListMember.render, List.append_nil] at heq
          exact absurd (heq ▸ by simp) h'.key_eq
      | some value' =>
          obtain ⟨rfl, rfl⟩ := append_cons_inj h.key_eq h'.key_eq heq
          rfl

theorem JsonMember.render_ne_nil (m : JsonMember) : m.render ≠ [] := by
  simp [JsonMember.render]

/-- The members of an object are read back. -/
theorem json_inj {ms ms' : List JsonMember} (h : ∀ m ∈ ms, m.WellFormed)
    (h' : ∀ m ∈ ms', m.WellFormed)
    (heq : [','].intercalate (ms.map JsonMember.render) =
      [','].intercalate (ms'.map JsonMember.render)) : ms = ms' := by
  have hcomma : ∀ ms : List JsonMember, (∀ m ∈ ms, m.WellFormed) →
      ∀ text ∈ ms.map JsonMember.render, ',' ∉ text := by
    intro ms h text htext
    obtain ⟨m, hm, rfl⟩ := List.mem_map.mp htext
    exact (h m hm).notMem (by decide) (by decide) (by decide)
  have hne : ∀ m : JsonMember, ∀ ms, [','].intercalate ((m :: ms).map JsonMember.render) ≠ [] := by
    intro m ms
    rw [intercalate_cons]
    simp [JsonMember.render_ne_nil]
  cases ms with
  | nil =>
      cases ms' with
      | nil => rfl
      | cons m' ms' => exact absurd heq.symm (hne m' ms')
  | cons m ms =>
      cases ms' with
      | nil => exact absurd heq (hne m ms)
      | cons m' ms' =>
          exact map_inj_on (fun x hx y hy => JsonMember.render_inj (h x hx) (h' y hy))
            (intercalate_inj (hcomma _ h) (hcomma _ h') (by simp) (by simp) heq)

theorem brace_notMem {first : ListMember} {rest : List ListMember}
    (h : (OptionList.legacy first rest).WellFormed) :
    '{' ∉ (OptionList.legacy first rest).render := by
  intro hmem
  rcases mem_intercalate hmem with hmem | ⟨part, hpart, hmem⟩
  · exact absurd hmem (by decide)
  · obtain ⟨m, hm, rfl⟩ := List.mem_map.mp hpart
    exact (h m hm).notMem (by decide) (by decide) hmem

theorem OptionList.render_inj {list list' : OptionList} (h : list.WellFormed)
    (h' : list'.WellFormed) (heq : list.render = list'.render) : list = list' := by
  cases list with
  | json shell ms =>
      cases list' with
      | json shell' ms' =>
          have hshell : shell = shell' := by
            cases shell <;> cases shell' <;>
              simp_all [OptionList.render, shellQuote]
          subst hshell
          simp only [OptionList.render, List.append_assoc, List.cons_append] at heq
          have hmembers := (List.cons.inj (List.append_cancel_left heq)).2
          rw [json_inj h h' (List.append_cancel_right hmembers)]
      | legacy first rest => exact absurd (heq ▸ by simp [OptionList.render]) (brace_notMem h')
  | legacy first rest =>
      cases list' with
      | json shell' ms' => exact absurd (heq ▸ by simp [OptionList.render]) (brace_notMem h)
      | legacy first' rest' =>
          have hcomma : ∀ {first rest}, (OptionList.legacy first rest).WellFormed →
              ∀ text ∈ (first :: rest).map ListMember.render, ',' ∉ text := by
            intro first rest h text htext
            obtain ⟨m, hm, rfl⟩ := List.mem_map.mp htext
            exact (h m hm).notMem (by decide) (by decide)
          have hlists := map_inj_on (fun x hx y hy => ListMember.render_inj (h x hx) (h' y hy))
            (intercalate_inj (hcomma h) (hcomma h') (by simp) (by simp) heq)
          obtain ⟨rfl, rfl⟩ := List.cons.inj hlists
          rfl

/-- A list has no space in it. -/
theorem OptionList.space_notMem {list : OptionList} (h : list.WellFormed) : ' ' ∉ list.render := by
  intro hmem
  cases list with
  | json shell ms =>
      have hin : ' ' ∈ [','].intercalate (ms.map JsonMember.render) := by
        cases shell <;> simpa [OptionList.render, shellQuote] using hmem
      rcases mem_intercalate hin with hmem | ⟨part, hpart, hmem⟩
      · exact absurd hmem (by decide)
      · obtain ⟨m, hm, rfl⟩ := List.mem_map.mp hpart
        exact (h m hm).notMem (by decide) (by decide) (by decide) hmem
  | legacy first rest =>
      rcases mem_intercalate hmem with hmem | ⟨part, hpart, hmem⟩
      · exact absurd hmem (by decide)
      · obtain ⟨m, hm, rfl⟩ := List.mem_map.mp hpart
        exact (h m hm).notMem (by decide) (by decide) hmem

/-- **A command line is read back from its text.** -/
theorem Argv.render_inj {argv argv' : Argv} (h : argv.WellFormed) (h' : argv'.WellFormed)
    (heq : argv.render = argv'.render) : argv = argv' := by
  have hrender : ∀ argv : Argv, argv.render =
      [' '].intercalate (argv.program :: argv.options.map OptionList.render) := by
    intro argv
    rw [intercalate_flatMap, List.flatMap_map]
    rfl
  have hspace : ∀ {argv : Argv}, argv.WellFormed →
      ∀ text ∈ argv.program :: argv.options.map OptionList.render, ' ' ∉ text := by
    intro argv h text htext
    rcases List.mem_cons.mp htext with rfl | htext
    · exact h.program.notMem (.inl (by decide))
    · obtain ⟨list, hlist, rfl⟩ := List.mem_map.mp htext
      exact OptionList.space_notMem (h.options list hlist)
  rw [hrender, hrender] at heq
  obtain ⟨hprogram, hoptions⟩ := List.cons.inj
    (intercalate_inj (hspace h) (hspace h') (by simp) (by simp) heq)
  have hlists := map_inj_on (fun x hx y hy => OptionList.render_inj (h.options x hx)
    (h'.options y hy)) hoptions
  cases argv
  cases argv'
  exact congr (congrArg Argv.mk hprogram) hlists

/-! ## Command lines that differ in numbers -/

/-- A number and nothing else. -/
def IsNumber (value : List Char) : Prop := value ≠ [] ∧ value.dropWhile isNumberChar = []

instance (value : List Char) : Decidable (IsNumber value) :=
  inferInstanceAs (Decidable (value ≠ [] ∧ value.dropWhile isNumberChar = []))

/-- How the values of descriptors may differ, quoted or not. -/
abbrev Differ : Type := Bool → List Char → List Char → Prop

/-- Both are numbers. -/
def numbersAlone : Differ := fun _ value value' => IsNumber value ∧ IsNumber value'

/-- Both begin with a number, and are otherwise the same; in quotes they are numbers. -/
def leadingNumbers : Differ
  | true, value, value' => IsNumber value ∧ IsNumber value'
  | false, value, value' => value.takeWhile isNumberChar ≠ [] ∧
      value'.takeWhile isNumberChar ≠ [] ∧
      value.dropWhile isNumberChar = value'.dropWhile isNumberChar

section Alike

variable (differ : Differ)

inductive JsonMember.Alike : JsonMember → JsonMember → Prop
  | refl (m : JsonMember) : Alike m m
  | differ {key : List Char} {quoted : Bool} {value value' : List Char}
      (hkey : key ∈ descriptorKeys) (h : differ quoted value value') :
      Alike ⟨key, quoted, value⟩ ⟨key, quoted, value'⟩

inductive ListMember.Alike : ListMember → ListMember → Prop
  | refl (m : ListMember) : Alike m m
  | differ {key value value' : List Char} (hkey : key ∈ descriptorKeys)
      (h : differ false value value') : Alike ⟨key, some value⟩ ⟨key, some value'⟩

inductive OptionList.Alike : OptionList → OptionList → Prop
  | json {shell : Bool} {ms ms' : List JsonMember}
      (h : List.Forall₂ (JsonMember.Alike differ) ms ms') : Alike (.json shell ms) (.json shell ms')
  | legacy {first first' : ListMember} {rest rest' : List ListMember}
      (hfirst : first.Alike differ first') (h : List.Forall₂ (ListMember.Alike differ) rest rest') :
      Alike (.legacy first rest) (.legacy first' rest')

/-- **Two command lines that differ in the values of descriptors**, and in nothing else. -/
structure Argv.Alike (argv argv' : Argv) : Prop where
  program : argv.program = argv'.program
  options : List.Forall₂ (OptionList.Alike differ) argv.options argv'.options

end Alike

/-- No value of a descriptor is, or begins like, one that was blanked. -/
def JsonMember.Unmarked (m : JsonMember) : Prop :=
  m.key ∈ descriptorKeys → if m.quoted then m.value ≠ ['#'] else m.value.head? ≠ some '#'

def ListMember.Unmarked (m : ListMember) : Prop :=
  m.key ∈ descriptorKeys → ∀ value, m.value = some value → value.head? ≠ some '#'

def OptionList.Unmarked : OptionList → Prop
  | .json _ ms => ∀ m ∈ ms, m.Unmarked
  | .legacy first rest => ∀ m ∈ first :: rest, m.Unmarked

def Argv.Unmarked (argv : Argv) : Prop := ∀ list ∈ argv.options, list.Unmarked

instance (m : JsonMember) : Decidable m.Unmarked :=
  inferInstanceAs (Decidable (m.key ∈ descriptorKeys →
    if m.quoted then m.value ≠ ['#'] else m.value.head? ≠ some '#'))

instance (m : ListMember) : Decidable m.Unmarked :=
  inferInstanceAs (Decidable (m.key ∈ descriptorKeys → ∀ value ∈ m.value, value.head? ≠ some '#'))

instance : (list : OptionList) → Decidable list.Unmarked
  | .json _ ms => inferInstanceAs (Decidable (∀ m ∈ ms, m.Unmarked))
  | .legacy first rest => inferInstanceAs (Decidable (∀ m ∈ first :: rest, m.Unmarked))

instance (argv : Argv) : Decidable argv.Unmarked :=
  inferInstanceAs (Decidable (∀ list ∈ argv.options, list.Unmarked))

theorem IsNumber.leading {value : List Char} (h : IsNumber value) :
    value.takeWhile isNumberChar ≠ [] := by
  intro hempty
  have hvalue := List.takeWhile_append_dropWhile (p := isNumberChar) (l := value)
  rw [hempty, h.2] at hvalue
  exact h.1 hvalue.symm

theorem numbersAlone.leading {quoted : Bool} {value value' : List Char}
    (h : numbersAlone quoted value value') : leadingNumbers quoted value value' := by
  cases quoted with
  | true => exact h
  | false => exact ⟨h.1.leading, h.2.leading, h.1.2.trans h.2.2.symm⟩

/-! ### What is blanked is what may differ -/

theorem blankNumber_eq {value value' : List Char} (h : leadingNumbers false value value') :
    blankNumber value = blankNumber value' := by
  rw [blankNumber, blankNumber, if_neg h.1, if_neg h.2.1, h.2.2]

theorem blankNumber_inj {value value' : List Char} (hmark : value.head? ≠ some '#')
    (hmark' : value'.head? ≠ some '#') (h : blankNumber value = blankNumber value') :
    value = value' ∨ leadingNumbers false value value' := by
  unfold blankNumber at h
  split_ifs at h with hempty hempty' hempty'
  · exact .inl h
  · rw [h] at hmark
    exact absurd rfl hmark
  · rw [← h] at hmark'
    exact absurd rfl hmark'
  · exact .inr ⟨hempty, hempty', (List.cons.inj h).2⟩

theorem blankQuoted_inj {value value' : List Char} (hmark : value ≠ ['#']) (hmark' : value' ≠ ['#'])
    (h : blankQuoted value = blankQuoted value') :
    value = value' ∨ leadingNumbers true value value' := by
  unfold blankQuoted at h
  split_ifs at h with hnumber hnumber' hnumber'
  · exact .inr ⟨hnumber, hnumber'⟩
  · exact absurd h.symm hmark'
  · exact absurd h hmark
  · exact .inl h

theorem JsonMember.Alike.blank_eq {m m' : JsonMember} (h : m.Alike leadingNumbers m') :
    m.blank = m'.blank := by
  cases h with
  | refl => rfl
  | @differ key quoted value value' hkey h =>
      rw [JsonMember.blank, JsonMember.blank, if_pos hkey, if_pos hkey]
      cases quoted with
      | true => simp [blankQuoted, show value ≠ [] ∧ _ from h.1, show value' ≠ [] ∧ _ from h.2]
      | false => simp [blankNumber_eq h]

theorem JsonMember.alike_of_blank {m m' : JsonMember} (hm : m.Unmarked) (hm' : m'.Unmarked)
    (h : m.blank = m'.blank) : m.Alike leadingNumbers m' := by
  obtain ⟨key, quoted, value⟩ := m
  obtain ⟨key', quoted', value'⟩ := m'
  obtain ⟨rfl, rfl⟩ : key = key' ∧ quoted = quoted' := by
    unfold JsonMember.blank at h
    split_ifs at h <;> simp_all
  by_cases hkey : key ∈ descriptorKeys
  · have hvalue : value = value' ∨ leadingNumbers quoted value value' := by
      rw [JsonMember.blank, JsonMember.blank, if_pos hkey, if_pos hkey] at h
      have hm := hm hkey
      have hm' := hm' hkey
      cases quoted with
      | true => exact blankQuoted_inj hm hm' (by simpa using h)
      | false => exact blankNumber_inj hm hm' (by simpa using h)
    rcases hvalue with rfl | hvalue
    · exact .refl _
    · exact .differ hkey hvalue
  · rw [JsonMember.blank, JsonMember.blank, if_neg hkey, if_neg hkey] at h
    rw [h]
    exact .refl _

theorem ListMember.Alike.blank_eq {m m' : ListMember} (h : m.Alike leadingNumbers m') :
    m.blank = m'.blank := by
  cases h with
  | refl => rfl
  | differ hkey h =>
      rw [ListMember.blank, ListMember.blank, if_pos hkey, if_pos hkey, Option.map_some,
        Option.map_some, blankNumber_eq h]

theorem ListMember.alike_of_blank {m m' : ListMember} (hm : m.Unmarked) (hm' : m'.Unmarked)
    (h : m.blank = m'.blank) : m.Alike leadingNumbers m' := by
  obtain ⟨key, value⟩ := m
  obtain ⟨key', value'⟩ := m'
  obtain rfl : key = key' := by
    unfold ListMember.blank at h
    split_ifs at h <;> simp_all
  by_cases hkey : key ∈ descriptorKeys
  · rw [ListMember.blank, ListMember.blank, if_pos hkey, if_pos hkey] at h
    have hvalue : value.map blankNumber = value'.map blankNumber := by simpa using h
    cases value with
    | none =>
        cases value' with
        | none => exact .refl _
        | some value' => cases hvalue
    | some value =>
        cases value' with
        | none => cases hvalue
        | some value' =>
            rcases blankNumber_inj (hm hkey _ rfl) (hm' hkey _ rfl) (Option.some.inj hvalue) with
              rfl | hvalue
            · exact .refl _
            · exact .differ hkey hvalue
  · rw [ListMember.blank, ListMember.blank, if_neg hkey, if_neg hkey] at h
    rw [h]
    exact .refl _

theorem OptionList.Alike.blank_eq {list list' : OptionList} (h : list.Alike leadingNumbers list') :
    list.blank = list'.blank := by
  cases h with
  | json h =>
      show OptionList.json _ _ = OptionList.json _ _
      rw [map_eq_of_forall₂ (fun _ _ hm => hm.blank_eq) h]
  | legacy hfirst h =>
      show OptionList.legacy _ _ = OptionList.legacy _ _
      rw [hfirst.blank_eq, map_eq_of_forall₂ (fun _ _ hm => hm.blank_eq) h]

theorem OptionList.alike_of_blank {list list' : OptionList} (hlist : list.Unmarked)
    (hlist' : list'.Unmarked) (h : list.blank = list'.blank) : list.Alike leadingNumbers list' := by
  cases list with
  | json shell ms =>
      cases list' with
      | json shell' ms' =>
          obtain ⟨rfl, hms⟩ := OptionList.json.inj h
          exact .json (forall₂_of_map_eq
            (fun m hm m' hm' => JsonMember.alike_of_blank (hlist m hm) (hlist' m' hm')) hms)
      | legacy first' rest' => cases h
  | legacy first rest =>
      cases list' with
      | json shell' ms' => cases h
      | legacy first' rest' =>
          obtain ⟨hfirst, hrest⟩ := OptionList.legacy.inj h
          refine .legacy (ListMember.alike_of_blank (hlist first List.mem_cons_self)
            (hlist' first' List.mem_cons_self) hfirst) (forall₂_of_map_eq (fun m hm m' hm' => ?_) hrest)
          exact ListMember.alike_of_blank (hlist m (List.mem_cons_of_mem _ hm))
            (hlist' m' (List.mem_cons_of_mem _ hm'))

/-- Command lines that differ in numbers are the same once these are blanked. -/
theorem Argv.Alike.blank_eq {argv argv' : Argv} (h : argv.Alike leadingNumbers argv') :
    argv.blank = argv'.blank := by
  show Argv.mk _ _ = Argv.mk _ _
  rw [h.program, map_eq_of_forall₂ (fun _ _ hlist => hlist.blank_eq) h.options]

/-- And command lines without a mark of their own differ in nothing else. -/
theorem Argv.alike_of_blank {argv argv' : Argv} (hargv : argv.Unmarked) (hargv' : argv'.Unmarked)
    (h : argv.blank = argv'.blank) : argv.Alike leadingNumbers argv' := by
  obtain ⟨hprogram, hoptions⟩ := Argv.mk.inj h
  exact ⟨hprogram, forall₂_of_map_eq (fun list hlist list' hlist' =>
    OptionList.alike_of_blank (hargv list hlist) (hargv' list' hlist')) hoptions⟩

theorem JsonMember.Alike.mono {differ differ' : Differ} {m m' : JsonMember}
    (hdiffer : ∀ quoted value value', differ quoted value value' → differ' quoted value value')
    (h : m.Alike differ m') : m.Alike differ' m' := by
  cases h with
  | refl => exact .refl _
  | differ hkey h => exact .differ hkey (hdiffer _ _ _ h)

theorem ListMember.Alike.mono {differ differ' : Differ} {m m' : ListMember}
    (hdiffer : ∀ quoted value value', differ quoted value value' → differ' quoted value value')
    (h : m.Alike differ m') : m.Alike differ' m' := by
  cases h with
  | refl => exact .refl _
  | differ hkey h => exact .differ hkey (hdiffer _ _ _ h)

theorem OptionList.Alike.mono {differ differ' : Differ} {list list' : OptionList}
    (hdiffer : ∀ quoted value value', differ quoted value value' → differ' quoted value value')
    (h : list.Alike differ list') : list.Alike differ' list' := by
  cases h with
  | json h => exact .json (h.imp fun _ _ hm => hm.mono hdiffer)
  | legacy hfirst h => exact .legacy (hfirst.mono hdiffer) (h.imp fun _ _ hm => hm.mono hdiffer)

theorem Argv.Alike.mono {differ differ' : Differ} {argv argv' : Argv}
    (hdiffer : ∀ quoted value value', differ quoted value value' → differ' quoted value value')
    (h : argv.Alike differ argv') : argv.Alike differ' argv' :=
  ⟨h.program, h.options.imp fun _ _ hlist => hlist.mono hdiffer⟩

/-- How the values of two such members compare. -/
theorem ListMember.Alike.value {differ : Differ} {key key' value value' : List Char}
    (h : ListMember.Alike differ ⟨key, some value⟩ ⟨key', some value'⟩) :
    value = value' ∨ differ false value value' := by
  cases h with
  | refl => exact .inl rfl
  | differ _ h => exact .inr h

/-! ### Blanked command lines are well-formed -/

theorem Plain.blankNumber {value : List Char} (h : Plain value) : Plain (blankNumber value) := by
  unfold Host.blankNumber
  split_ifs
  · exact h
  · intro c hc
    rcases List.mem_cons.mp hc with rfl | hc
    · decide
    · exact h c ((List.dropWhile_sublist _).mem hc)

theorem Plain.blankQuoted {value : List Char} (h : Plain value) : Plain (blankQuoted value) := by
  unfold Host.blankQuoted
  split_ifs
  · decide
  · exact h

theorem JsonMember.WellFormed.blank {m : JsonMember} (h : m.WellFormed) : m.blank.WellFormed := by
  unfold JsonMember.blank
  split_ifs
  · exact ⟨h.key, h.value.blankQuoted⟩
  · exact ⟨h.key, h.value.blankNumber⟩
  · exact h

theorem ListMember.WellFormed.blank {m : ListMember} (h : m.WellFormed) : m.blank.WellFormed := by
  unfold ListMember.blank
  split_ifs
  · refine ⟨h.key, h.key_eq, fun value hvalue => ?_, fun hvalue => ?_⟩
    · obtain ⟨value', hvalue', rfl⟩ := Option.map_eq_some_iff.mp hvalue
      exact (h.value value' hvalue').blankNumber
    · exact h.word (Option.map_eq_none_iff.mp hvalue)
  · exact h

theorem OptionList.WellFormed.blank {list : OptionList} (h : list.WellFormed) :
    list.blank.WellFormed := by
  cases list with
  | json shell ms =>
      intro m hm
      obtain ⟨m', hm', rfl⟩ := List.mem_map.mp hm
      exact (h m' hm').blank
  | legacy first rest =>
      intro m hm
      have hm : m ∈ (first :: rest).map ListMember.blank := hm
      obtain ⟨m', hm', rfl⟩ := List.mem_map.mp hm
      exact (h m' hm').blank

theorem Argv.WellFormed.blank {argv : Argv} (h : argv.WellFormed) : argv.blank.WellFormed := by
  refine ⟨h.program, fun list hlist => ?_⟩
  obtain ⟨list', hlist', rfl⟩ := List.mem_map.mp hlist
  exact (h.options list' hlist').blank

/-! ### Attested command lines -/

/-- **Two command lines have one text** when they differ in the numbers of descriptors. -/
theorem Argv.Alike.scrub_eq {argv argv' : Argv} (h : argv.WellFormed) (h' : argv'.WellFormed)
    (halike : argv.Alike leadingNumbers argv') :
    scrubDescriptorNumbers argv.render = scrubDescriptorNumbers argv'.render := by
  rw [scrub_argv h, scrub_argv h', halike.blank_eq]

/-- **And only then**, if none of them has a mark of its own. -/
theorem Argv.alike_of_scrub {argv argv' : Argv} (h : argv.WellFormed) (h' : argv'.WellFormed)
    (hargv : argv.Unmarked) (hargv' : argv'.Unmarked)
    (heq : scrubDescriptorNumbers argv.render = scrubDescriptorNumbers argv'.render) :
    argv.Alike leadingNumbers argv' := by
  rw [scrub_argv h, scrub_argv h'] at heq
  exact Argv.alike_of_blank hargv hargv' (Argv.render_inj h.blank h'.blank heq)

/-- **What is ignored on a command line, and what is not.** The requested sizes are removed from its
lists; command lines that differ in the numbers of descriptors become one text, and unless a value is
the mark itself only these do; nothing is left to scan for; and both scans end. -/
theorem attested_argv :
    (∀ argv : Argv, argv.WellFormed → argv.Distinct →
      (∀ list ∈ argv.options.dropLast, ¬list.OpenEnd) →
      scrubQemuArgv argv.render = argv.withoutRequested.render) ∧
    (∀ argv argv' : Argv, argv.WellFormed → argv'.WellFormed → argv.Alike numbersAlone argv' →
      scrubDescriptorNumbers argv.render = scrubDescriptorNumbers argv'.render) ∧
    (∀ argv argv' : Argv, argv.WellFormed → argv'.WellFormed → argv.Unmarked → argv'.Unmarked →
      (scrubDescriptorNumbers argv.render = scrubDescriptorNumbers argv'.render ↔
        argv.Alike leadingNumbers argv')) ∧
    (∀ text, scrubDescriptorNumbers (scrubDescriptorNumbers text) = scrubDescriptorNumbers text) ∧
    (∀ text, ∃ rounds ≤ text.length,
      requestedSizeSearch.loop.Ends rounds ⟨text, 0⟩ (scrubQemuArgv text)) ∧
    ∀ text, ∃ rounds ≤ text.length, descriptorScan.Ends rounds ([], text)
      (scrubDescriptorNumbers text) := by
  refine ⟨fun argv => scrubQemuArgv_render, ?_, ?_, scrubDescriptorNumbers_idem, ?_, ?_⟩
  · intro argv argv' h h' halike
    exact Argv.Alike.scrub_eq h h' (halike.mono fun _ _ _ => numbersAlone.leading)
  · intro argv argv' h h' hargv hargv'
    exact ⟨Argv.alike_of_scrub h h' hargv hargv', Argv.Alike.scrub_eq h h'⟩
  · intro text
    exact @Loop.ends _ _ requestedSizeSearch.loop ⟨text, 0⟩
  · intro text
    exact @Loop.ends _ _ descriptorScan ([], text)

/-- The command line of a domain with a memory device, and a network on a tap. -/
def tapArgv (requested : Option String) (fd : String) : Argv where
  program := "qemu".toList
  options :=
    [.legacy ⟨"-device".toList, none⟩ [],
      .json true (⟨"driver".toList, true, "virtio-mem-pci".toList⟩ ::
        (requested.toList.map fun size => ⟨requestedSizeKey, false, size.toList⟩)),
      .legacy ⟨"-netdev".toList, none⟩ [],
      .legacy ⟨"tap".toList, none⟩ [⟨"fd".toList, some fd.toList⟩]]

theorem tapArgv_alike : (tapArgv none "31").Alike numbersAlone (tapArgv none "7") :=
  ⟨rfl, .cons (.legacy (.refl _) .nil) (.cons (.json (.cons (.refl _) .nil))
    (.cons (.legacy (.refl _) .nil) (.cons (.legacy (.refl _)
      (.cons (.differ (by decide) ⟨by decide, by decide⟩) .nil)) .nil)))⟩

theorem tapArgv_attested :
    scrubQemuArgv (tapArgv (some "0") "31").render =
      (tapArgv (some "0") "31").withoutRequested.render ∧
    scrubDescriptorNumbers (tapArgv none "31").render =
      scrubDescriptorNumbers (tapArgv none "7").render ∧
    scrubDescriptorNumbers (tapArgv none "31").render ≠
      scrubDescriptorNumbers (tapArgv none "31x").render := by
  obtain ⟨hrequested, hsame, happart, -⟩ := attested_argv
  refine ⟨hrequested _ (by decide) (by decide) (by decide),
    hsame _ _ (by decide) (by decide) tapArgv_alike, fun heq => ?_⟩
  have halike := (happart _ _ (by decide) (by decide) (by decide) (by decide)).mp heq
  exact absurd halike.blank_eq (by decide)

/-- A list whose requested size has no value, and an option behind it. -/
def openArgv : Argv where
  program := "qemu".toList
  options := [.legacy ⟨"virtio-mem".toList, none⟩ [⟨requestedSizeKey, some []⟩],
    .legacy ⟨"-S".toList, none⟩ []]

/-- **Where the command line is not attested as its lists.** The space behind a requested size without
a value is taken for space before it, and the next option for the value; what follows the digits of a
bare number is not looked at; and the mark is a value like any other. -/
theorem argv_not_exact :
    (openArgv.WellFormed ∧ openArgv.Distinct ∧
      scrubQemuArgv openArgv.render ≠ openArgv.withoutRequested.render) ∧
    (¬(tapArgv none "3x").Alike numbersAlone (tapArgv none "4x") ∧
      scrubDescriptorNumbers (tapArgv none "3x").render =
        scrubDescriptorNumbers (tapArgv none "4x").render) ∧
    (¬(tapArgv none "#").Alike numbersAlone (tapArgv none "3") ∧
      scrubDescriptorNumbers (tapArgv none "#").render =
        scrubDescriptorNumbers (tapArgv none "3").render) := by
  have hdiffer : ∀ {fd fd' : String}, fd.toList ≠ fd'.toList → ¬IsNumber fd.toList →
      ¬(tapArgv none fd).Alike numbersAlone (tapArgv none fd') := by
    intro fd fd' hne hnumber halike
    obtain ⟨-, hoptions⟩ := halike
    simp only [tapArgv, List.forall₂_cons] at hoptions
    obtain ⟨-, -, -, htap, -⟩ := hoptions
    cases htap with
    | legacy _ hmembers =>
        cases hmembers with
        | cons hmember _ =>
            rcases hmember.value with heq | h
            · exact hne heq
            · exact hnumber h.1
  refine ⟨⟨by decide, by decide, by decide +kernel⟩, ⟨hdiffer (by decide) ?_, ?_⟩,
    ⟨hdiffer (by decide) ?_, ?_⟩⟩
  · decide
  · rw [scrub_argv (by decide), scrub_argv (by decide)]
    decide
  · decide
  · rw [scrub_argv (by decide), scrub_argv (by decide)]
    decide

end VirtioMem.Host
