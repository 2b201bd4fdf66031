import VirtioMem.Host.Argv

/-!
# Descriptors on the command line

The numbers of the descriptors that libvirt has open stand on the command line as the values of four
keys, in JSON objects and in comma-separated lists. `scrubDescriptorNumbers` reads the text from left to
right and replaces a number wherever one follows such a key.

Along the lists of a command line it blanks exactly the numbers (`scrub_argv`). A lead that was not
followed by a number is not followed by one in what was written either, and a number that was blanked
is none any more, so scanning twice changes nothing (`scrubDescriptorNumbers_idem`).
-/

namespace VirtioMem.Host

open VirtioMem.Scan VirtioMem.Text

/-! ## Scanning for descriptors -/

theorem descriptorScan_run (scrubbed rest : List Char) :
    descriptorScan.run (scrubbed, rest) = scrubbed ++ scrubDescriptorNumbers rest := by
  have hmap := @Loop.run_map _ _ _ _ descriptorScan descriptorScan
    (fun s => (scrubbed ++ s.1, s.2)) (scrubbed ++ ·) (fun s => by
      obtain ⟨written, rest⟩ := s
      cases rest with
      | nil => rfl
      | cons c rest =>
          show scanDescriptor (scrubbed ++ written, c :: rest) =
            (scanDescriptor (written, c :: rest)).map _ _
          simp only [scanDescriptor]
          split <;> simp) ([], rest)
  show _ = scrubbed ++ descriptorScan.run ([], rest)
  simpa using hmap

theorem scrubDescriptorNumbers_cons {c : Char} {rest : List Char}
    (h : descriptorNumber (c :: rest) = none) :
    scrubDescriptorNumbers (c :: rest) = c :: scrubDescriptorNumbers rest := by
  have hstep : descriptorScan.step ([], c :: rest) = .inr ([] ++ [c], rest) := by
    show scanDescriptor ([], c :: rest) = _
    simp only [scanDescriptor, h]
  exact (Loop.run_of_next hstep).trans (descriptorScan_run _ _)

theorem scrubDescriptorNumbers_number {rest lead after : List Char}
    (h : descriptorNumber rest = some (lead, after)) :
    scrubDescriptorNumbers rest = lead ++ '#' :: scrubDescriptorNumbers after := by
  cases rest with
  | nil => cases h
  | cons c rest =>
      have hstep : descriptorScan.step ([], c :: rest) = .inr ([] ++ lead ++ ['#'], after) := by
        show scanDescriptor ([], c :: rest) = _
        simp only [scanDescriptor, h]
      rw [show scrubDescriptorNumbers (c :: rest) = descriptorScan.run ([], c :: rest) from rfl,
        Loop.run_of_next hstep, descriptorScan_run]
      simp

theorem descriptorNumber_eq_none {rest : List Char}
    (h : ∀ key ∈ descriptorKeys, ∀ lead ∈ descriptorLeads key, numberBehind rest lead = none) :
    descriptorNumber rest = none := by
  refine List.findSome?_eq_none_iff.mpr fun lead hlead => ?_
  obtain ⟨key, hkey, hlead⟩ := List.mem_flatMap.mp hlead
  exact h key hkey lead hlead

theorem mem_descriptorLeads {key : List Char} {lead : List Char × Bool} :
    lead ∈ descriptorLeads key ↔ lead = ('"' :: key ++ ['"', ':', '"'], true) ∨
      lead = ('"' :: key ++ ['"', ':'], false) ∨ lead = (',' :: key ++ ['='], false) ∨
      lead = (' ' :: key ++ ['='], false) := by
  simp [descriptorLeads]

/-- What may begin a lead is passed over too, where no key follows. -/
theorem scrub_miss {c : Char} {rest : List Char}
    (hquote : c = '"' → ∀ key ∈ descriptorKeys, ¬key ++ ['"', ':'] <+: rest)
    (hlist : c = ',' ∨ c = ' ' → ∀ key ∈ descriptorKeys, ¬key ++ ['='] <+: rest) :
    scrubDescriptorNumbers (c :: rest) = c :: scrubDescriptorNumbers rest := by
  refine scrubDescriptorNumbers_cons (descriptorNumber_eq_none fun key hkey lead hlead => ?_)
  rcases mem_descriptorLeads.mp hlead with rfl | rfl | rfl | rfl
  all_goals refine numberBehind_of_no_lead fun hbegins => ?_
  all_goals obtain ⟨hc, hbegins⟩ := List.cons_prefix_cons.mp hbegins
  · refine hquote hc.symm key hkey (List.IsPrefix.trans ?_ hbegins)
    exact ⟨['"'], by simp⟩
  · exact hquote hc.symm key hkey hbegins
  · exact hlist (.inl hc.symm) key hkey hbegins
  · exact hlist (.inr hc.symm) key hkey hbegins

/-- A piece in which no lead begins is passed over. -/
theorem scrub_pass {piece rest : List Char} (h : ∀ c ∈ piece, c ≠ '"' ∧ c ≠ ',' ∧ c ≠ ' ') :
    scrubDescriptorNumbers (piece ++ rest) = piece ++ scrubDescriptorNumbers rest := by
  induction piece with
  | nil => rfl
  | cons c piece ih =>
      obtain ⟨hquote, hcomma, hspace⟩ := h c List.mem_cons_self
      rw [List.cons_append, List.cons_append, ← ih fun d hd => h d (List.mem_cons_of_mem _ hd)]
      exact scrub_miss (fun hc => absurd hc hquote) fun hc => absurd hc (by simp [hcomma, hspace])

theorem Plain.pass {piece rest : List Char} (h : Plain piece) :
    scrubDescriptorNumbers (piece ++ rest) = piece ++ scrubDescriptorNumbers rest := by
  refine scrub_pass fun c hc => ?_
  obtain ⟨hseparator, hquote⟩ := h c hc
  refine ⟨?_, ?_, ?_⟩ <;> rintro rfl
  · exact absurd hquote (by decide)
  · exact absurd hseparator (by decide)
  · exact absurd hseparator (by decide)

/-! ### Where a number begins -/

/-- Only the leads of one key count, if no other begins here. -/
theorem descriptorNumber_of_key {key rest : List Char} (hkey : key ∈ descriptorKeys)
    (h : ∀ other ∈ descriptorKeys, other ≠ key → ∀ lead ∈ descriptorLeads other,
      numberBehind rest lead = none) :
    descriptorNumber rest = (descriptorLeads key).findSome? (numberBehind rest) := by
  have hall : ∀ keys : List (List Char), (∀ other ∈ keys, other ≠ key →
      ∀ lead ∈ descriptorLeads other, numberBehind rest lead = none) →
      (keys.flatMap descriptorLeads).findSome? (numberBehind rest) =
        if key ∈ keys then (descriptorLeads key).findSome? (numberBehind rest) else none := by
    intro keys hkeys
    induction keys with
    | nil => rfl
    | cons other keys ih =>
        rw [List.flatMap_cons, List.findSome?_append,
          ih fun other hother => hkeys other (List.mem_cons_of_mem _ hother)]
        by_cases hother : other = key
        · subst hother
          cases (descriptorLeads other).findSome? (numberBehind rest) <;> simp
        · have hnone := List.findSome?_eq_none_iff.mpr (hkeys other List.mem_cons_self hother)
          rw [hnone]
          simp [Ne.symm hother]
  rw [descriptorNumber, hall _ h, if_pos hkey]

theorem descriptorKeys_free {key : List Char} (h : key ∈ descriptorKeys) : '"' ∉ key ∧ '=' ∉ key := by
  have hall : ∀ key ∈ descriptorKeys, '"' ∉ key ∧ '=' ∉ key := by decide
  exact hall key h

section Numbers

variable {key body : List Char}

/-- No other key is quoted here. -/
theorem other_quoted {rest : List Char} (hkey : '"' ∉ key) {other : List Char}
    (hother : other ∈ descriptorKeys) (hne : other ≠ key) {lead : List Char × Bool}
    (hlead : lead ∈ descriptorLeads other) : numberBehind ('"' :: (key ++ '"' :: rest)) lead = none := by
  have hnot : ∀ more, ¬other ++ '"' :: more <+: key ++ '"' :: rest := by
    intro more hbegins
    refine hne (eq_of_delimited (descriptorKeys_free hother).1 hkey (List.IsPrefix.trans ?_ hbegins))
    exact ⟨more, by simp⟩
  rcases mem_descriptorLeads.mp hlead with rfl | rfl | rfl | rfl
  all_goals refine numberBehind_of_no_lead fun hbegins => ?_
  all_goals obtain ⟨hc, hbegins⟩ := List.cons_prefix_cons.mp hbegins
  · exact hnot _ (by simpa using hbegins)
  · exact hnot _ (by simpa using hbegins)
  · exact absurd hc (by decide)
  · exact absurd hc (by decide)

/-- No other key stands here in a list. -/
theorem other_listed {separator : Char} {rest : List Char} (hseparator : separator ≠ '"')
    (hkey : '=' ∉ key) {other : List Char} (hother : other ∈ descriptorKeys) (hne : other ≠ key)
    {lead : List Char × Bool} (hlead : lead ∈ descriptorLeads other) :
    numberBehind (separator :: (key ++ '=' :: rest)) lead = none := by
  have hnot : ¬other ++ ['='] <+: key ++ '=' :: rest := fun hbegins =>
    hne (eq_of_delimited (descriptorKeys_free hother).2 hkey hbegins)
  rcases mem_descriptorLeads.mp hlead with rfl | rfl | rfl | rfl
  all_goals refine numberBehind_of_no_lead fun hbegins => ?_
  all_goals obtain ⟨hc, hbegins⟩ := List.cons_prefix_cons.mp hbegins
  · exact hseparator hc.symm
  · exact hseparator hc.symm
  · exact hnot hbegins
  · exact hnot hbegins

/-- Behind a key in quotes a number is quoted too, and closed. -/
theorem descriptorNumber_quoted (hkey : key ∈ descriptorKeys) :
    descriptorNumber ('"' :: (key ++ '"' :: ':' :: '"' :: body)) =
      if body.takeWhile isNumberChar ≠ [] ∧ (body.dropWhile isNumberChar).head? = some '"' then
        some ('"' :: key ++ ['"', ':', '"'], body.dropWhile isNumberChar) else none := by
  rw [descriptorNumber_of_key hkey fun other hother hne lead hlead =>
    other_quoted (descriptorKeys_free hkey).1 hother hne hlead]
  have hquoted : numberBehind ('"' :: (key ++ '"' :: ':' :: '"' :: body))
      ('"' :: key ++ ['"', ':', '"'], true) =
        if body.takeWhile isNumberChar ≠ [] ∧ (body.dropWhile isNumberChar).head? = some '"' then
          some ('"' :: key ++ ['"', ':', '"'], body.dropWhile isNumberChar) else none := by
    have h := @numberBehind_append ('"' :: key ++ ['"', ':', '"']) body true
    simpa only [List.cons_append, List.append_assoc, List.nil_append, forall_const] using h
  have hbare : numberBehind ('"' :: (key ++ '"' :: ':' :: '"' :: body))
      ('"' :: key ++ ['"', ':'], false) = none := by
    have h := @numberBehind_append ('"' :: key ++ ['"', ':']) ('"' :: body) false
    have hquote : isNumberChar '"' = false := by decide
    rw [List.takeWhile_cons_of_neg (by simp [hquote]), if_neg (by simp)] at h
    simpa only [List.cons_append, List.append_assoc, List.nil_append] using h
  have hlisted : ∀ {separator : Char}, separator ≠ '"' →
      numberBehind ('"' :: (key ++ '"' :: ':' :: '"' :: body)) (separator :: key ++ ['='], false) =
        none := fun hseparator => numberBehind_of_no_lead fun hbegins =>
          hseparator (List.cons_prefix_cons.mp hbegins).1
  simp only [descriptorLeads, List.findSome?_cons, hquoted, hbare, hlisted (show ',' ≠ '"' by decide),
    hlisted (show ' ' ≠ '"' by decide), List.findSome?_nil]
  split_ifs <;> rfl

/-- A bare value begins with its number. -/
theorem descriptorNumber_bare (hkey : key ∈ descriptorKeys) (hbody : body.head? ≠ some '"') :
    descriptorNumber ('"' :: (key ++ '"' :: ':' :: body)) =
      if body.takeWhile isNumberChar ≠ [] then
        some ('"' :: key ++ ['"', ':'], body.dropWhile isNumberChar) else none := by
  rw [descriptorNumber_of_key hkey fun other hother hne lead hlead =>
    other_quoted (descriptorKeys_free hkey).1 hother hne hlead]
  have hquoted : numberBehind ('"' :: (key ++ '"' :: ':' :: body))
      ('"' :: key ++ ['"', ':', '"'], true) = none := by
    refine numberBehind_of_no_lead fun hbegins => hbody ?_
    have hbegins' : key ++ (['"', ':'] ++ ['"']) <+: key ++ (['"', ':'] ++ body) := by
      simpa using hbegins
    rw [List.prefix_append_right_inj, List.prefix_append_right_inj] at hbegins'
    obtain ⟨rest, rfl⟩ := hbegins'
    rfl
  have hbare : numberBehind ('"' :: (key ++ '"' :: ':' :: body)) ('"' :: key ++ ['"', ':'], false) =
      if body.takeWhile isNumberChar ≠ [] then
        some ('"' :: key ++ ['"', ':'], body.dropWhile isNumberChar) else none := by
    have h := @numberBehind_append ('"' :: key ++ ['"', ':']) body false
    simpa only [List.cons_append, List.append_assoc, List.nil_append, Bool.false_eq_true,
      false_imp_iff, and_true] using h
  have hlisted : ∀ {separator : Char}, separator ≠ '"' →
      numberBehind ('"' :: (key ++ '"' :: ':' :: body)) (separator :: key ++ ['='], false) = none :=
    fun hseparator => numberBehind_of_no_lead fun hbegins =>
      hseparator (List.cons_prefix_cons.mp hbegins).1
  simp only [descriptorLeads, List.findSome?_cons, hquoted, hbare, hlisted (show ',' ≠ '"' by decide),
    hlisted (show ' ' ≠ '"' by decide), List.findSome?_nil]
  split_ifs <;> rfl

/-- And so does one in a list. -/
theorem descriptorNumber_listed {separator : Char} (hkey : key ∈ descriptorKeys)
    (hseparator : separator = ',' ∨ separator = ' ') :
    descriptorNumber (separator :: (key ++ '=' :: body)) =
      if body.takeWhile isNumberChar ≠ [] then
        some (separator :: key ++ ['='], body.dropWhile isNumberChar) else none := by
  have hquote : separator ≠ '"' := by rcases hseparator with rfl | rfl <;> decide
  rw [descriptorNumber_of_key hkey fun other hother hne lead hlead =>
    other_listed hquote (descriptorKeys_free hkey).2 hother hne hlead]
  have hlisted : numberBehind (separator :: (key ++ '=' :: body)) (separator :: key ++ ['='], false) =
      if body.takeWhile isNumberChar ≠ [] then
        some (separator :: key ++ ['='], body.dropWhile isNumberChar) else none := by
    have h := @numberBehind_append (separator :: key ++ ['=']) body false
    simpa only [List.cons_append, List.append_assoc, List.nil_append, Bool.false_eq_true,
      false_imp_iff, and_true] using h
  have hother : ∀ {c : Char} {more : List Char} {quoted : Bool}, c ≠ separator →
      numberBehind (separator :: (key ++ '=' :: body)) (c :: more, quoted) = none :=
    fun hc => numberBehind_of_no_lead fun hbegins => hc (List.cons_prefix_cons.mp hbegins).1
  rcases hseparator with rfl | rfl
  · simp only [descriptorLeads, List.cons_append, List.findSome?_cons,
      hother (show '"' ≠ ',' by decide), hother (show ' ' ≠ ',' by decide), List.findSome?_nil] at hlisted ⊢
    rw [hlisted]
    split_ifs <;> rfl
  · simp only [descriptorLeads, List.cons_append, List.findSome?_cons,
      hother (show '"' ≠ ' ' by decide), hother (show ',' ≠ ' ' by decide), List.findSome?_nil] at hlisted ⊢
    rw [hlisted]
    split_ifs <;> rfl

end Numbers

/-! ## Numbers in the lists of a command line -/

/-- A value with the number it begins with blanked. -/
def blankNumber (value : List Char) : List Char :=
  if value.takeWhile isNumberChar = [] then value else '#' :: value.dropWhile isNumberChar

/-- A quoted value is blanked as a whole, or not at all. -/
def blankQuoted (value : List Char) : List Char :=
  if value ≠ [] ∧ value.dropWhile isNumberChar = [] then ['#'] else value

def JsonMember.blank (m : JsonMember) : JsonMember :=
  if m.key ∈ descriptorKeys then
    { m with value := if m.quoted then blankQuoted m.value else blankNumber m.value }
  else m

def ListMember.blank (m : ListMember) : ListMember :=
  if m.key ∈ descriptorKeys then { m with value := m.value.map blankNumber } else m

def OptionList.blank : OptionList → OptionList
  | .json shell members => .json shell (members.map JsonMember.blank)
  | .legacy first rest => .legacy first.blank (rest.map ListMember.blank)

def Argv.blank (argv : Argv) : Argv := { argv with options := argv.options.map OptionList.blank }

theorem takeWhile_append_of_head {p : Char → Bool} {piece rest : List Char}
    (hrest : ∀ c, rest.head? = some c → p c = false) :
    (piece ++ rest).takeWhile p = piece.takeWhile p ∧
      (piece ++ rest).dropWhile p = piece.dropWhile p ++ rest := by
  induction piece with
  | nil =>
      cases rest with
      | nil => exact ⟨rfl, rfl⟩
      | cons c rest => simp [hrest c rfl]
  | cons c piece ih =>
      cases hc : p c with
      | false => simp [hc]
      | true => simp [hc, ih]

/-- No key begins with anything but a letter of its own. -/
theorem not_key_prefix {c : Char} {more rest : List Char} (hc : c ≠ 'f' ∧ c ≠ 'v') :
    ∀ key ∈ descriptorKeys, ¬key ++ more <+: c :: rest := by
  intro key hkey hbegins
  have hhead : ∀ key ∈ descriptorKeys, ∃ rest, key = 'f' :: rest ∨ key = 'v' :: rest := by
    intro key hkey
    simp only [descriptorKeys, List.mem_cons, List.not_mem_nil, or_false] at hkey
    rcases hkey with rfl | rfl | rfl | rfl
    exacts [⟨_, .inl rfl⟩, ⟨_, .inr rfl⟩, ⟨_, .inl rfl⟩, ⟨_, .inr rfl⟩]
  obtain ⟨tail, rfl | rfl⟩ := hhead key hkey
  · exact hc.1 (List.cons_prefix_cons.mp hbegins).1.symm
  · exact hc.2 (List.cons_prefix_cons.mp hbegins).1.symm

/-- What cannot be followed by a key is passed over. -/
theorem scrub_before {c d : Char} {rest : List Char} (hd : d ≠ 'f' ∧ d ≠ 'v') :
    scrubDescriptorNumbers (c :: d :: rest) = c :: scrubDescriptorNumbers (d :: rest) :=
  scrub_miss (fun _ => not_key_prefix hd) fun _ => not_key_prefix hd

section Members

variable {rest : List Char} {m : JsonMember}

/-- What a JSON member is followed by. -/
def EndsMember (rest : List Char) : Prop := ∃ c more, rest = c :: more ∧ (c = ',' ∨ c = '}')

theorem EndsMember.head (h : EndsMember rest) : ∃ c more, rest = c :: more ∧
    c ≠ ':' ∧ (c ≠ 'f' ∧ c ≠ 'v') ∧ isNumberChar c = false := by
  obtain ⟨c, more, rfl, rfl | rfl⟩ := h
  · exact ⟨_, _, rfl, by decide⟩
  · exact ⟨_, _, rfl, by decide⟩

/-- A closing quote is passed over. -/
theorem scrub_closing (h : EndsMember rest) :
    scrubDescriptorNumbers ('"' :: rest) = '"' :: scrubDescriptorNumbers rest := by
  obtain ⟨c, more, rfl, -, hc, -⟩ := h.head
  exact scrub_before hc

/-- A value alone is passed over. -/
theorem scrub_value (h : m.WellFormed) (hrest : EndsMember rest) :
    scrubDescriptorNumbers (m.renderValue ++ rest) = m.renderValue ++ scrubDescriptorNumbers rest := by
  unfold JsonMember.renderValue
  split_ifs
  · obtain ⟨c, more, hc, hcolon, -⟩ := hrest.head
    have hquote : '"' ∉ m.value := fun hmem => absurd (h.value _ hmem).2 (by decide)
    have hopening : ∀ key ∈ descriptorKeys, ¬key ++ ['"', ':'] <+: m.value ++ '"' :: rest := by
      intro key hkey hbegins
      have hvalue : key = m.value := eq_of_delimited (descriptorKeys_free hkey).1 hquote
        (List.IsPrefix.trans ⟨[':'], by simp⟩ hbegins)
      rw [hvalue, List.prefix_append_right_inj, hc] at hbegins
      exact hcolon (List.cons_prefix_cons.mp (List.cons_prefix_cons.mp hbegins).2).1.symm
    rw [show '"' :: m.value ++ ['"'] ++ rest = '"' :: (m.value ++ '"' :: rest) by simp,
      scrub_miss (fun _ => hopening) (by simp), h.value.pass, scrub_closing hrest]
    simp
  · exact h.value.pass

/-- What follows the first quote of a member is passed over, if its number is not. -/
theorem scrub_behind (h : m.WellFormed) (hrest : EndsMember rest) :
    scrubDescriptorNumbers (m.key ++ '"' :: ':' :: (m.renderValue ++ rest)) =
      m.key ++ '"' :: ':' :: (m.renderValue ++ scrubDescriptorNumbers rest) := by
  rw [h.key.pass, scrub_before (by decide), scrub_miss (by simp) (by simp), scrub_value h hrest]

theorem JsonMember.render_append {rest : List Char} :
    m.render ++ rest = '"' :: (m.key ++ '"' :: ':' :: (m.renderValue ++ rest)) := by
  simp [JsonMember.render]

theorem JsonMember.WellFormed.unquoted (h : m.WellFormed) : '"' ∉ m.value :=
  fun hmem => absurd (h.value _ hmem).2 (by decide)

/-- A quoted value is closed behind its number if it is nothing else. -/
theorem closed_iff {value : List Char} (hquote : '"' ∉ value) :
    (value.takeWhile isNumberChar ≠ [] ∧
      (value.dropWhile isNumberChar ++ '"' :: rest).head? = some '"') ↔
    value ≠ [] ∧ value.dropWhile isNumberChar = [] := by
  have hvalue := List.takeWhile_append_dropWhile (p := isNumberChar) (l := value)
  cases hdrop : value.dropWhile isNumberChar with
  | nil =>
      rw [hdrop, List.append_nil] at hvalue
      simp [hvalue]
  | cons c more =>
      have hc : c ∈ value := by
        rw [← hvalue, hdrop]
        simp
      simp only [List.cons_append, List.head?_cons, Option.some.injEq, reduceCtorEq, and_false,
        iff_false, not_and]
      rintro - rfl
      exact hquote hc

/-- **A member of an object.** -/
theorem scrub_jsonMember (h : m.WellFormed) (hrest : EndsMember rest) :
    scrubDescriptorNumbers (m.render ++ rest) = m.blank.render ++ scrubDescriptorNumbers rest := by
  rw [JsonMember.render_append, JsonMember.render_append]
  by_cases hkey : m.key ∈ descriptorKeys
  · rw [JsonMember.blank, if_pos hkey]
    cases hquoted : m.quoted with
    | true =>
        have hbody := @takeWhile_append_of_head isNumberChar m.value ('"' :: rest) (by simp; decide)
        have hnumber := @descriptorNumber_quoted _ (m.value ++ '"' :: rest) hkey
        rw [hbody.1, hbody.2] at hnumber
        simp only [closed_iff h.unquoted] at hnumber
        -- A quoted number is blanked only if it is the whole text between the quotes.
        by_cases hclosed : m.value ≠ [] ∧ m.value.dropWhile isNumberChar = []
        · rw [if_pos hclosed, hclosed.2] at hnumber
          have hscrub := scrubDescriptorNumbers_number hnumber
          rw [List.nil_append, scrub_closing hrest] at hscrub
          simp only [JsonMember.renderValue, hquoted, if_true, blankQuoted, if_pos hclosed]
          simpa using hscrub
        · rw [if_neg hclosed] at hnumber
          have hbehind := scrub_behind h hrest
          have hscrub := scrubDescriptorNumbers_cons hnumber
          simp only [JsonMember.renderValue, hquoted, if_true, blankQuoted, if_neg hclosed] at hbehind ⊢
          rw [← hbehind]
          simpa using hscrub
    | false =>
        obtain ⟨c, more, rfl, -, -, hc⟩ := hrest.head
        have hbody := @takeWhile_append_of_head isNumberChar m.value (c :: more) (by simp [hc])
        have hhead : (m.value ++ c :: more).head? ≠ some '"' := by
          cases hvalue : m.value with
          | nil =>
              obtain ⟨d, more', hd, hc⟩ := hrest
              cases hd
              rcases hc with rfl | rfl <;> simp
          | cons d value =>
              rintro hd
              cases hd
              exact h.unquoted (hvalue ▸ List.mem_cons_self)
        have hnumber := descriptorNumber_bare hkey hhead
        rw [hbody.1, hbody.2] at hnumber
        -- An unquoted number may have more behind it, which stays.
        by_cases hempty : m.value.takeWhile isNumberChar = []
        · rw [if_neg (not_not_intro hempty)] at hnumber
          have hbehind := scrub_behind h hrest
          have hscrub := scrubDescriptorNumbers_cons hnumber
          simp only [JsonMember.renderValue, hquoted, Bool.false_eq_true, if_false, blankNumber,
            if_pos hempty] at hbehind ⊢
          rw [hscrub, hbehind]
        · rw [if_pos hempty] at hnumber
          have hscrub := scrubDescriptorNumbers_number hnumber
          have hplain : Plain (m.value.dropWhile isNumberChar) := fun d hd =>
            h.value d ((List.dropWhile_suffix _).subset hd)
          rw [hplain.pass] at hscrub
          simp only [JsonMember.renderValue, hquoted, Bool.false_eq_true, if_false, blankNumber,
            if_neg hempty]
          simpa using hscrub
  · -- Another key: no lead begins inside the member.
    rw [JsonMember.blank, if_neg hkey, ← scrub_behind h hrest]
    refine scrub_miss (fun _ key hmem hbegins => hkey ?_) (by simp)
    rwa [eq_of_delimited (descriptorKeys_free hmem).1 (fun hquote => absurd (h.key _ hquote).2
      (by decide)) (List.IsPrefix.trans ⟨[':'], by simp⟩ hbegins)] at hmem

end Members

section Lists

variable {rest : List Char}

/-- What a member of a list is followed by. -/
def EndsListed (rest : List Char) : Prop := ∀ c, rest.head? = some c → c = ',' ∨ c = ' '

theorem EndsListed.not_number (h : EndsListed rest) :
    ∀ c, rest.head? = some c → isNumberChar c = false := by
  intro c hc
  rcases h c hc with rfl | rfl <;> decide

theorem endsListed_members {ms : List ListMember} (h : EndsListed rest) :
    EndsListed (members ListMember.render ms ++ rest) := by
  cases ms with
  | nil => exact h
  | cons m ms =>
      rw [members_cons]
      exact fun c hc => .inl (Option.some.inj hc).symm

/-- **A member of a comma-separated list**, behind its separator. -/
theorem scrub_listMember {m : ListMember} {separator : Char} (h : m.WellFormed)
    (hseparator : separator = ',' ∨ separator = ' ') (hrest : EndsListed rest) :
    scrubDescriptorNumbers (separator :: (m.render ++ rest)) =
      separator :: (m.blank.render ++ scrubDescriptorNumbers rest) := by
  have hquote : separator ≠ '"' := by rcases hseparator with rfl | rfl <;> decide
  cases hvalue : m.value with
  | none =>
      have hblank : m.blank = m := by
        unfold ListMember.blank
        split_ifs
        · rw [hvalue, Option.map_none, ← hvalue]
        · rfl
      have hmiss : ∀ key ∈ descriptorKeys, ¬key ++ ['='] <+: m.key ++ rest := by
        intro key hkey hbegins
        have hin : key ++ ['='] <+: m.key := by
          cases rest with
          | nil => rwa [List.append_nil] at hbegins
          | cons c rest =>
              refine prefix_of_delimited (d := c) ?_ hbegins
              have hfree : ∀ key ∈ descriptorKeys, ',' ∉ key ++ ['='] ∧ ' ' ∉ key ++ ['='] := by decide
              rcases hrest c rfl with rfl | rfl
              · exact (hfree key hkey).1
              · exact (hfree key hkey).2
        exact h.key_eq (hin.subset (by simp))
      rw [hblank, ListMember.render, hvalue, List.append_nil,
        scrub_miss (fun hc => absurd hc hquote) fun _ => hmiss, h.key.pass]
  | some value =>
      have hplain := h.value value hvalue
      have hrender : m.render ++ rest = m.key ++ '=' :: (value ++ rest) := by
        simp [ListMember.render, hvalue]
      have hbehind : scrubDescriptorNumbers (m.key ++ '=' :: (value ++ rest)) =
          m.key ++ '=' :: (value ++ scrubDescriptorNumbers rest) := by
        rw [h.key.pass, scrub_miss (by simp) (by simp), hplain.pass]
      rw [hrender]
      by_cases hkey : m.key ∈ descriptorKeys
      · have hbody := @takeWhile_append_of_head _ value _ hrest.not_number
        have hnumber := @descriptorNumber_listed _ (value ++ rest) _ hkey hseparator
        rw [hbody.1, hbody.2] at hnumber
        by_cases hempty : value.takeWhile isNumberChar = []
        · rw [if_neg (not_not_intro hempty)] at hnumber
          rw [scrubDescriptorNumbers_cons hnumber, hbehind]
          simp [ListMember.blank, hkey, ListMember.render, hvalue, blankNumber, hempty]
        · rw [if_pos hempty] at hnumber
          have hafter : Plain (value.dropWhile isNumberChar) := fun d hd =>
            hplain d ((List.dropWhile_suffix _).subset hd)
          rw [scrubDescriptorNumbers_number hnumber, hafter.pass]
          simp [ListMember.blank, hkey, ListMember.render, hvalue, blankNumber, hempty]
      · have hmiss : ∀ key ∈ descriptorKeys, ¬key ++ ['='] <+: m.key ++ '=' :: (value ++ rest) :=
          fun key hmem hbegins => hkey
            (eq_of_delimited (descriptorKeys_free hmem).2 h.key_eq hbegins ▸ hmem)
        rw [scrub_miss (fun hc => absurd hc hquote) fun _ => hmiss, hbehind]
        simp [ListMember.blank, hkey, ListMember.render, hvalue]

/-- The members of an object behind its first. -/
theorem scrub_jsonMembers {ms : List JsonMember} (h : ∀ m ∈ ms, m.WellFormed) :
    scrubDescriptorNumbers (members JsonMember.render ms ++ '}' :: rest) =
      members JsonMember.render (ms.map JsonMember.blank) ++ scrubDescriptorNumbers ('}' :: rest) := by
  induction ms with
  | nil => rfl
  | cons m ms ih =>
      have hends : EndsMember (members JsonMember.render ms ++ '}' :: rest) := by
        cases ms with
        | nil => exact ⟨'}', rest, rfl, .inr rfl⟩
        | cons next ms => exact ⟨',', _, members_cons, .inl rfl⟩
      rw [members_cons, List.map_cons, members_cons,
        ← ih fun other hother => h other (List.mem_cons_of_mem _ hother),
        ← scrub_jsonMember (h m List.mem_cons_self) hends, JsonMember.render_append,
        scrub_before (by decide)]

/-- All members of an object. -/
theorem scrub_json {ms : List JsonMember} (h : ∀ m ∈ ms, m.WellFormed) :
    scrubDescriptorNumbers ([','].intercalate (ms.map JsonMember.render) ++ '}' :: rest) =
      [','].intercalate ((ms.map JsonMember.blank).map JsonMember.render) ++
        scrubDescriptorNumbers ('}' :: rest) := by
  cases ms with
  | nil => rfl
  | cons m ms =>
      have hends : EndsMember (members JsonMember.render ms ++ '}' :: rest) := by
        cases ms with
        | nil => exact ⟨'}', rest, rfl, .inr rfl⟩
        | cons next ms => exact ⟨',', _, members_cons, .inl rfl⟩
      rw [intercalate_cons, List.map_cons, intercalate_cons, List.append_assoc,
        scrub_jsonMember (h m List.mem_cons_self) hends,
        scrub_jsonMembers fun other hother => h other (List.mem_cons_of_mem _ hother),
        List.append_assoc]

/-- The members of a comma-separated list behind its first. -/
theorem scrub_listMembers {ms : List ListMember} (h : ∀ m ∈ ms, m.WellFormed)
    (hrest : EndsListed rest) :
    scrubDescriptorNumbers (members ListMember.render ms ++ rest) =
      members ListMember.render (ms.map ListMember.blank) ++ scrubDescriptorNumbers rest := by
  induction ms with
  | nil => rfl
  | cons m ms ih =>
      rw [members_cons, List.map_cons, members_cons,
        ← ih fun other hother => h other (List.mem_cons_of_mem _ hother)]
      exact scrub_listMember (h m List.mem_cons_self) (.inl rfl) (endsListed_members hrest)

theorem scrub_shellQuote {shell : Bool} :
    scrubDescriptorNumbers (shellQuote shell ++ rest) =
      shellQuote shell ++ scrubDescriptorNumbers rest := by
  refine scrub_pass fun c hc => ?_
  cases shell with
  | false => cases hc
  | true =>
      rw [List.mem_singleton.mp hc]
      decide

/-- **One list**, behind a space. -/
theorem scrub_optionList {list : OptionList} (h : list.WellFormed)
    (hrest : ∀ c, rest.head? = some c → c = ' ') :
    scrubDescriptorNumbers (' ' :: (list.render ++ rest)) =
      ' ' :: (list.blank.render ++ scrubDescriptorNumbers rest) := by
  cases list with
  | json shell ms =>
      have hrender : ∀ ms rest, (OptionList.json shell ms).render ++ rest = shellQuote shell ++
          '{' :: ([','].intercalate (ms.map JsonMember.render) ++
            '}' :: (shellQuote shell ++ rest)) := by
        simp [OptionList.render]
      have hspace : ∀ rest, scrubDescriptorNumbers (' ' :: (shellQuote shell ++ '{' :: rest)) =
          ' ' :: scrubDescriptorNumbers (shellQuote shell ++ '{' :: rest) := by
        intro rest
        cases shell with
        | false => exact scrub_before (by decide)
        | true => exact scrub_before (by decide)
      rw [OptionList.blank, hrender, hrender, hspace, scrub_shellQuote,
        scrub_miss (by simp) (by simp), scrub_json h, scrub_miss (by simp) (by simp),
        scrub_shellQuote]
  | legacy first more =>
      have hends : EndsListed rest := fun c hc => .inr (hrest c hc)
      rw [OptionList.blank, OptionList.render, OptionList.render, intercalate_cons, intercalate_cons,
        List.append_assoc, List.append_assoc,
        ← scrub_listMembers (fun m hm => h m (List.mem_cons_of_mem _ hm)) hends]
      exact scrub_listMember (h first List.mem_cons_self) (.inr rfl) (endsListed_members hends)

/-- **The numbers on a command line are blanked**, and nothing else. -/
theorem scrub_argv {argv : Argv} (h : argv.WellFormed) :
    scrubDescriptorNumbers argv.render = argv.blank.render := by
  have hoptions : ∀ options : List OptionList, (∀ list ∈ options, list.WellFormed) →
      scrubDescriptorNumbers (renderOptions options) =
        renderOptions (options.map OptionList.blank) := by
    intro options hwf
    induction options with
    | nil => rfl
    | cons list options ih =>
        rw [List.map_cons, renderOptions_cons, renderOptions_cons,
          ← ih fun other hother => hwf other (List.mem_cons_of_mem _ hother)]
        exact scrub_optionList (hwf list List.mem_cons_self) fun c hc => head_renderOptions hc
  rw [Argv.render, h.program.pass, hoptions argv.options h.options]
  rfl

end Lists

/-! ## Scanning twice -/

/-- Whether a lead can begin with this. -/
def beginsLead (c : Char) : Bool := c == '"' || c == ',' || c == ' '

/-- Text that no lead begins in, whatever follows. -/
def Leadless : List Char → Prop
  | [] => True
  | c :: text =>
      (beginsLead c = true → ∃ d rest, text = d :: rest ∧ d ≠ 'f' ∧ d ≠ 'v') ∧ Leadless text

theorem Leadless.append {text text' : List Char} (h : ∀ c ∈ text, beginsLead c = false)
    (h' : Leadless text') : Leadless (text ++ text') := by
  induction text with
  | nil => exact h'
  | cons c text ih =>
      refine ⟨fun hc => ?_, ih fun d hd => h d (List.mem_cons_of_mem _ hd)⟩
      rw [h c List.mem_cons_self] at hc
      cases hc

theorem leadless_of_numbers {number : List Char} (h : ∀ c ∈ number, isNumberChar c = true) :
    Leadless number := by
  have hall : ∀ c ∈ number, beginsLead c = false := by
    intro c hc
    cases hbegins : beginsLead c with
    | false => rfl
    | true =>
        have hnumber := h c hc
        simp only [beginsLead, Bool.or_eq_true, beq_iff_eq] at hbegins
        rcases hbegins with (rfl | rfl) | rfl <;> exact absurd hnumber (by decide)
  have hleadless := @Leadless.append number [] hall trivial
  rwa [List.append_nil] at hleadless

/-- What begins with a lead begins with two symbols of its own. -/
theorem lead_begins {key : List Char} {lead : List Char × Bool} (hkey : key ∈ descriptorKeys)
    (hlead : lead ∈ descriptorLeads key) :
    ∃ c d rest, lead.1 = c :: d :: rest ∧ beginsLead c = true ∧ (d = 'f' ∨ d = 'v') := by
  have hhead : ∀ key ∈ descriptorKeys, ∃ d rest, key = d :: rest ∧ (d = 'f' ∨ d = 'v') := by
    intro key hkey
    simp only [descriptorKeys, List.mem_cons, List.not_mem_nil, or_false] at hkey
    rcases hkey with rfl | rfl | rfl | rfl
    exacts [⟨_, _, rfl, .inl rfl⟩, ⟨_, _, rfl, .inr rfl⟩, ⟨_, _, rfl, .inl rfl⟩, ⟨_, _, rfl, .inr rfl⟩]
  obtain ⟨d, rest, rfl, hd⟩ := hhead key hkey
  rcases mem_descriptorLeads.mp hlead with rfl | rfl | rfl | rfl
  all_goals exact ⟨_, _, _, rfl, by decide, hd⟩

/-- What is found has a lead of its own at the start of the text. -/
theorem descriptorNumber_lead {rest lead after : List Char}
    (h : descriptorNumber rest = some (lead, after)) :
    ∃ key ∈ descriptorKeys, ∃ quoted, (lead, quoted) ∈ descriptorLeads key ∧ lead <+: rest := by
  obtain ⟨⟨lead', quoted⟩, hmem, hbehind⟩ := List.exists_of_findSome?_eq_some h
  obtain ⟨rfl, body, rfl, -⟩ := numberBehind_eq_some hbehind
  obtain ⟨key, hkey, hlead⟩ := List.mem_flatMap.mp hmem
  exact ⟨key, hkey, quoted, hlead, List.prefix_append _ _⟩

/-- **What is written without a lead was there.** -/
theorem copied {rest text more : List Char} (htext : Leadless text)
    (h : scrubDescriptorNumbers rest = text ++ more) :
    ∃ rest', rest = text ++ rest' ∧ scrubDescriptorNumbers rest' = more := by
  induction text generalizing rest with
  | nil => exact ⟨rest, rfl, h⟩
  | cons c text ih =>
      cases rest with
      | nil => cases h
      | cons c' rest =>
          cases hnumber : descriptorNumber (c' :: rest) with
          | none =>
              rw [scrubDescriptorNumbers_cons hnumber] at h
              obtain ⟨rfl, hcopied⟩ := List.cons.inj h
              obtain ⟨rest', rfl, hmore⟩ := ih htext.2 hcopied
              exact ⟨rest', rfl, hmore⟩
          | some found =>
              obtain ⟨lead, after⟩ := found
              obtain ⟨key, hkey, quoted, hlead, -⟩ := descriptorNumber_lead hnumber
              obtain ⟨b, d, tail, rfl, hbegins, hd⟩ := lead_begins hkey hlead
              rw [scrubDescriptorNumbers_number hnumber] at h
              obtain ⟨rfl, hwritten⟩ := List.cons.inj h
              obtain ⟨d', rest', rfl, hd'⟩ := htext.1 hbegins
              obtain ⟨rfl, -⟩ := List.cons.inj hwritten
              exact absurd hd (by simp [hd'])

/-- A quote that was written was there. -/
theorem copied_quote {rest more : List Char} (h : scrubDescriptorNumbers rest = '"' :: more) :
    rest.head? = some '"' := by
  cases rest with
  | nil => cases h
  | cons c rest =>
      cases hnumber : descriptorNumber (c :: rest) with
      | none =>
          rw [scrubDescriptorNumbers_cons hnumber] at h
          exact congrArg some (List.cons.inj h).1
      | some found =>
          obtain ⟨lead, after⟩ := found
          obtain ⟨key, hkey, quoted, hlead, rest', hrest⟩ := descriptorNumber_lead hnumber
          obtain ⟨b, d, tail, rfl, -⟩ := lead_begins hkey hlead
          rw [scrubDescriptorNumbers_number hnumber] at h
          rw [← hrest]
          exact congrArg some (List.cons.inj h).1

/-- The rest of a lead holds none, and neither does what can follow it. -/
theorem leadless_behind {key lead text : List Char} {c d : Char} {quoted : Bool}
    (hkey : key ∈ descriptorKeys) (hlead : (c :: lead, quoted) ∈ descriptorLeads key)
    (hd : d ≠ 'f' ∧ d ≠ 'v') (htext : Leadless (d :: text)) : Leadless (lead ++ d :: text) := by
  have hall : ∀ key ∈ descriptorKeys, key.all (fun c => !beginsLead c) = true := by decide
  have hfree : ∀ c ∈ key, beginsLead c = false := by
    simpa using List.all_eq_true.mp (hall key hkey)
  rcases mem_descriptorLeads.mp hlead with h | h | h | h
  · obtain ⟨rfl, rfl⟩ : c = '"' ∧ lead = key ++ ['"', ':', '"'] := by simpa using (Prod.mk.inj h).1
    rw [List.append_assoc]
    refine .append hfree ?_
    exact ⟨fun _ => ⟨':', _, rfl, by decide⟩, nofun, fun _ => ⟨d, text, rfl, hd⟩, htext⟩
  · obtain ⟨rfl, rfl⟩ : c = '"' ∧ lead = key ++ ['"', ':'] := by simpa using (Prod.mk.inj h).1
    rw [List.append_assoc]
    refine .append hfree ?_
    exact ⟨fun _ => ⟨':', _, rfl, by decide⟩, nofun, htext⟩
  · obtain ⟨rfl, rfl⟩ : c = ',' ∧ lead = key ++ ['='] := by simpa using (Prod.mk.inj h).1
    rw [List.append_assoc]
    exact .append hfree ⟨nofun, htext⟩
  · obtain ⟨rfl, rfl⟩ : c = ' ' ∧ lead = key ++ ['='] := by simpa using (Prod.mk.inj h).1
    rw [List.append_assoc]
    exact .append hfree ⟨nofun, htext⟩

/-- **Where no number began, none begins in what was written.** -/
theorem descriptorNumber_scrubbed {c : Char} {rest : List Char}
    (h : descriptorNumber (c :: rest) = none) :
    descriptorNumber (c :: scrubDescriptorNumbers rest) = none := by
  refine descriptorNumber_eq_none fun key hkey lead hlead => ?_
  obtain ⟨lead, quoted⟩ := lead
  by_contra hsome
  obtain ⟨found, hfound⟩ := Option.ne_none_iff_exists'.mp hsome
  obtain ⟨body, hbody⟩ : lead <+: c :: scrubDescriptorNumbers rest := by
    by_contra hbegins
    exact hsome (numberBehind_of_no_lead hbegins)
  rw [← hbody, numberBehind_append] at hsome
  have hnumber : body.takeWhile isNumberChar ≠ [] ∧
      (quoted = true → (body.dropWhile isNumberChar).head? = some '"') := by
    by_contra hnot
    exact hsome (if_neg hnot)
  obtain ⟨b, d, tail, rfl, -⟩ := lead_begins hkey hlead
  obtain ⟨rfl, hwritten⟩ : b = c ∧ d :: tail ++ body = scrubDescriptorNumbers rest := by
    simpa using hbody
  rw [← List.takeWhile_append_dropWhile (p := isNumberChar) (l := body), ← List.append_assoc]
    at hwritten
  have hall : ∀ d ∈ body.takeWhile isNumberChar, isNumberChar d = true :=
    List.all_eq_true.mp List.all_takeWhile
  have hleadless : Leadless (d :: tail ++ body.takeWhile isNumberChar) := by
    obtain ⟨e, digits, hdigits⟩ := List.exists_cons_of_ne_nil hnumber.1
    have he := hall e (hdigits ▸ List.mem_cons_self)
    have hleadless := leadless_of_numbers hall
    rw [hdigits] at hleadless ⊢
    refine leadless_behind hkey hlead ⟨?_, ?_⟩ hleadless <;> rintro rfl <;> exact absurd he (by decide)
  obtain ⟨rest', rfl, hrest'⟩ := copied hleadless hwritten.symm
  -- The same number begins in the text itself.
  have hnone := List.findSome?_eq_none_iff.mp h _ (List.mem_flatMap.mpr ⟨key, hkey, hlead⟩)
  rw [List.append_assoc, ← List.cons_append, numberBehind_append, if_pos] at hnone
  · cases hnone
  · rw [List.takeWhile_append_of_pos hall, List.dropWhile_append_of_pos hall]
    refine ⟨by simp [hnumber.1], fun hquoted => ?_⟩
    have hhead := hnumber.2 hquoted
    rw [← hrest'] at hhead
    cases hmore : scrubDescriptorNumbers rest' with
    | nil =>
        rw [hmore] at hhead
        cases hhead
    | cons e more =>
        rw [hmore] at hhead
        cases hhead
        have hquote := copied_quote hmore
        cases rest' with
        | nil => cases hquote
        | cons e rest' =>
            cases hquote
            rfl

/-- Text that no lead begins in is passed over. -/
theorem Leadless.pass {text rest : List Char} (h : Leadless text) :
    scrubDescriptorNumbers (text ++ rest) = text ++ scrubDescriptorNumbers rest := by
  induction text with
  | nil => rfl
  | cons c text ih =>
      rw [List.cons_append, List.cons_append, ← ih h.2]
      cases hc : beginsLead c with
      | true =>
          obtain ⟨d, rest', rfl, hd⟩ := h.1 hc
          exact scrub_before hd
      | false =>
          simp only [beginsLead, Bool.or_eq_false_iff, beq_eq_false_iff_ne] at hc
          exact scrub_miss (fun h => absurd h hc.1.1) fun h => by simp [hc.1.2, hc.2] at h

/-- A number that was blanked is none any more. -/
theorem descriptorNumber_blanked {key lead more : List Char} {quoted : Bool}
    (hkey : key ∈ descriptorKeys) (hlead : (lead, quoted) ∈ descriptorLeads key) :
    descriptorNumber (lead ++ '#' :: more) = none := by
  have hempty : ('#' :: more).takeWhile isNumberChar = [] := by
    rw [List.takeWhile_cons_of_neg (by decide)]
  rcases mem_descriptorLeads.mp hlead with h | h | h | h
  all_goals obtain ⟨rfl, -⟩ := Prod.mk.inj h
  · have hnone := @descriptorNumber_quoted _ ('#' :: more) hkey
    rw [if_neg (fun h => h.1 hempty)] at hnone
    simpa using hnone
  · have hnone := @descriptorNumber_bare _ ('#' :: more) hkey (by simp)
    rw [if_neg (fun h => h hempty)] at hnone
    simpa using hnone
  · have hnone := @descriptorNumber_listed _ ('#' :: more) _ hkey (.inl rfl)
    rw [if_neg (fun h => h hempty)] at hnone
    simpa using hnone
  · have hnone := @descriptorNumber_listed _ ('#' :: more) _ hkey (.inr rfl)
    rw [if_neg (fun h => h hempty)] at hnone
    simpa using hnone

/-- What was written for a number is passed over. -/
theorem scrub_blanked {rest lead after more : List Char}
    (h : descriptorNumber rest = some (lead, after)) :
    scrubDescriptorNumbers (lead ++ '#' :: more) = lead ++ '#' :: scrubDescriptorNumbers more := by
  obtain ⟨key, hkey, quoted, hlead, -⟩ := descriptorNumber_lead h
  have hnone := @descriptorNumber_blanked _ _ more _ hkey hlead
  obtain ⟨c, d, tail, rfl, -⟩ := lead_begins hkey hlead
  have hleadless : Leadless (d :: tail ++ ['#']) :=
    leadless_behind hkey hlead (by decide) ⟨nofun, trivial⟩
  have hpass := @Leadless.pass _ more hleadless
  simp only [List.cons_append, List.append_assoc, List.nil_append] at hnone hpass ⊢
  rw [scrubDescriptorNumbers_cons hnone, hpass]

/-- **Scanning twice changes nothing more.** -/
theorem scrubDescriptorNumbers_idem (text : List Char) :
    scrubDescriptorNumbers (scrubDescriptorNumbers text) = scrubDescriptorNumbers text := by
  induction hn : text.length using Nat.strong_induction_on generalizing text with
  | _ n ih =>
      cases text with
      | nil => rfl
      | cons c rest =>
          cases hnumber : descriptorNumber (c :: rest) with
          | none =>
              have hrest := ih rest.length (by rw [← hn]; exact Nat.lt_succ_self _) rest rfl
              rw [scrubDescriptorNumbers_cons hnumber,
                scrubDescriptorNumbers_cons (descriptorNumber_scrubbed hnumber), hrest]
          | some found =>
              obtain ⟨lead, after⟩ := found
              have hafter := ih after.length (by rw [← hn]; exact descriptorNumber_lt hnumber) after rfl
              rw [scrubDescriptorNumbers_number hnumber, scrub_blanked hnumber, hafter]

end VirtioMem.Host
