import VirtioMem.Host.Attestation

/-!
# What an attestation ignores on the command line

libvirt generates the command line of QEMU as a program and lists of options, each a compact JSON object
or a comma-separated list. Two things on it are not configuration: the requested size of the device,
which is left out while it is zero, and the numbers of descriptors that libvirt has open.

Neither scan knows of lists. That `scrubQemuArgv` removes a member with exactly one comma is proved along
the members of a list (`run_members`), and what `scrubDescriptorNumbers` writes along everything that is
not the lead of a number.
-/

namespace VirtioMem.Host

open VirtioMem.Scan VirtioMem.Text

/-! ## Command lines -/

def isQuote (c : Char) : Bool := c == '"' || c == '\''

def isListSeparator (c : Char) : Bool := c == ',' || c == '{' || c == '}' || isWhitespace c

/-- Free of what separates and quotes. -/
def Plain (text : List Char) : Prop := ∀ c ∈ text, isListSeparator c = false ∧ isQuote c = false

/-- A member of a JSON object, with a bare or a quoted value. -/
structure JsonMember where
  key : List Char
  quoted : Bool
  value : List Char
  deriving DecidableEq

/-- A member of a comma-separated list; some are a word alone. -/
structure ListMember where
  key : List Char
  value : Option (List Char)
  deriving DecidableEq

/-- One list of options. A JSON object may stand in the quotes of a shell. -/
inductive OptionList
  | json (shell : Bool) (members : List JsonMember)
  | legacy (first : ListMember) (rest : List ListMember)
  deriving DecidableEq

structure Argv where
  program : List Char
  options : List OptionList
  deriving DecidableEq

def JsonMember.renderValue (m : JsonMember) : List Char :=
  if m.quoted then '"' :: m.value ++ ['"'] else m.value

def JsonMember.render (m : JsonMember) : List Char :=
  '"' :: m.key ++ ['"', ':'] ++ m.renderValue

def ListMember.render (m : ListMember) : List Char :=
  m.key ++ match m.value with
    | none => []
    | some value => '=' :: value

def shellQuote (shell : Bool) : List Char := if shell then ['\''] else []

def OptionList.render : OptionList → List Char
  | .json shell members =>
      shellQuote shell ++ '{' :: [','].intercalate (members.map JsonMember.render) ++
        '}' :: shellQuote shell
  | .legacy first rest => [','].intercalate ((first :: rest).map ListMember.render)

def renderOptions (options : List OptionList) : List Char :=
  options.flatMap fun list => ' ' :: list.render

def Argv.render (argv : Argv) : List Char := argv.program ++ renderOptions argv.options

/-! ### Well-formed ones -/

structure JsonMember.WellFormed (m : JsonMember) : Prop where
  key : Plain m.key
  value : Plain m.value

structure ListMember.WellFormed (m : ListMember) : Prop where
  key : Plain m.key
  key_eq : '=' ∉ m.key
  value : ∀ value, m.value = some value → Plain value
  word : m.value = none → m.key ≠ []

def OptionList.WellFormed : OptionList → Prop
  | .json _ members => ∀ m ∈ members, m.WellFormed
  | .legacy first rest => ∀ m ∈ first :: rest, m.WellFormed

structure Argv.WellFormed (argv : Argv) : Prop where
  program : Plain argv.program
  options : ∀ list ∈ argv.options, list.WellFormed

instance (text : List Char) : Decidable (Plain text) :=
  List.decidableBAll (fun c => isListSeparator c = false ∧ isQuote c = false) text

instance (m : JsonMember) : Decidable m.WellFormed :=
  decidable_of_iff (Plain m.key ∧ Plain m.value)
    ⟨fun h => ⟨h.1, h.2⟩, fun h => ⟨h.key, h.value⟩⟩

instance (m : ListMember) : Decidable m.WellFormed :=
  decidable_of_iff (Plain m.key ∧ '=' ∉ m.key ∧ (∀ value ∈ m.value, Plain value) ∧
      (m.value = none → m.key ≠ []))
    ⟨fun h => ⟨h.1, h.2.1, h.2.2.1, h.2.2.2⟩, fun h => ⟨h.key, h.key_eq, h.value, h.word⟩⟩

instance : (list : OptionList) → Decidable list.WellFormed
  | .json _ members => inferInstanceAs (Decidable (∀ m ∈ members, m.WellFormed))
  | .legacy first rest => inferInstanceAs (Decidable (∀ m ∈ first :: rest, m.WellFormed))

instance (argv : Argv) : Decidable argv.WellFormed :=
  decidable_of_iff (Plain argv.program ∧ ∀ list ∈ argv.options, list.WellFormed)
    ⟨fun h => ⟨h.1, h.2⟩, fun h => ⟨h.program, h.options⟩⟩

/-! ## Lists without their requested size -/

def JsonMember.requested (m : JsonMember) : Bool := m.key = requestedSizeKey

def ListMember.requested (m : ListMember) : Bool := m.key = requestedSizeKey && m.value.isSome

def OptionList.withoutRequested : OptionList → OptionList
  | .json shell members => .json shell (members.filter fun m => !m.requested)
  | .legacy first rest => .legacy first (rest.filter fun m => !m.requested)

def Argv.withoutRequested (argv : Argv) : Argv :=
  { argv with options := argv.options.map OptionList.withoutRequested }

/-- No other key and no value has the key in it. -/
structure JsonMember.Distinct (m : JsonMember) : Prop where
  key : m.requested = false → ¬requestedSizeKey <:+: m.key
  value : ¬requestedSizeKey <:+: m.value

structure ListMember.Distinct (m : ListMember) : Prop where
  key : m.requested = false → ¬requestedSizeKey <:+: m.key
  value : ∀ value, m.value = some value → ¬requestedSizeKey <:+: value

/-- The requested size is not the first member of a comma-separated list. -/
def OptionList.Distinct : OptionList → Prop
  | .json _ members => ∀ m ∈ members, m.Distinct
  | .legacy first rest => (∀ m ∈ first :: rest, m.Distinct) ∧ first.requested = false

structure Argv.Distinct (argv : Argv) : Prop where
  program : ¬requestedSizeKey <:+: argv.program
  options : ∀ list ∈ argv.options, list.Distinct

instance (m : JsonMember) : Decidable m.Distinct :=
  decidable_of_iff ((m.requested = false → ¬requestedSizeKey <:+: m.key) ∧
      ¬requestedSizeKey <:+: m.value)
    ⟨fun h => ⟨h.1, h.2⟩, fun h => ⟨h.key, h.value⟩⟩

instance (m : ListMember) : Decidable m.Distinct :=
  decidable_of_iff ((m.requested = false → ¬requestedSizeKey <:+: m.key) ∧
      ∀ value ∈ m.value, ¬requestedSizeKey <:+: value)
    ⟨fun h => ⟨h.1, h.2⟩, fun h => ⟨h.key, h.value⟩⟩

instance : (list : OptionList) → Decidable list.Distinct
  | .json _ members => inferInstanceAs (Decidable (∀ m ∈ members, m.Distinct))
  | .legacy first rest =>
      inferInstanceAs (Decidable ((∀ m ∈ first :: rest, m.Distinct) ∧ first.requested = false))

instance (argv : Argv) : Decidable argv.Distinct :=
  decidable_of_iff (¬requestedSizeKey <:+: argv.program ∧ ∀ list ∈ argv.options, list.Distinct)
    ⟨fun h => ⟨h.1, h.2⟩, fun h => ⟨h.program, h.options⟩⟩

/-- A list ends with a requested size that has no value. -/
def OptionList.OpenEnd : OptionList → Prop
  | .json _ _ => False
  | .legacy _ rest => ∃ m ∈ rest.getLast?, m.requested = true ∧ m.value = some []

instance : (list : OptionList) → Decidable list.OpenEnd
  | .json _ _ => inferInstanceAs (Decidable False)
  | .legacy _ rest =>
      inferInstanceAs (Decidable (∃ m ∈ rest.getLast?, m.requested = true ∧ m.value = some []))

/-! ## Removing a member -/

/-- A value and what follows it: a quoted value ends with its quote, a bare one before a separator. -/
inductive Valued : List Char → List Char → Prop
  | quoted {value rest : List Char} (h : '"' ∉ value) : Valued ('"' :: value ++ ['"']) rest
  | bare {value rest : List Char} (h : Plain value)
      (hrest : ∀ c, rest.head? = some c → c = ',' ∨ c = '}' ∨ isWhitespace c = true)
      (hopen : value = [] → ∀ c, rest.head? = some c → isWhitespace c = false) :
      Valued value rest

theorem Plain.not_separator {value : List Char} (h : Plain value) : ∀ c ∈ value,
    (!(c == ',' || c == '}' || isWhitespace c)) = true := by
  intro c hc
  have hc := (h c hc).1
  simp only [isListSeparator, Bool.or_eq_false_iff] at hc
  simp [hc]

theorem Valued.not_space {value rest : List Char} (h : Valued value rest) :
    (value ++ rest).takeWhile isWhitespace = [] := by
  cases h with
  | quoted h => simp [show isWhitespace '"' = false by decide]
  | bare h hrest hopen =>
      cases value with
      | nil =>
          cases rest with
          | nil => rfl
          | cons c rest => simp [hopen rfl c rfl]
      | cons c value =>
          have hc := (h c List.mem_cons_self).1
          simp only [isListSeparator, Bool.or_eq_false_iff] at hc
          simp [hc.2]

theorem Valued.bare_head {value rest : List Char} (h : Plain value)
    (hrest : ∀ c, rest.head? = some c → c = ',' ∨ c = '}' ∨ isWhitespace c = true) :
    ((value ++ rest).head? == some '"') = false := by
  rw [beq_eq_false_iff_ne]
  intro hhead
  cases value with
  | nil => rcases hrest _ hhead with h | h | h <;> exact absurd h (by decide)
  | cons c value =>
      have hc := (h c List.mem_cons_self).2
      cases hhead
      exact absurd hc (by decide)

/-- **The end of a value is found.** -/
theorem memberEnd_append {lead value rest : List Char} {separator : Char}
    (h : Valued value rest) :
    memberEnd (lead ++ separator :: (value ++ rest)) lead.length =
      lead.length + 1 + value.length := by
  have hdrop : (lead ++ separator :: (value ++ rest)).drop (lead.length + 1) = value ++ rest := by
    rw [← List.drop_drop, List.drop_left]
    rfl
  simp only [memberEnd, hdrop, h.not_space, List.length_nil, Nat.add_zero]
  cases h with
  | @quoted value _ h =>
      have hhead : (('"' :: value ++ ['"'] ++ rest).head? == some '"') = true := by simp
      have hbehind : (lead ++ separator :: ('"' :: value ++ ['"'] ++ rest)).drop
          (lead.length + 1 + 1) = value ++ '"' :: rest := by
        rw [← List.drop_drop, hdrop]
        simp
      have hvalue : (value ++ '"' :: rest).takeWhile (fun c => !(c == '"')) = value := by
        refine (span_append (fun c hc => ?_) (fun c hc => ?_)).1
        · simpa using ne_of_mem_of_not_mem hc h
        · cases hc
          rfl
      simp only [hhead, if_true, hbehind, hvalue, Bool.true_and, decide_eq_true_eq]
      rw [if_pos (by simp; omega)]
      simp
      omega
  | bare h hrest hopen =>
      have hvalue : (value ++ rest).takeWhile
          (fun c => !(c == ',' || c == '}' || isWhitespace c)) = value := by
        refine (span_append h.not_separator fun c hc => ?_).1
        rcases hrest c hc with rfl | rfl | h <;> simp_all
      simp only [Valued.bare_head h hrest, Bool.false_eq_true, if_false, hdrop, hvalue,
        Bool.false_and]

theorem replaceRange_append {done piece rest new : List Char} :
    replaceRange (done ++ (piece ++ rest)) done.length (done.length + piece.length) new =
      done ++ new ++ rest := by
  simp only [replaceRange, List.take_left, ← List.drop_drop, List.drop_left]

/-- A member is removed with the comma behind it. -/
theorem removeMember_comma {done piece rest : List Char} :
    removeMember (done ++ (piece ++ ',' :: rest)) done.length (done.length + piece.length) =
      ⟨done ++ rest, done.length⟩ := by
  have hnext : (done ++ (piece ++ ',' :: rest)).drop (done.length + piece.length) = ',' :: rest := by
    rw [← List.drop_drop, List.drop_left, List.drop_left]
  have hcut := @replaceRange_append done (piece ++ [',']) rest []
  simp only [List.append_assoc, List.singleton_append, List.length_append, List.length_singleton,
    List.nil_append] at hcut
  simp only [removeMember, hnext, List.head?_cons, if_true]
  rw [← Nat.add_assoc] at hcut
  rw [hcut]

theorem head_drop_ne {done piece rest : List Char} (hrest : rest.head? ≠ some ',') :
    ¬((done ++ (piece ++ rest)).drop (done.length + piece.length)).head? = some ',' := by
  rwa [← List.drop_drop, List.drop_left, List.drop_left]

/-- A last member is removed with the comma before it. -/
theorem removeMember_last {done piece rest : List Char} (hrest : rest.head? ≠ some ',') :
    removeMember (done ++ [','] ++ (piece ++ rest)) (done ++ [',']).length
      ((done ++ [',']).length + piece.length) = ⟨done ++ rest, done.length⟩ := by
  have hcut := @replaceRange_append done (',' :: piece) rest []
  simp only [List.cons_append, List.length_cons, List.append_nil] at hcut
  simp only [removeMember]
  rw [if_neg (head_drop_ne hrest), List.take_left, if_pos (by simp)]
  simp only [List.length_append, List.length_singleton, Nat.add_sub_cancel, List.append_assoc,
    List.singleton_append]
  rw [Nat.add_assoc, Nat.add_comm 1, hcut]

/-- An only member is removed alone. -/
theorem removeMember_only {done piece rest : List Char} (hrest : rest.head? ≠ some ',')
    (hdone : done.getLast? ≠ some ',') :
    removeMember (done ++ (piece ++ rest)) done.length (done.length + piece.length) =
      ⟨done ++ rest, done.length⟩ := by
  simp only [removeMember]
  rw [if_neg (head_drop_ne hrest), List.take_left, if_neg hdone, replaceRange_append,
    List.append_nil]

/-- **A member with a value is found as a whole**, behind the quote of its key if it has one. -/
theorem scrubRequestedSize_append {before gap value rest : List Char} {separator : Char}
    (hgap : ∀ c ∈ gap, c = '"') (hseparator : separator = '=' ∨ separator = ':')
    (h : Valued value rest) :
    scrubRequestedSize (before ++ (requestedSizeKey ++ (gap ++ separator :: (value ++ rest))))
      before.length =
    .inr (removeMember (before ++ (requestedSizeKey ++ (gap ++ separator :: (value ++ rest))))
      (if before.getLast? = some '"' then before.length - 1 else before.length)
      (before.length + (requestedSizeKey ++ gap ++ [separator] ++ value).length)) := by
  have hkey : (before ++ (requestedSizeKey ++ (gap ++ separator :: (value ++ rest)))).drop
      (before.length + requestedSizeKey.length) = gap ++ separator :: (value ++ rest) := by
    rw [← List.drop_drop, List.drop_left, List.drop_left]
  have hgapLength : (gap ++ separator :: (value ++ rest)).takeWhile
      (fun c => c == '"' || isWhitespace c) = gap := by
    refine (span_append (fun c hc => by simp [hgap c hc]) fun c hc => ?_).1
    cases hc
    rcases hseparator with rfl | rfl <;> decide
  have hbehind : (before ++ (requestedSizeKey ++ (gap ++ separator :: (value ++ rest)))).drop
      (before.length + requestedSizeKey.length + gap.length) = separator :: (value ++ rest) := by
    rw [← List.drop_drop, hkey, List.drop_left]
  have hend := @memberEnd_append (before ++ (requestedSizeKey ++ gap)) value rest separator h
  simp only [List.append_assoc, List.length_append] at hend
  have hmatch : (!(separator == '=' || separator == ':')) = false := by
    rcases hseparator with rfl | rfl <;> rfl
  simp only [scrubRequestedSize, hkey, hgapLength, hbehind, List.head?_cons, hmatch, List.take_left,
    Bool.false_eq_true, if_false]
  rw [Nat.add_assoc before.length, hend]
  simp only [List.length_append, List.length_singleton]
  congr 2
  omega

/-- A requested size as a member of a list, and what follows it. -/
inductive RequestedText : List Char → List Char → Prop
  | json {value rest : List Char} (h : Valued value rest) :
      RequestedText ('"' :: requestedSizeKey ++ ['"', ':'] ++ value) rest
  | legacy {value rest : List Char} (h : Valued value rest) :
      RequestedText (requestedSizeKey ++ '=' :: value) rest

/-- What the search has come to once it has removed this member. -/
def afterRemoval (done m rest : List Char) : Cursor Char :=
  removeMember (done ++ (m ++ rest)) done.length (done.length + m.length)

theorem RequestedText.run {done m rest : List Char} (h : RequestedText m rest)
    (hdone : done.getLast? ≠ some '"') :
    requestedSizeSearch.runFrom (done ++ (m ++ rest)) done.length =
      requestedSizeSearch.runFrom (afterRemoval done m rest).text (afterRemoval done m rest).offset := by
  cases h with
  | @json value _ h =>
      have hact := @scrubRequestedSize_append (done ++ ['"']) ['"'] value rest ':' (by simp) (.inr rfl) h
      rw [if_pos (by simp)] at hact
      -- The quote of the key is passed over first.
      have hskip := @Search.runFrom_skip _ _ requestedSizeSearch done
        (requestedSizeKey ++ (['"'] ++ ':' :: (value ++ rest))) ['"']
        ((clear_of_notMem (by decide)).find_append _)
      have hrun := @Search.runFrom_act _ _ requestedSizeSearch _
        (requestedSizeKey ++ (['"'] ++ ':' :: (value ++ rest))) _ (List.prefix_append _ _) hact
      have harith : done.length + 1 + (requestedSizeKey.length + (value.length + 1 + 1)) =
          done.length + (requestedSizeKey.length + (value.length + 1 + 1) + 1) := by omega
      simp only [afterRemoval, List.append_assoc, List.cons_append, List.nil_append,
        List.length_append, List.length_cons, List.length_nil, Nat.zero_add, Nat.add_sub_cancel,
        harith] at hskip hrun ⊢
      exact hskip.trans hrun
  | @legacy value _ h =>
      have hact := @scrubRequestedSize_append done [] value rest '=' (by simp) (.inl rfl) h
      rw [if_neg hdone] at hact
      have hrun := @Search.runFrom_act _ _ requestedSizeSearch _
        (requestedSizeKey ++ ([] ++ '=' :: (value ++ rest))) _ (List.prefix_append _ _) hact
      simp only [afterRemoval, List.append_assoc, List.cons_append, List.nil_append,
        List.length_append, List.length_cons] at hrun ⊢
      exact hrun

/-- The key is not in this text. -/
abbrev Keyless (text : List Char) : Prop := ¬requestedSizeKey <:+: text

/-- **What can be removed from a list** before this text: every member before a comma, the last one
before the text. -/
structure Removable {β : Type} (render : β → List Char) (requested : β → Bool) (tail : List Char)
    (ms : List β) : Prop where
  kept : ∀ m ∈ ms, requested m = false → Keyless (render m)
  comma : ∀ m ∈ ms, requested m = true → ∀ rest, RequestedText (render m) (',' :: rest)
  last : ∀ m, ms.getLast? = some m → requested m = true → RequestedText (render m) tail

theorem Removable.tail {β : Type} {render : β → List Char} {requested : β → Bool}
    {tail : List Char} {m : β} {ms : List β} (h : Removable render requested tail (m :: ms)) :
    Removable render requested tail ms where
  kept other hother := h.kept other (List.mem_cons_of_mem _ hother)
  comma other hother := h.comma other (List.mem_cons_of_mem _ hother)
  last other hother := by
    cases ms with
    | nil => cases hother
    | cons next ms => exact h.last other (by rwa [List.getLast?_cons_cons])

/-- The members of a list behind its first. -/
def members {β : Type} (render : β → List Char) (ms : List β) : List Char :=
  ms.flatMap fun m => ',' :: render m

section Members

variable {β : Type} {render : β → List Char} {requested : β → Bool} {tail done : List Char}
  {m : β} {ms : List β}

theorem members_cons :
    members render (m :: ms) ++ tail = ',' :: (render m ++ (members render ms ++ tail)) := by
  simp [members]

theorem intercalate_cons :
    [','].intercalate ((m :: ms).map render) = render m ++ members render ms := by
  rw [List.map_cons, intercalate_flatMap, List.flatMap_map]
  rfl

theorem delimited_cons {separator : Char} {rest : List Char} (h : separator ∉ requestedSizeKey) :
    Delimited requestedSizeKey (separator :: rest) := h

/-- What a member that is kept is followed by. -/
theorem delimited_members (htail : Delimited requestedSizeKey tail) :
    Delimited requestedSizeKey (members render ms ++ tail) := by
  cases ms with
  | nil => exact htail
  | cons m ms =>
      rw [members_cons]
      exact delimited_cons (by decide)

theorem clear_separator {separator : Char} (h : separator ∉ requestedSizeKey) :
    Clear requestedSizeKey [separator] := by
  have hfirst : 'r' ∉ [separator] := by
    intro hmem
    rw [List.mem_singleton] at hmem
    exact h (hmem ▸ by decide)
  exact clear_of_notMem hfirst

/-- A separator is passed over. -/
theorem run_separator {separator : Char} {rest : List Char} (h : separator ∉ requestedSizeKey) :
    requestedSizeSearch.runFrom (done ++ separator :: rest) done.length =
      requestedSizeSearch.runFrom (done ++ [separator] ++ rest) (done ++ [separator]).length :=
  @Search.runFrom_skip _ _ requestedSizeSearch done rest [separator]
    ((clear_separator h).find_append rest)

/-- A member with another after it is removed with its comma. -/
theorem run_comma {m rest : List Char} (h : RequestedText m (',' :: rest))
    (hdone : done.getLast? ≠ some '"') :
    requestedSizeSearch.runFrom (done ++ (m ++ ',' :: rest)) done.length =
      requestedSizeSearch.runFrom (done ++ rest) done.length := by
  rw [h.run hdone, afterRemoval, removeMember_comma]

/-- The last member is removed with the comma before it. -/
theorem run_last {m : List Char} (h : RequestedText m tail) (hcomma : tail.head? ≠ some ',') :
    requestedSizeSearch.runFrom (done ++ [','] ++ (m ++ tail)) (done ++ [',']).length =
      requestedSizeSearch.runFrom (done ++ tail) done.length := by
  rw [h.run (by simp), afterRemoval, removeMember_last hcomma]

/-- The only member is removed alone. -/
theorem run_only {m : List Char} (h : RequestedText m tail) (hcomma : tail.head? ≠ some ',')
    (hdone : done.getLast? ≠ some '"') (hfirst : done.getLast? ≠ some ',') :
    requestedSizeSearch.runFrom (done ++ (m ++ tail)) done.length =
      requestedSizeSearch.runFrom (done ++ tail) done.length := by
  rw [h.run hdone, afterRemoval, removeMember_only hcomma hfirst]

/-- **Behind a member that is kept**, every other member goes or stays with its comma. -/
theorem run_members (htail : Delimited requestedSizeKey tail) (hcomma : tail.head? ≠ some ',')
    (h : Removable render requested tail ms) :
    requestedSizeSearch.runFrom (done ++ (members render ms ++ tail)) done.length =
      requestedSizeSearch.runFrom
        (done ++ members render (ms.filter fun m => !requested m) ++ tail)
        (done ++ members render (ms.filter fun m => !requested m)).length := by
  induction ms generalizing done with
  | nil => simp [members]
  | cons m ms ih =>
      have ih' := fun done => @ih done h.tail
      rw [members_cons, run_separator (by decide)]
      cases hm : requested m with
      | false =>
          have hskip := @Search.runFrom_skip _ _ requestedSizeSearch (done ++ [','])
            (members render ms ++ tail) (render m)
            (find_append_of_delimited (h.kept m List.mem_cons_self hm) (delimited_members htail))
          rw [hskip, ih', List.filter_cons_of_pos (by simp [hm])]
          simp [members]
      | true =>
          rw [List.filter_cons_of_neg (by simp [hm])]
          cases ms with
          | nil =>
              rw [show members render [] ++ tail = tail from rfl,
                run_last (h.last m List.getLast?_singleton hm) hcomma]
              simp [members]
          | cons next ms =>
              rw [members_cons, run_comma (h.comma m List.mem_cons_self hm _) (by simp), ← ih' done,
                members_cons, run_separator (by decide)]

/-- **A whole list**, when what stands before it is not a comma. -/
theorem run_list (htail : Delimited requestedSizeKey tail) (hcomma : tail.head? ≠ some ',')
    (hdone : done.getLast? ≠ some '"') (hfirst : done.getLast? ≠ some ',')
    (h : Removable render requested tail ms) :
    requestedSizeSearch.runFrom (done ++ ([','].intercalate (ms.map render) ++ tail)) done.length =
      requestedSizeSearch.runFrom
        (done ++ [','].intercalate ((ms.filter fun m => !requested m).map render) ++ tail)
        (done ++ [','].intercalate ((ms.filter fun m => !requested m).map render)).length := by
  induction ms with
  | nil => simp
  | cons m ms ih =>
      rw [intercalate_cons, List.append_assoc]
      cases hm : requested m with
      | false =>
          have hskip := @Search.runFrom_skip _ _ requestedSizeSearch done
            (members render ms ++ tail) (render m)
            (find_append_of_delimited (h.kept m List.mem_cons_self hm) (delimited_members htail))
          rw [hskip, run_members htail hcomma h.tail, List.filter_cons_of_pos (by simp [hm]),
            intercalate_cons]
          simp
      | true =>
          rw [List.filter_cons_of_neg (by simp [hm])]
          cases ms with
          | nil =>
              rw [show members render [] ++ tail = tail from rfl,
                run_only (h.last m List.getLast?_singleton hm) hcomma hdone hfirst]
              simp
          | cons next ms =>
              rw [members_cons, run_comma (h.comma m List.mem_cons_self hm _) hdone, ← ih h.tail,
                intercalate_cons, List.append_assoc]

end Members

/-! ## The lists of a command line -/

theorem keyless_append {text text' : List Char} {separator : Char} (h : Keyless text) (h' : Keyless text')
    (hseparator : separator ∉ requestedSizeKey) : Keyless (text ++ separator :: text') := by
  refine find_eq_none_iff.mp ?_
  rw [find_append_of_delimited h (delimited_cons hseparator), show separator :: text' = [separator] ++ text' from rfl,
    (clear_separator hseparator).find_append, find_eq_none_iff.mpr h']
  rfl

theorem keyless_nil : Keyless [] := by decide

theorem keyless_cons {text : List Char} {separator : Char} (h : Keyless text)
    (hseparator : separator ∉ requestedSizeKey) : Keyless (separator :: text) :=
  keyless_append keyless_nil h hseparator

theorem JsonMember.kept {m : JsonMember} (h : m.Distinct) (hm : m.requested = false) :
    Keyless m.render := by
  have hvalue : Keyless m.renderValue := by
    unfold renderValue
    split_ifs
    · exact keyless_cons (keyless_append h.value keyless_nil (by decide)) (by decide)
    · exact h.value
  have hrender : m.render = '"' :: (m.key ++ '"' :: ':' :: m.renderValue) := by
    simp [JsonMember.render]
  rw [hrender]
  exact keyless_cons (keyless_append (h.key hm) (keyless_cons hvalue (by decide)) (by decide)) (by decide)

theorem ListMember.kept {m : ListMember} (h : m.Distinct) (hm : m.requested = false) :
    Keyless m.render := by
  unfold render
  cases hvalue : m.value with
  | none => simpa using h.key hm
  | some value => exact keyless_append (h.key hm) (h.value value hvalue) (by decide)

/-- A JSON member has its value before a comma or the end of its object. -/
theorem JsonMember.requestedText {m : JsonMember} {rest : List Char} (h : m.WellFormed)
    (hm : m.requested = true) (hrest : ∀ c, rest.head? = some c → c = ',' ∨ c = '}') :
    RequestedText m.render rest := by
  have hkey : m.key = requestedSizeKey := by simpa [requested] using hm
  have hvalued : Valued m.renderValue rest := by
    unfold renderValue
    split_ifs
    · refine .quoted fun hmem => ?_
      exact absurd (h.value _ hmem).2 (by decide)
    · refine .bare h.value (fun c hc => ?_) (fun _ c hc => ?_)
      · exact (hrest c hc).imp id .inl
      · rcases hrest c hc with rfl | rfl <;> decide
  have hrender : m.render = '"' :: requestedSizeKey ++ ['"', ':'] ++ m.renderValue := by
    rw [JsonMember.render, hkey]
  rw [hrender]
  exact .json hvalued

/-- A member of a comma-separated list has its value before a comma, a space or the end; an empty value
is not one before a space. -/
theorem ListMember.requestedText {m : ListMember} {rest : List Char} (h : m.WellFormed)
    (hm : m.requested = true) (hrest : ∀ c, rest.head? = some c → c = ',' ∨ c = ' ')
    (hopen : m.value = some [] → rest.head? ≠ some ' ') : RequestedText m.render rest := by
  obtain ⟨hkey, hsome⟩ : m.key = requestedSizeKey ∧ m.value.isSome = true := by
    simpa [requested] using hm
  obtain ⟨value, hvalue⟩ := Option.isSome_iff_exists.mp hsome
  have hvalued : Valued value rest := by
    refine .bare (h.value value hvalue) (fun c hc => ?_) (fun hnil c hc => ?_)
    · rcases hrest c hc with rfl | rfl
      · exact .inl rfl
      · exact .inr (.inr (by decide))
    · subst hnil
      rcases hrest c hc with rfl | rfl
      · decide
      · exact absurd hc (hopen hvalue)
  have hrender : m.render = requestedSizeKey ++ '=' :: value := by
    simp [ListMember.render, hvalue, hkey]
  rw [hrender]
  exact .legacy hvalued

theorem renderOptions_cons {list : OptionList} {options : List OptionList} :
    renderOptions (list :: options) = ' ' :: (list.render ++ renderOptions options) := by
  simp [renderOptions]

theorem head_renderOptions {options : List OptionList} {c : Char}
    (h : (renderOptions options).head? = some c) : c = ' ' := by
  cases options with
  | nil => cases h
  | cons list options =>
      rw [renderOptions_cons] at h
      exact (Option.some.inj h).symm

theorem delimited_options {options : List OptionList} :
    Delimited requestedSizeKey (renderOptions options) := by
  cases options with
  | nil => trivial
  | cons list options =>
      rw [renderOptions_cons]
      exact delimited_cons (by decide)

/-- The members of an object lose their requested size. -/
theorem JsonMember.removable {members : List JsonMember} {tail : List Char}
    (hwf : ∀ m ∈ members, m.WellFormed) (hdistinct : ∀ m ∈ members, m.Distinct) :
    Removable JsonMember.render JsonMember.requested ('}' :: tail) members where
  kept m hm hrequested := kept (hdistinct m hm) hrequested
  comma m hm hrequested rest := requestedText (hwf m hm) hrequested (by simp)
  last m hlast hrequested :=
    requestedText (hwf m (List.mem_of_getLast? hlast)) hrequested (by simp)

/-- The members of a comma-separated list lose theirs, if it does not end open before a space. -/
theorem ListMember.removable {members : List ListMember} {tail : List Char}
    (hwf : ∀ m ∈ members, m.WellFormed) (hdistinct : ∀ m ∈ members, m.Distinct)
    (htail : ∀ c, tail.head? = some c → c = ' ')
    (hopen : ∀ m, members.getLast? = some m → m.requested = true → m.value = some [] → tail = []) :
    Removable ListMember.render ListMember.requested tail members where
  kept m hm hrequested := kept (hdistinct m hm) hrequested
  comma m hm hrequested rest := requestedText (hwf m hm) hrequested (by simp) (by simp)
  last m hlast hrequested :=
    requestedText (hwf m (List.mem_of_getLast? hlast)) hrequested (fun c hc => .inr (htail c hc))
      fun hvalue => by simp [hopen m hlast hrequested hvalue]

/-- A quote of the shell is passed over. -/
theorem run_shellQuote {done rest : List Char} {shell : Bool} :
    requestedSizeSearch.runFrom (done ++ (shellQuote shell ++ rest)) done.length =
      requestedSizeSearch.runFrom (done ++ shellQuote shell ++ rest)
        (done ++ shellQuote shell).length := by
  refine Search.runFrom_skip (Clear.find_append ?_ _)
  cases shell with
  | false => trivial
  | true => exact clear_separator (by decide)

/-- **One list**, behind a space. -/
theorem run_optionList {done tail : List Char} {list : OptionList} (hwf : list.WellFormed)
    (hdistinct : list.Distinct) (htail : ∀ c, tail.head? = some c → c = ' ')
    (hopen : tail ≠ [] → ¬list.OpenEnd) :
    requestedSizeSearch.runFrom (done ++ ' ' :: (list.render ++ tail)) done.length =
      requestedSizeSearch.runFrom (done ++ ' ' :: list.withoutRequested.render ++ tail)
        (done ++ ' ' :: list.withoutRequested.render).length := by
  have hdelimited : Delimited requestedSizeKey tail := by
    cases tail with
    | nil => trivial
    | cons c tail =>
        rw [htail c rfl]
        exact delimited_cons (by decide)
  have hcomma : tail.head? ≠ some ',' := fun h => absurd (htail _ h) (by decide)
  rw [run_separator (by decide)]
  cases list with
  | json shell members =>
      have hrender : (OptionList.json shell members).render ++ tail = shellQuote shell ++
          '{' :: ([','].intercalate (members.map JsonMember.render) ++
            '}' :: (shellQuote shell ++ tail)) := by
        simp [OptionList.render]
      rw [hrender, run_shellQuote, run_separator (by decide),
        run_list (delimited_cons (by decide)) (by simp) (by rw [List.getLast?_concat]; decide)
          (by rw [List.getLast?_concat]; decide) (JsonMember.removable hwf hdistinct),
        run_separator (by decide), run_shellQuote]
      simp [OptionList.withoutRequested, OptionList.render]
  -- The member removed last may end the text; before a further list it does not.
  | legacy first rest =>
      have hopen' : ∀ m, rest.getLast? = some m → m.requested = true → m.value = some [] →
          tail = [] := by
        intro m hlast hrequested hvalue
        by_contra hne
        exact hopen hne ⟨m, hlast, hrequested, hvalue⟩
      have hremovable := @ListMember.removable rest tail
        (fun m hm => hwf m (List.mem_cons_of_mem _ hm))
        (fun m hm => hdistinct.1 m (List.mem_cons_of_mem _ hm)) htail hopen'
      have hfirst : Keyless first.render :=
        ListMember.kept (hdistinct.1 first List.mem_cons_self) hdistinct.2
      have hrender : (OptionList.legacy first rest).render ++ tail =
          first.render ++ (members ListMember.render rest ++ tail) := by
        rw [OptionList.render, intercalate_cons, List.append_assoc]
      have hwithout : (OptionList.legacy first rest).withoutRequested.render =
          first.render ++ members ListMember.render (rest.filter fun m => !m.requested) := by
        rw [OptionList.withoutRequested, OptionList.render, intercalate_cons]
      rw [hrender, hwithout, @Search.runFrom_skip _ _ requestedSizeSearch (done ++ [' '])
        (members ListMember.render rest ++ tail) first.render
        (find_append_of_delimited hfirst (delimited_members hdelimited)),
        run_members hdelimited hcomma hremovable]
      simp

/-- **The requested size is removed from every list.** -/
theorem run_options {done : List Char} {options : List OptionList}
    (hwf : ∀ list ∈ options, list.WellFormed) (hdistinct : ∀ list ∈ options, list.Distinct)
    (hopen : ∀ list ∈ options.dropLast, ¬list.OpenEnd) :
    requestedSizeSearch.runFrom (done ++ renderOptions options) done.length =
      done ++ renderOptions (options.map OptionList.withoutRequested) := by
  induction options generalizing done with
  | nil => exact Search.runFrom_absent (find_eq_none_iff.mpr keyless_nil)
  | cons list options ih =>
      have hopen' : renderOptions options ≠ [] → ¬list.OpenEnd := by
        intro hne
        cases options with
        | nil => exact absurd rfl hne
        | cons next options => exact hopen list List.mem_cons_self
      have hrest : ∀ other ∈ options.dropLast, ¬other.OpenEnd := by
        intro other hother
        cases options with
        | nil => cases hother
        | cons next options => exact hopen other (List.mem_cons_of_mem _ hother)
      rw [renderOptions_cons,
        run_optionList (hwf list List.mem_cons_self) (hdistinct list List.mem_cons_self)
          (fun c hc => head_renderOptions hc) hopen',
        ih (fun other hother => hwf other (List.mem_cons_of_mem _ hother))
          (fun other hother => hdistinct other (List.mem_cons_of_mem _ hother)) hrest]
      simp [renderOptions]

/-- A whole command line. -/
theorem scrubQemuArgv_render {argv : Argv} (hwf : argv.WellFormed) (hdistinct : argv.Distinct)
    (hopen : ∀ list ∈ argv.options.dropLast, ¬list.OpenEnd) :
    scrubQemuArgv argv.render = argv.withoutRequested.render := by
  have hprogram := @Search.runFrom_skip _ _ requestedSizeSearch [] (renderOptions argv.options)
    argv.program (find_append_of_delimited hdistinct.program delimited_options)
  exact hprogram.trans (run_options hwf.options hdistinct.options hopen)

end VirtioMem.Host
