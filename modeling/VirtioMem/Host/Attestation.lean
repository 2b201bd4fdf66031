import VirtioMem.Lib.Scan
import VirtioMem.Lib.Text

/-!
# What an attestation of the command line does not cover

A compatibility attestation holds a fingerprint of the QEMU command line. Before it is hashed, what
changes while a domain runs, or every time it starts, is taken out of it: the requested size of the
device, and the numbers of the descriptors it is handed.

The source does this on the text, without parsing it: `scrubQemuArgv` and `scrubDescriptorNumbers`. Each
loop is a `Search` or a `Loop`, with the reason it ends.
-/

namespace VirtioMem.Host

open VirtioMem.Scan VirtioMem.Text

variable {text : List Char}

theorem length_replaceRange {start stop : Nat} {new : List Char} (h : start ≤ text.length) :
    (replaceRange text start stop new).length = start + new.length + (text.length - stop) := by
  simp only [replaceRange, List.length_append, List.length_take, List.length_drop,
    Nat.min_eq_left h]

/-! ## The requested size on the command line -/

def requestedSizeKey : List Char := "requested-size".toList

/-- Where the value behind this separator ends. -/
def memberEnd (scrubbed : List Char) (separator : Nat) : Nat :=
  let valueStart := separator + 1
  let valueStart := valueStart + ((scrubbed.drop valueStart).takeWhile isWhitespace).length
  let quoted := (scrubbed.drop valueStart).head? == some '"'
  let valueStart := if quoted then valueStart + 1 else valueStart
  let memberEnd := valueStart + ((scrubbed.drop valueStart).takeWhile fun c =>
    !(if quoted then c == '"' else c == ',' || c == '}' || isWhitespace c)).length
  if quoted && memberEnd < scrubbed.length then memberEnd + 1 else memberEnd

/-- The text without this member and one adjacent comma. -/
def removeMember (scrubbed : List Char) (memberStart memberEnd : Nat) : Cursor Char :=
  let (removeStart, removeEnd) :=
    if (scrubbed.drop memberEnd).head? = some ',' then (memberStart, memberEnd + 1)
    else if (scrubbed.take memberStart).getLast? = some ',' then (memberStart - 1, memberEnd)
    else (memberStart, memberEnd)
  ⟨replaceRange scrubbed removeStart removeEnd [], removeStart⟩

/-- What is done about one `requested-size`: the member is removed, if it has a value. -/
def scrubRequestedSize (scrubbed : List Char) (keyStart : Nat) : List Char ⊕ Cursor Char :=
  let keyEnd := keyStart + requestedSizeKey.length
  let memberStart :=
    if (scrubbed.take keyStart).getLast? = some '"' then keyStart - 1 else keyStart
  let separator := keyEnd +
    ((scrubbed.drop keyEnd).takeWhile fun c => c == '"' || isWhitespace c).length
  match (scrubbed.drop separator).head? with
  | none => .inl scrubbed
  | some separatorCharacter =>
    if !(separatorCharacter == '=' || separatorCharacter == ':') then .inr ⟨scrubbed, keyEnd⟩
    else .inr (removeMember scrubbed memberStart (memberEnd scrubbed separator))

theorem lt_memberEnd (scrubbed : List Char) (separator : Nat) :
    separator < memberEnd scrubbed separator := by
  simp only [memberEnd]
  split_ifs <;> omega

/-- A removal that begins before this place and ends behind it gets further. -/
theorem removeMember_progress {start memberStart memberEnd : Nat} (hstart : memberStart ≤ start)
    (hend : start < memberEnd) (hin : start < text.length) :
    (removeMember text memberStart memberEnd).text.length -
      (removeMember text memberStart memberEnd).offset < text.length - start := by
  have hcut : ∀ {removeStart removeEnd : Nat}, removeStart ≤ start → start < removeEnd →
      (replaceRange text removeStart removeEnd []).length - removeStart < text.length - start := by
    intro removeStart removeEnd hstart hend
    rw [length_replaceRange (by omega), List.length_nil]
    omega
  simp only [removeMember]
  split_ifs
  · exact hcut hstart (by omega)
  · exact hcut (by omega) hend
  · exact hcut hstart hend

def requestedSizeSearch : Search Char where
  pattern := requestedSizeKey
  act := scrubRequestedSize
  progress {text start next} hbegins h := by
    have hle := hbegins.length_le
    simp only [List.length_drop] at hle
    have hkey : requestedSizeKey.length = 14 := by decide
    simp only [scrubRequestedSize] at h
    split at h
    · cases h
    have hstart : (if (text.take start).getLast? = some '"' then start - 1 else start) ≤ start := by
      split_ifs <;> omega
    split_ifs at h
    all_goals cases h
    all_goals first
      | exact removeMember_progress (by omega) (Nat.lt_trans (by omega) (lt_memberEnd _ _)) (by omega)
      | (show text.length - (start + requestedSizeKey.length) < text.length - start; omega)

def scrubQemuArgv (arguments : List Char) : List Char := requestedSizeSearch.run arguments

/-! ## Descriptors on the command line -/

def descriptorKeys : List (List Char) := ["fd".toList, "vhostfd".toList, "fds".toList, "vhostfds".toList]

/-- How a value of this key begins, and whether it is quoted. -/
def descriptorLeads (key : List Char) : List (List Char × Bool) :=
  [('"' :: key ++ ['"', ':', '"'], true), ('"' :: key ++ ['"', ':'], false),
    (',' :: key ++ ['='], false), (' ' :: key ++ ['='], false)]

def isNumberChar (c : Char) : Bool := c.isDigit || c == ':'

/-- The number that begins behind this lead: the lead and what follows the number. -/
def numberBehind (rest : List Char) (lead : List Char × Bool) : Option (List Char × List Char) :=
  if lead.1.isPrefixOf rest then
    let after := rest.drop lead.1.length
    let length := (after.takeWhile isNumberChar).length
    let closed := !lead.2 || (after.drop length).head? == some '"'
    if 0 < length && closed then some (lead.1, after.drop length) else none
  else none

/-- The descriptor number that begins here, if one does. -/
def descriptorNumber (rest : List Char) : Option (List Char × List Char) :=
  (descriptorKeys.flatMap descriptorLeads).findSome? (numberBehind rest)

/-- One round of the scan: what has been written, and the rest of the text. -/
def scanDescriptor : List Char × List Char → List Char ⊕ (List Char × List Char)
  | (scrubbed, []) => .inl scrubbed
  | (scrubbed, c :: rest) =>
    match descriptorNumber (c :: rest) with
    | some (lead, after) => .inr (scrubbed ++ lead ++ ['#'], after)
    | none => .inr (scrubbed ++ [c], rest)

theorem drop_takeWhile {p : Char → Bool} (l : List Char) :
    l.drop (l.takeWhile p).length = l.dropWhile p := by
  have h := @List.drop_left _ (l.takeWhile p) (l.dropWhile p)
  rwa [List.takeWhile_append_dropWhile] at h

/-- **A number is the run of digits and colons behind its lead**; a quoted one is closed. -/
theorem numberBehind_append {lead body : List Char} {quoted : Bool} :
    numberBehind (lead ++ body) (lead, quoted) =
      if body.takeWhile isNumberChar ≠ [] ∧
          (quoted = true → (body.dropWhile isNumberChar).head? = some '"') then
        some (lead, body.dropWhile isNumberChar) else none := by
  have hlead : lead.isPrefixOf (lead ++ body) = true := by simp
  simp only [numberBehind, if_pos hlead, List.drop_left, drop_takeWhile]
  have hlength : (0 < (body.takeWhile isNumberChar).length) ↔ body.takeWhile isNumberChar ≠ [] :=
    List.length_pos_iff
  cases quoted <;> simp [hlength]

theorem numberBehind_of_no_lead {lead rest : List Char} {quoted : Bool} (h : ¬lead <+: rest) :
    numberBehind rest (lead, quoted) = none :=
  if_neg fun hlead => h (List.isPrefixOf_iff_prefix.mp hlead)

theorem numberBehind_eq_some {rest after found lead : List Char} {quoted : Bool}
    (h : numberBehind rest (lead, quoted) = some (found, after)) :
    found = lead ∧ ∃ body, rest = lead ++ body ∧ after = body.dropWhile isNumberChar ∧
      body.takeWhile isNumberChar ≠ [] := by
  by_cases hlead : lead <+: rest
  · obtain ⟨body, rfl⟩ := hlead
    rw [numberBehind_append] at h
    split_ifs at h with hnumber
    cases h
    exact ⟨rfl, body, rfl, rfl, hnumber.1⟩
  · rw [numberBehind_of_no_lead hlead] at h
    cases h

/-- What is found is shorter than the text. -/
theorem descriptorNumber_lt {rest lead after : List Char}
    (h : descriptorNumber rest = some (lead, after)) : after.length < rest.length := by
  obtain ⟨⟨lead', quoted⟩, -, hbehind⟩ := List.exists_of_findSome?_eq_some h
  obtain ⟨rfl, body, rfl, rfl, hnumber⟩ := numberBehind_eq_some hbehind
  have hlength := congrArg List.length
    (List.takeWhile_append_dropWhile (p := isNumberChar) (l := body))
  have hpos := List.length_pos_iff.mpr hnumber
  simp only [List.length_append] at hlength ⊢
  omega

def descriptorScan : Loop (List Char × List Char) (List Char) where
  step := scanDescriptor
  size s := s.2.length
  shrinks {s s'} h := by
    obtain ⟨scrubbed, rest⟩ := s
    cases rest with
    | nil => cases h
    | cons c rest =>
      simp only [scanDescriptor] at h
      split at h
      · next lead after hnumber =>
        cases h
        exact descriptorNumber_lt hnumber
      · cases h
        exact Nat.lt_succ_self _

def scrubDescriptorNumbers (arguments : List Char) : List Char := descriptorScan.run ([], arguments)

end VirtioMem.Host
