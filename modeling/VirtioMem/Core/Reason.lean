import VirtioMem.Core.Journal

/-!
# Reasons that were bounded before

A journal bounds the reason of every result it stores, so that the text of an external error cannot make
a result unrecordable. A terminal result may then be recorded again, and is compared with the one that
is stored: this needs a bounded reason to be left as it is when it is bounded again.

It nearly is. Joined words are read back from their text, and so is every beginning of them but one: a
cut behind a space leaves the space at the end, where the next time it is dropped. `CutsBehindSpace` are
the texts with such a cut, and `boundedReason_fixed_iff` says that there are no others.
-/

namespace VirtioMem.Core

open VirtioMem.Text

/-- What stands between the words of a reason. -/
def separatesReason (c : Char) : Bool := isControl c || isWhitespace c

def reasonWords (text : String) : List (List Char) := words separatesReason text.toList

/-- The words of a reason with single spaces between them. -/
def joinedReason (text : String) : List Char := [' '].intercalate (reasonWords text)

theorem boundedReason_eq (text : String) :
    boundedReason text = if takeBytes maxReasonBytes (joinedReason text) = [] then "unspecified"
      else String.ofList (takeBytes maxReasonBytes (joinedReason text)) := rfl

/-- **The texts whose reason is cut behind a space**: the first words and the space behind them fit,
and the first character of the next word does not. -/
def CutsBehindSpace (text : String) : Prop :=
  ∃ front c word rest, reasonWords text = front ++ (c :: word) :: rest ∧ front ≠ [] ∧
    (String.ofList ([' '].intercalate front)).utf8ByteSize + 1 ≤ maxReasonBytes ∧
    maxReasonBytes < (String.ofList ([' '].intercalate front)).utf8ByteSize + 1 + c.utf8Size

variable {text : String}

theorem space_separates : separatesReason ' ' = true := by decide

theorem reasonWords_spec : ∀ word ∈ reasonWords text, word ≠ [] ∧
    ∀ c ∈ word, separatesReason c = false := fun word hword =>
  ⟨by simpa using (List.mem_filter.mp hword).2, not_separator_of_mem_words hword⟩

theorem intercalate_append {front rest : List (List Char)} {next : List Char} (hfront : front ≠ []) :
    [' '].intercalate (front ++ next :: rest) =
      [' '].intercalate front ++ ' ' :: [' '].intercalate (next :: rest) := by
  induction front with
  | nil => exact absurd rfl hfront
  | cons word front ih =>
      cases front with
      | nil => simp [List.intercalate_cons_cons]
      | cons other front =>
          have hrest := ih (List.cons_ne_nil _ _)
          rw [List.cons_append] at hrest
          rw [List.cons_append, List.cons_append, List.intercalate_cons_cons, hrest,
            List.intercalate_cons_cons]
          simp

/-- What is joined begins with the first character of its first word. -/
theorem intercalate_head {c : Char} {word : List Char} {rest : List (List Char)} :
    ∃ more, [' '].intercalate ((c :: word) :: rest) = c :: more := by
  cases rest with
  | nil => exact ⟨word, by simp⟩
  | cons next rest => exact ⟨_, by rw [List.intercalate_cons_cons]; rfl⟩

theorem joined_ne_nil {kept : List (List Char)} (hne : kept ≠ [])
    (hkept : ∀ word ∈ kept, word ≠ [] ∧ ∀ c ∈ word, separatesReason c = false) :
    [' '].intercalate kept ≠ [] := by
  obtain ⟨word, rest, rfl⟩ := List.exists_cons_of_ne_nil hne
  obtain ⟨c, word, rfl⟩ := List.exists_cons_of_ne_nil (hkept word List.mem_cons_self).1
  obtain ⟨more, hmore⟩ := @intercalate_head c word rest
  rw [hmore]
  exact List.cons_ne_nil _ _

/-- **Where a cut falls.** It leaves joined words, or it falls behind a space. -/
theorem cut_cases (text : String) :
    (∃ kept : List (List Char), (∀ word ∈ kept, word ≠ [] ∧ ∀ c ∈ word, separatesReason c = false) ∧
      takeBytes maxReasonBytes (joinedReason text) = [' '].intercalate kept) ∨
    CutsBehindSpace text ∧ ∃ front : List (List Char), front ≠ [] ∧
      (∀ word ∈ front, word ≠ [] ∧ ∀ c ∈ word, separatesReason c = false) ∧
      takeBytes maxReasonBytes (joinedReason text) = [' '].intercalate front ++ [' '] := by
  rcases prefix_intercalate reasonWords_spec (takeBytes_isPrefix maxReasonBytes (joinedReason text))
    with hkept | ⟨front, next, rest, hwords, hfront, hcut⟩
  · exact .inl hkept
  have hspec : ∀ word ∈ front ++ next :: rest, word ≠ [] ∧ ∀ c ∈ word, separatesReason c = false :=
    hwords ▸ reasonWords_spec
  refine .inr ⟨?_, front, hfront, fun word hword => hspec word (List.mem_append_left _ hword), hcut⟩
  obtain ⟨c, word, rfl⟩ := List.exists_cons_of_ne_nil (hspec next (by simp)).1
  obtain ⟨more, hmore⟩ := @intercalate_head c word rest
  have hjoined : joinedReason text = [' '].intercalate front ++ [' '] ++ c :: more := by
    rw [joinedReason, hwords, intercalate_append hfront, hmore]
    simp
  have hfits := size_takeBytes maxReasonBytes (joinedReason text)
  have hrest := takeBytes_rest (hcut ▸ hjoined :
    joinedReason text = takeBytes maxReasonBytes (joinedReason text) ++ c :: more)
  rw [hcut, String.ofList_append, String.utf8ByteSize_append] at hfits hrest
  exact ⟨front, c, word, rest, hwords, hfront, hfits, hrest⟩

theorem CutsBehindSpace.cut (h : CutsBehindSpace text) : ∃ front : List (List Char), front ≠ [] ∧
    (∀ word ∈ front, word ≠ [] ∧ ∀ c ∈ word, separatesReason c = false) ∧
    takeBytes maxReasonBytes (joinedReason text) = [' '].intercalate front ++ [' '] := by
  obtain ⟨front, c, word, rest, hwords, hfront, hfits, hover⟩ := h
  have hspec : ∀ part ∈ front ++ (c :: word) :: rest,
      part ≠ [] ∧ ∀ c ∈ part, separatesReason c = false := hwords ▸ reasonWords_spec
  refine ⟨front, hfront, fun part hpart => hspec part (List.mem_append_left _ hpart), ?_⟩
  obtain ⟨more, hmore⟩ := @intercalate_head c word rest
  have hsize : (String.ofList ([' '].intercalate front ++ [' '])).utf8ByteSize =
      (String.ofList ([' '].intercalate front)).utf8ByteSize + 1 := by
    rw [String.ofList_append, String.utf8ByteSize_append]
    rfl
  rw [joinedReason, hwords, intercalate_append hfront, hmore,
    show [' '].intercalate front ++ ' ' :: c :: more =
      ([' '].intercalate front ++ [' ']) ++ c :: more by simp,
    takeBytes_append (hsize.trans_le hfits), takeBytes, if_neg (by rw [hsize]; omega), List.append_nil]

/-- Joined words that fit are a reason as they are. -/
theorem boundedReason_joined {kept : List (List Char)} (hne : kept ≠ [])
    (hkept : ∀ word ∈ kept, word ≠ [] ∧ ∀ c ∈ word, separatesReason c = false)
    (hfits : (String.ofList ([' '].intercalate kept)).utf8ByteSize ≤ maxReasonBytes)
    (hwords : reasonWords text = kept) :
    boundedReason text = String.ofList ([' '].intercalate kept) := by
  rw [boundedReason_eq, joinedReason, hwords, takeBytes_of_fits hfits]
  exact if_neg (joined_ne_nil hne hkept)

/-- **A bounded reason stays as it is**, unless it was cut behind a space. -/
theorem boundedReason_fixed_iff (text : String) :
    boundedReason (boundedReason text) = boundedReason text ↔ ¬CutsBehindSpace text := by
  have hsize := size_takeBytes maxReasonBytes (joinedReason text)
  constructor
  · intro hfixed hcuts
    obtain ⟨front, hfront, hspec, hcut⟩ := hcuts.cut
    have hreason : boundedReason text = String.ofList ([' '].intercalate front ++ [' ']) := by
      rw [boundedReason_eq, hcut, if_neg (by simp)]
    rw [hcut, String.ofList_append, String.utf8ByteSize_append] at hsize
    -- Bounded again, the space at the end is dropped.
    have hagain := @boundedReason_joined (boundedReason text) front hfront hspec
      (Nat.le_of_add_right_le hsize) (by
        rw [hreason, reasonWords, String.toList_ofList, words_concat space_separates,
          words_intercalate space_separates hspec])
    rw [hfixed, hreason] at hagain
    have hlength := congrArg (fun s => s.toList.length) hagain
    simp at hlength
  · intro hcuts
    rcases cut_cases text with ⟨kept, hspec, hcut⟩ | ⟨habsurd, -⟩
    · rw [hcut] at hsize
      by_cases hne : kept = []
      · have hreason : boundedReason text = "unspecified" := by
          rw [boundedReason_eq, hcut, hne]
          rfl
        rw [hreason]
        decide +kernel
      · have hreason : boundedReason text = String.ofList ([' '].intercalate kept) := by
          rw [boundedReason_eq, hcut, if_neg (joined_ne_nil hne hspec)]
        rw [boundedReason_joined hne hspec hsize (by
          rw [hreason, reasonWords, String.toList_ofList, words_intercalate space_separates hspec])]
        exact hreason.symm
    · exact absurd habsurd hcuts

/-! ## Recording a result again -/

namespace MemoryRequestJournal

variable {journal held : MemoryRequestJournal} {result stored : MemoryResult}

/-- A stored terminal result can be stored again only if its reason stays as it is. -/
theorem recordResult_again (hvalid : journal.Valid) (hstored : journal.result = some stored)
    (hterminal : stored.terminal = true) :
    journal.recordResult stored = (.ok (), journal) ↔
      stored.reason.map boundedReason = stored.reason := by
  constructor
  · intro hrecord
    obtain ⟨-, -, -, hprevious⟩ := recordResult_ok hrecord
    exact congrArg MemoryResult.reason ((hprevious stored hstored).1 hterminal).symm
  · intro hreason
    obtain ⟨request, hrequest, hfor⟩ := hvalid.result stored hstored
    have hsame : { stored with reason := stored.reason.map boundedReason } = stored := by
      rw [hreason]
    unfold recordResult
    simp only [validate_eq_ok.mpr hvalid, hrequest, hsame, hfor, hstored, ne_eq, not_true_eq_false,
      and_false, if_false, lt_irrefl]
    rw [← hstored, ← hrequest]

/-- **A bounded reason is a normal form unless it was cut behind a space.** It is never empty, fits, is
free of control characters and a beginning of its joined words as long as can be. Bounding it again
changes nothing exactly where no cut falls behind a space, and exactly then a terminal result with such
a reason can be recorded again. -/
theorem recorded_again_iff (text : String) :
    MemoryResult.invalidReason (boundedReason text) = false ∧
    (reasonWords text = [] ∧ boundedReason text = "unspecified" ∨
      (boundedReason text).toList <+: joinedReason text ∧
      ∀ c rest, joinedReason text = (boundedReason text).toList ++ c :: rest →
        maxReasonBytes < (boundedReason text).utf8ByteSize + c.utf8Size) ∧
    (boundedReason (boundedReason text) = boundedReason text ↔ ¬CutsBehindSpace text) ∧
    ∀ (journal journal' held : MemoryRequestJournal) (result : MemoryResult),
      journal.recordResult result = (.ok (), journal') →
      result.terminal = true → held.Valid → held.result = journal'.result →
      ∃ stored, held.result = some stored ∧
        (held.recordResult stored = (.ok (), held) ↔
          ∀ reason, result.reason = some reason → ¬CutsBehindSpace reason) := by
  refine ⟨MemoryResult.boundedReason_valid text, ?_, boundedReason_fixed_iff text, ?_⟩
  · by_cases hwords : reasonWords text = []
    · left
      refine ⟨hwords, ?_⟩
      rw [boundedReason_eq, joinedReason, hwords]
      rfl
    · right
      -- The first character always fits.
      have hne : takeBytes maxReasonBytes (joinedReason text) ≠ [] := by
        obtain ⟨c, more, hjoined⟩ :=
          List.exists_cons_of_ne_nil (joined_ne_nil hwords reasonWords_spec)
        have hfits : c.utf8Size ≤ maxReasonBytes := (Char.utf8Size_le_four c).trans (by decide)
        rw [joinedReason, hjoined, takeBytes, if_pos hfits]
        exact List.cons_ne_nil _ _
      rw [boundedReason_eq, if_neg hne, String.toList_ofList]
      exact ⟨takeBytes_isPrefix _ _, fun c rest => takeBytes_rest⟩
  · intro journal journal' held result hrecord hterminal hvalid hheld
    obtain ⟨-, rfl, -, -⟩ := recordResult_ok hrecord
    refine ⟨_, hheld, ?_⟩
    rw [recordResult_again hvalid hheld hterminal]
    cases hreason : result.reason with
    | none => simp
    | some reason => simpa using boundedReason_fixed_iff reason

theorem short_not_cut : ¬CutsBehindSpace "pool exhausted" :=
  (recorded_again_iff "pool exhausted").2.2.1.mp (by decide +kernel)

/-- A word that fills a reason but for one byte. -/
@[irreducible] def longWord : List Char := List.replicate (maxReasonBytes - 1) 'a'

def longText : String := String.ofList ([' '].intercalate [longWord, ['b']])

theorem longWord_letter {c : Char} (h : c ∈ longWord) : c = 'a' := by
  rw [longWord] at h
  exact List.eq_of_mem_replicate h

theorem longWord_size : (String.ofList longWord).utf8ByteSize = maxReasonBytes - 1 := by
  have hgraphic : ∀ c ∈ (String.ofList longWord).toList, isGraphic c = true := by
    intro c hc
    rw [String.toList_ofList] at hc
    rw [longWord_letter hc]
    decide
  rw [size_graphic hgraphic, String.toList_ofList, longWord, List.length_replicate]

theorem longText_cutsBehindSpace : CutsBehindSpace longText := by
  have hne : longWord ≠ [] := List.ne_nil_of_length_pos (by
    rw [longWord, List.length_replicate]
    decide)
  refine ⟨[longWord], 'b', [], [], ?_, List.cons_ne_nil _ _, ?_, ?_⟩
  · rw [reasonWords, longText, String.toList_ofList]
    refine words_intercalate space_separates fun part hpart => ?_
    rcases List.mem_cons.mp hpart with rfl | hpart
    · refine ⟨hne, fun c hc => ?_⟩
      rw [longWord_letter hc]
      decide
    · rw [List.mem_singleton.mp hpart]
      refine ⟨List.cons_ne_nil _ _, fun c hc => ?_⟩
      rw [List.mem_singleton.mp hc]
      decide
  · rw [List.intercalate_singleton, longWord_size]
    decide
  · rw [List.intercalate_singleton, longWord_size]
    decide

/-- A request that is refused. -/
def refusedRequest : MemoryRequest where
  version := 1
  identity := ⟨"vm", "service", "session", 1⟩
  operation := .add
  bytes := 1
  issuedUnixMillis := 10
  expiresUnixMillis := 1010

/-- What a refusal stores. -/
def refusedJournal (reason : String) : MemoryRequestJournal :=
  ⟨some refusedRequest, some (.rejected refusedRequest 20 (boundedReason reason))⟩

theorem refusedRequest_valid : refusedRequest.Valid := MemoryRequest.validate_eq_ok.mp (by decide)

theorem refused_validateFor (reason : String) :
    (MemoryResult.rejected refusedRequest 20 (boundedReason reason)).validateFor refusedRequest =
      .ok () :=
  @MemoryResult.validateFor_bounded (.rejected refusedRequest 20 reason) refusedRequest_valid
    (Nat.succ_ne_zero 19) (Nat.zero_le _) rfl

theorem refused_recorded (reason : String) :
    recordResult ⟨some refusedRequest, none⟩ (.rejected refusedRequest 20 reason) =
      (.ok (), refusedJournal reason) := by
  have hjournal : validate ⟨some refusedRequest, none⟩ = .ok () := by decide
  unfold recordResult
  simp only [hjournal]
  rw [show ({ MemoryResult.rejected refusedRequest 20 reason with
      reason := (MemoryResult.rejected refusedRequest 20 reason).reason.map boundedReason } :
        MemoryResult) = .rejected refusedRequest 20 (boundedReason reason) from rfl,
    refused_validateFor]
  rfl

/-- **A stored result that cannot be stored again.** -/
theorem longReason_refused :
    boundedReason (boundedReason longText) ≠ boundedReason longText ∧
    recordResult ⟨some refusedRequest, none⟩ (.rejected refusedRequest 20 longText) =
      (.ok (), refusedJournal longText) ∧
    (refusedJournal longText).recordResult (.rejected refusedRequest 20 (boundedReason longText)) ≠
      (.ok (), refusedJournal longText) := by
  have hmoved : boundedReason (boundedReason longText) ≠ boundedReason longText := fun hfixed =>
    (boundedReason_fixed_iff longText).mp hfixed longText_cutsBehindSpace
  have hvalid : (refusedJournal longText).Valid := by
    refine ⟨fun request hrequest => ?_, fun result hresult => ⟨refusedRequest, rfl, ?_⟩⟩
    · rw [← Option.some.inj hrequest]
      exact refusedRequest_valid
    · rw [← Option.some.inj hresult]
      exact refused_validateFor longText
  refine ⟨hmoved, refused_recorded longText, fun hrecord => ?_⟩
  exact hmoved (Option.some.inj ((recordResult_again hvalid rfl rfl).mp hrecord))

end MemoryRequestJournal

end VirtioMem.Core
