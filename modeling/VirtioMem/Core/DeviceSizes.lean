import VirtioMem.Core.DeviceXml

/-!
# Whose text a size is

The parser of a device gives a text to the field whose start tag it read last. Nothing takes the field
back when its element ends, so an element without text gets the text of a later one; an element inside
of a field answers for it, and so does the first piece of a text that a comment cuts in two.

`Reading` follows the parser through the events and notes of every text that is taken the text of the
element it was taken for. What the parser ends with is what was taken last (`Agrees.run`), and what is
noted is the text of an element of the field (`Owning.run`); so where the two are the same, the sizes
are those of the right elements, and they must be the same where a size can be written in one way only
(`sizesOwn_spec`).
-/

namespace VirtioMem.Core

open VirtioMem.Markup VirtioMem.Result VirtioMem.Word

/-! ## The texts of elements -/

/-- The text that stands directly in an element, from somewhere in it on: `inside` elements are open
there. -/
def ownText : Nat → List Event → String
  | _, [] => ""
  | 0, .text content :: rest => content ++ ownText 0 rest
  | 0, .other content :: rest => content ++ ownText 0 rest
  | 0, .close _ :: _ => ""
  | inside + 1, .close _ :: rest => ownText inside rest
  | inside, .start _ :: rest => ownText (inside + 1) rest
  | inside, _ :: rest => ownText inside rest

/-- The elements, each with the text that stands directly in it. -/
def elements : List Event → List (Tag × String)
  | [] => []
  | .start tag :: rest => (tag, ownText 0 rest) :: elements rest
  | _ :: rest => elements rest

/-- The bytes that a text in an element of the field stands for. -/
def amount (field : Field) (tag : Tag) (content : String) : Option Nat :=
  match attributeOf tag "unit" >>= FieldUnit.parse field, parseU64 content with
  | .ok unit, some value => (unit.toBytes field value).toOption
  | _, _ => none

/-- The field has this size in an element of its own. -/
def HasSize (events : List Event) (field : Field) (bytes : Nat) : Prop :=
  ∃ element ∈ elements events, fieldName element.1.name = some field ∧
    amount field element.1 element.2 = some bytes

def VirtioMemState.sizeOf (self : VirtioMemState) : Field → Nat
  | .size => self.sizeBytes
  | .block => self.blockSizeBytes
  | .requested => self.requestedBytes
  | .current => self.currentBytes

/-- Where the device is accepted, every size is that of an element of its own; so none of the four is
without one. -/
def SizesOwn (xml : List Token) : Prop :=
  ∀ state, parseVirtioMemXml xml = .ok state →
    ∀ field, HasSize (trimmed xml) field (state.memory.sizeOf field)

/-! ## Which text is taken -/

/-- A text that was taken for a field: the start tag it was taken for, the text of the element which that
tag opens, and what was taken. -/
structure Taken where
  tag : Tag
  own : String
  content : String

/-- What is to be known of the reading to tell. -/
structure Reading where
  active : Bool
  /-- The field that waits, its start tag, and the text of its element. -/
  pending : Option (Field × Tag × String)
  last : Field → Option Taken

namespace Reading

def init : Reading where
  active := false
  pending := none
  last _ := none

/-- An event, with those that are still to come. -/
def step (self : Reading) (rest : List Event) : Event → Reading
  | .start tag =>
    if tag.name = "memory" then { self with active := true }
    else
      match self.active, fieldName tag.name with
      | true, some field => { self with pending := some (field, tag, ownText 0 rest) }
      | _, _ => self
  | .text content =>
    match self.pending with
    | none => self
    | some (field, tag, own) =>
      { self with
        pending := none
        last := Function.update self.last field (some ⟨tag, own, content⟩) }
  | .close name => { self with active := if name = "memory" then false else self.active }
  | _ => self

def run (self : Reading) : List Event → Reading
  | [] => self
  | event :: rest => (self.step rest event).run rest

end Reading

/-- The text that was taken last for a field. -/
def lastTaken (events : List Event) (field : Field) : Option Taken :=
  (Reading.init.run events).last field

/-- What is taken last for a field is the text of the very element it is taken for. -/
def TakesOwn (events : List Event) : Prop :=
  ∀ field taken, lastTaken events field = some taken → taken.content = taken.own

/-- Every field has one element at most, and a number is written in the shortest way, as the tools write
one. -/
structure Plain (events : List Event) : Prop where
  single : ∀ field, ∀ element ∈ elements events, ∀ other ∈ elements events,
    fieldName element.1.name = some field → fieldName other.1.name = some field → element = other
  shortest : ∀ text value, .text text ∈ events ∨ (∃ tag, (tag, text) ∈ elements events) →
    parseU64 text = some value → text = toString value

/-! ## The parser and the reading -/

/-- The field that waits in the parser is the one that waits in the reading, with its unit. -/
def SamePending : Option (Field × FieldUnit) → Option (Field × Tag × String) → Prop
  | none, none => True
  | some (field, unit), some (field', tag, _) =>
      field = field' ∧ attributeOf tag "unit" >>= FieldUnit.parse field = .ok unit
  | _, _ => False

/-- A value of the parser is what the text taken last for it stands for. -/
def SameValue (field : Field) (value : Option Nat) (taken : Option Taken) : Prop :=
  (value = none ∧ taken = none) ∨ ∃ bytes text, value = some bytes ∧ taken = some text ∧
    amount field text.tag text.content = some bytes

structure Agrees (parser : DeviceParser) (reading : Reading) : Prop where
  active : parser.memoryDepth.isSome = reading.active
  pending : SamePending parser.pending reading.pending
  values : ∀ field, SameValue field (parser.values field) (reading.last field)

theorem Agrees.init : Agrees .init .init where
  active := rfl
  pending := trivial
  values _ := .inl ⟨rfl, rfl⟩

/-- **What a start tag of a memory element changes.** -/
theorem startMemory_eq_ok {parser parser' : DeviceParser} {tag : Tag}
    (h : parser.startMemory tag = .ok parser') :
    ∃ compatibility, parser' = { parser with memoryDepth := some 1, compatibility } := by
  unfold DeviceParser.startMemory at h
  obtain ⟨model, -, h⟩ := bind_eq_ok.mp h
  obtain ⟨dynamicMemslots, -, h⟩ := bind_eq_ok.mp h
  obtain ⟨unpluggedInaccessible, -, h⟩ := bind_eq_ok.mp h
  cases model with
  | none => cases h
  | some model =>
    dsimp only at h
    split at h
    · exact ⟨_, (Except.ok.inj h).symm⟩
    · cases h

/-- What any other start tag inside a memory element changes. -/
theorem startInside_eq_ok {parser parser' : DeviceParser} {tag : Tag}
    (h : parser.startInside tag = .ok parser') :
    (fieldName tag.name = none ∧ ∃ aliasName, parser' = { parser with aliasName }) ∨
      ∃ field unit, fieldName tag.name = some field ∧
        attributeOf tag "unit" >>= FieldUnit.parse field = .ok unit ∧
        parser' = { parser with pending := some (field, unit) } := by
  unfold DeviceParser.startInside at h
  split at h
  next hname =>
    obtain ⟨aliasName, -, h⟩ := bind_eq_ok.mp h
    refine .inl ⟨?_, aliasName, (Except.ok.inj h).symm⟩
    rw [hname]
    decide
  · cases hfield : fieldName tag.name with
    | none =>
      rw [hfield] at h
      exact .inl ⟨rfl, parser.aliasName, (Except.ok.inj h).symm⟩
    | some field =>
      rw [hfield] at h
      obtain ⟨value, hvalue, h⟩ := bind_eq_ok.mp h
      obtain ⟨unit, hunit, h⟩ := bind_eq_ok.mp h
      exact .inr ⟨field, unit, rfl, bind_eq_ok.mpr ⟨value, hvalue, hunit⟩, (Except.ok.inj h).symm⟩

/-- A text stands for what its unit makes of it. -/
theorem value_eq_ok {parser parser' : DeviceParser} {field : Field} {unit : FieldUnit} {tag : Tag}
    {content : String} (hunit : attributeOf tag "unit" >>= FieldUnit.parse field = .ok unit)
    (h : parser.value field unit content = .ok parser') :
    ∃ bytes, amount field tag content = some bytes ∧
      parser' = { parser with
        pending := none, values := Function.update parser.values field (some bytes) } := by
  unfold DeviceParser.value at h
  obtain ⟨value, hvalue, h⟩ := bind_eq_ok.mp h
  obtain ⟨bytes, hbytes, h⟩ := bind_eq_ok.mp h
  refine ⟨bytes, ?_, (Except.ok.inj h).symm⟩
  rw [amount, hunit, okOr_eq_ok.mp hvalue]
  dsimp only
  rw [hbytes]
  rfl

theorem Agrees.step {parser parser' : DeviceParser} {reading : Reading} {event : Event}
    (h : Agrees parser reading) (hstep : parser.step event = .ok parser') (rest : List Event) :
    Agrees parser' (reading.step rest event) := by
  -- Where the parser goes on, the reading has taken the same branch.
  cases event with
  | start tag =>
    simp only [DeviceParser.step] at hstep
    simp only [Reading.step]
    by_cases hmemory : tag.name = "memory"
    · rw [if_pos hmemory] at hstep ⊢
      obtain ⟨compatibility, rfl⟩ := startMemory_eq_ok hstep
      exact ⟨rfl, h.pending, h.values⟩
    rw [if_neg hmemory, h.active] at hstep
    rw [if_neg hmemory]
    cases hactive : reading.active with
    | false =>
      rw [hactive] at hstep
      obtain rfl := Except.ok.inj hstep
      exact h
    | true =>
      rw [hactive, if_pos rfl] at hstep
      cases hinside : parser.startInside tag with
      | error error =>
        rw [hinside] at hstep
        cases hstep
      | ok next =>
        rw [hinside] at hstep
        obtain rfl := Except.ok.inj hstep
        rcases startInside_eq_ok hinside with
          ⟨hfield, aliasName, rfl⟩ | ⟨field, unit, hfield, hunit, rfl⟩ <;> rw [hfield]
        · exact ⟨by simp [DeviceParser.deeper, h.active, hactive], h.pending, h.values⟩
        · exact ⟨by simp [DeviceParser.deeper, h.active, hactive], ⟨rfl, hunit⟩, h.values⟩
  | empty tag =>
    simp only [DeviceParser.step] at hstep
    split at hstep
    · obtain ⟨aliasName, -, hstep⟩ := bind_eq_ok.mp hstep
      obtain rfl := Except.ok.inj hstep
      exact ⟨h.active, h.pending, h.values⟩
    · obtain rfl := Except.ok.inj hstep
      exact h
  | text content =>
    simp only [DeviceParser.step] at hstep
    simp only [Reading.step]
    have hpending := h.pending
    rcases hread : reading.pending with _ | ⟨field, tag, own⟩ <;>
      rcases hparser : parser.pending with _ | ⟨field', unit⟩ <;> rw [hread, hparser] at hpending
    · rw [hparser] at hstep
      obtain rfl := Except.ok.inj hstep
      exact ⟨h.active, by rw [hread, hparser]; trivial, h.values⟩
    · cases hpending
    · cases hpending
    · obtain ⟨rfl, hunit⟩ := hpending
      rw [hparser] at hstep
      -- The text of a pending size goes to its own field.
      obtain ⟨bytes, hamount, rfl⟩ := value_eq_ok hunit hstep
      refine ⟨h.active, trivial, fun other => ?_⟩
      by_cases hother : other = field'
      · subst hother
        simp only [Function.update_self]
        exact .inr ⟨bytes, _, rfl, rfl, hamount⟩
      · simpa only [Function.update_of_ne hother] using h.values other
  | close name =>
    simp only [DeviceParser.step] at hstep
    simp only [Reading.step]
    split at hstep
    next hname =>
      obtain rfl := Except.ok.inj hstep
      exact ⟨by rw [if_pos hname]; rfl, h.pending, h.values⟩
    next hname =>
      obtain rfl := Except.ok.inj hstep
      exact ⟨by rw [if_neg hname, ← h.active]; simp, h.pending, h.values⟩
  | other =>
    obtain rfl := Except.ok.inj hstep
    exact h
  | failed error => cases hstep

theorem Agrees.run {events : List Event} {parser parser' : DeviceParser} {reading : Reading}
    (h : Agrees parser reading) (hrun : events.foldlM DeviceParser.step parser = .ok parser') :
    Agrees parser' (reading.run events) := by
  induction events generalizing parser reading with
  | nil =>
    obtain rfl := Except.ok.inj hrun
    exact h
  | cons event events ih =>
    obtain ⟨next, hstep, hrun⟩ := bind_eq_ok.mp hrun
    exact ih (h.step hstep events) hrun

/-! ## The reading and the elements -/

/-- What waits and what was taken last belong to an element of the field, and a text that was taken is one
of the events. -/
structure Owning (events : List Event) (reading : Reading) : Prop where
  pending : ∀ field tag own, reading.pending = some (field, tag, own) →
    fieldName tag.name = some field ∧ (tag, own) ∈ elements events
  last : ∀ field taken, reading.last field = some taken →
    fieldName taken.tag.name = some field ∧ (taken.tag, taken.own) ∈ elements events ∧
      .text taken.content ∈ events

theorem Owning.init (events : List Event) : Owning events .init where
  pending _ _ _ h := by cases h
  last _ _ h := by cases h

theorem Owning.step {events rest : List Event} {event : Event} {reading : Reading}
    (h : Owning events reading) (hevent : event ∈ events)
    (hahead : elements (event :: rest) ⊆ elements events) :
    Owning events (reading.step rest event) := by
  cases event with
  | start tag =>
    simp only [Reading.step]
    split
    · exact ⟨h.pending, h.last⟩
    split
    next hactive hfield =>
      refine ⟨?_, h.last⟩
      rintro _ _ _ ⟨⟩
      exact ⟨hfield, hahead List.mem_cons_self⟩
    · exact h
  | text content =>
    simp only [Reading.step]
    split
    · exact h
    next field tag own hpending =>
      refine ⟨by simp, fun other taken htaken => ?_⟩
      by_cases hother : other = field
      · subst hother
        simp only [Function.update_self] at htaken
        obtain rfl := (Option.some.inj htaken).symm
        obtain ⟨hfield, hmem⟩ := h.pending other tag own hpending
        exact ⟨hfield, hmem, hevent⟩
      · simp only [Function.update_of_ne hother] at htaken
        exact h.last other taken htaken
  | close name => exact ⟨h.pending, h.last⟩
  | empty | other | failed => exact h

theorem elements_subset_cons (event : Event) (rest : List Event) :
    elements rest ⊆ elements (event :: rest) := by
  cases event with
  | start tag => exact List.subset_cons_self _ _
  | empty | text | close | other | failed => exact List.Subset.refl _

theorem Owning.run {events rest : List Event} {reading : Reading} (h : Owning events reading)
    (hrest : rest ⊆ events) (hahead : elements rest ⊆ elements events) :
    Owning events (reading.run rest) := by
  induction rest generalizing reading with
  | nil => exact h
  | cons event rest ih =>
    refine ih (h.step (hrest List.mem_cons_self) hahead) ?_ ?_
    · exact fun other hother => hrest (List.mem_cons_of_mem _ hother)
    · exact List.Subset.trans (elements_subset_cons event rest) hahead

/-- **What was taken last was taken for an element of the field.** -/
theorem lastTaken_owned {events : List Event} {field : Field} {taken : Taken}
    (h : lastTaken events field = some taken) :
    fieldName taken.tag.name = some field ∧ (taken.tag, taken.own) ∈ elements events ∧
      .text taken.content ∈ events :=
  ((Owning.init events).run (List.Subset.refl _) (List.Subset.refl _)).last field taken h

/-! ## Whose text it is -/

theorem finish_eq_ok {parser : DeviceParser} {state : VirtioMemXmlState}
    (h : parser.finish = .ok state) (field : Field) :
    parser.values field = some (state.memory.sizeOf field) := by
  unfold DeviceParser.finish at h
  obtain ⟨aliasName, -, h⟩ := bind_eq_ok.mp h
  obtain ⟨sizeBytes, hsize, h⟩ := bind_eq_ok.mp h
  obtain ⟨blockSizeBytes, hblock, h⟩ := bind_eq_ok.mp h
  obtain ⟨requestedBytes, hrequested, h⟩ := bind_eq_ok.mp h
  obtain ⟨currentBytes, hcurrent, h⟩ := bind_eq_ok.mp h
  obtain ⟨-, -, h⟩ := bind_eq_ok.mp h
  obtain rfl := Except.ok.inj h
  cases field with
  | size => exact okOr_eq_ok.mp hsize
  | block => exact okOr_eq_ok.mp hblock
  | requested => exact okOr_eq_ok.mp hrequested
  | current => exact okOr_eq_ok.mp hcurrent

/-- **Every size is that of the text taken last.** -/
theorem parseVirtioMemXml_eq_ok {xml : List Token} {state : VirtioMemXmlState}
    (h : parseVirtioMemXml xml = .ok state) (field : Field) :
    ∃ taken, lastTaken (trimmed xml) field = some taken ∧
      amount field taken.tag taken.content = some (state.memory.sizeOf field) := by
  obtain ⟨parser, hrun, hfinish⟩ := bind_eq_ok.mp h
  have hvalue := (Agrees.init.run hrun).values field
  rw [finish_eq_ok hfinish field] at hvalue
  rcases hvalue with ⟨hnone, -⟩ | ⟨bytes, taken, hbytes, htaken, hamount⟩
  · cases hnone
  · exact ⟨taken, htaken, by rw [hamount, hbytes]⟩

/-- A number of bytes was read from a number in the unit of its tag. -/
theorem amount_eq_some {field : Field} {tag : Tag} {content : String} {bytes : Nat}
    (h : amount field tag content = some bytes) :
    ∃ unit value, attributeOf tag "unit" >>= FieldUnit.parse field = .ok unit ∧
      parseU64 content = some value ∧ bytes = value * unit.multiplier := by
  unfold amount at h
  split at h
  next unit value hunit hvalue =>
    refine ⟨unit, value, hunit, hvalue, ?_⟩
    unfold FieldUnit.toBytes at h
    split at h
    · cases h
      rfl
    · cases h
  · cases h

/-- One unit makes different numbers of different ones. -/
theorem value_of_amount {field : Field} {tag : Tag} {content content' : String} {bytes : Nat}
    (h : amount field tag content = some bytes) (h' : amount field tag content' = some bytes) :
    ∃ value, parseU64 content = some value ∧ parseU64 content' = some value := by
  obtain ⟨unit, value, hunit, hvalue, rfl⟩ := amount_eq_some h
  obtain ⟨unit', value', hunit', hvalue', hbytes⟩ := amount_eq_some h'
  obtain rfl : unit = unit' := Except.ok.inj (hunit.symm.trans hunit')
  have hpos : 0 < unit.multiplier := by cases unit <;> decide
  obtain rfl := Nat.eq_of_mul_eq_mul_right hpos hbytes
  exact ⟨value, hvalue, hvalue'⟩

/-- **When the sizes are the device's own.** It is enough that in a device that is accepted the text
taken last for each field is the text of the very element it is taken for; and where every field has one
element and numbers are written in the shortest way, nothing less will do. -/
theorem sizesOwn_spec (xml : List Token) :
    (((∃ state, parseVirtioMemXml xml = .ok state) → TakesOwn (trimmed xml)) → SizesOwn xml) ∧
      (Plain (trimmed xml) →
        (SizesOwn xml ↔ ((∃ state, parseVirtioMemXml xml = .ok state) → TakesOwn (trimmed xml)))) := by
  have henough : ((∃ state, parseVirtioMemXml xml = .ok state) → TakesOwn (trimmed xml)) →
      SizesOwn xml := by
    intro htakes state hstate field
    obtain ⟨taken, htaken, hamount⟩ := parseVirtioMemXml_eq_ok hstate field
    obtain ⟨hfield, hmem, -⟩ := lastTaken_owned htaken
    rw [htakes ⟨state, hstate⟩ field taken htaken] at hamount
    exact ⟨_, hmem, hfield, hamount⟩
  refine ⟨henough, fun hplain => ⟨?_, henough⟩⟩
  rintro hown ⟨state, hstate⟩ field taken htaken
  obtain ⟨taken', htaken', hamount⟩ := parseVirtioMemXml_eq_ok hstate field
  obtain rfl : taken = taken' := Option.some.inj (htaken.symm.trans htaken')
  obtain ⟨hfield, hmem, htext⟩ := lastTaken_owned htaken
  -- The element that says the size can only be the one that the text was taken for.
  obtain ⟨element, helement, hname, hsays⟩ := hown state hstate field
  obtain rfl := hplain.single field element helement _ hmem hname hfield
  obtain ⟨value, hcontent, hvalue⟩ := value_of_amount hamount hsays
  rw [hplain.shortest taken.content value (.inl htext) hcontent,
    hplain.shortest taken.own value (.inr ⟨_, hmem⟩) hvalue]

/-- A start tag with the unit, what is in the element, and its end tag. -/
def exampleField (name : String) (content : List Event) : List Event :=
  .start ⟨name, [.ok ⟨"unit", .ok "MiB"⟩]⟩ :: content ++ [.close name]

/-- A device of 2 MiB blocks, with this for its size. -/
def deviceOfSize (size : List Event) : List Token :=
  ([Event.start ⟨"memory", [.ok ⟨"model", .ok "virtio-mem"⟩]⟩] ++ size ++
    exampleField "block" [.text "2"] ++ exampleField "requested" [.text "4"] ++
    exampleField "current" [.text "4"] ++
    [Event.empty ⟨"alias", [.ok ⟨"name", .ok "ua-virtio-mem0"⟩]⟩, Event.close "memory"]).map
      fun event => ⟨event, ⟨1, Nat.one_pos⟩⟩

/-- A device whose size element is without text. -/
def exampleDevice : List Token :=
  deviceOfSize (exampleField "size" [] ++ exampleField "node" [.text "8"])

/-- The node number becomes the size. -/
theorem node_taken_for_size :
    parseVirtioMemXml exampleDevice = .ok
      { aliasName := "ua-virtio-mem0"
        memory := ⟨8 * 2 ^ 20, 2 * 2 ^ 20, 4 * 2 ^ 20, 4 * 2 ^ 20⟩
        compatibility := ⟨.unknown, .unknown, .unknown⟩ } ∧
      ¬SizesOwn exampleDevice := by
  have hparse : parseVirtioMemXml exampleDevice = .ok
      { aliasName := "ua-virtio-mem0"
        memory := ⟨8 * 2 ^ 20, 2 * 2 ^ 20, 4 * 2 ^ 20, 4 * 2 ^ 20⟩
        compatibility := ⟨.unknown, .unknown, .unknown⟩ } := by decide +kernel
  refine ⟨hparse, fun hown => ?_⟩
  have hnone : ¬HasSize (trimmed exampleDevice) .size (8 * 2 ^ 20) := by
    unfold HasSize
    decide +kernel
  exact hnone (hown _ hparse .size)

/-- A size of 8192 MiB with a comment in its middle is read as 8 MiB. -/
example : (parseVirtioMemXml (deviceOfSize (exampleField "size" [.text "8", .other "", .text "192"]))).map
      (·.memory.sizeBytes) = .ok (8 * 2 ^ 20) ∧
    ¬HasSize (trimmed (deviceOfSize (exampleField "size" [.text "8", .other "", .text "192"]))) .size
      (8 * 2 ^ 20) := by
  unfold HasSize
  decide +kernel

end VirtioMem.Core
