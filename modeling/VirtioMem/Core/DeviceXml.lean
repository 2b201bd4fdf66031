import VirtioMem.Core.Compatibility
import VirtioMem.Lib.Markup
import VirtioMem.Lib.Word

/-!
# A device in the domain XML

What the host knows of a virtio-mem device it reads from the domain XML, event by event. One parser
reads the text of one device (`parseVirtioMemXml`); the other walks over the whole document, cuts the
devices out of it by depth and byte offsets and has the first one read them
(`parseVirtioMemXmlForAlias`). Both keep what they have seen in a record and fail at the first event
they cannot take.
-/

namespace VirtioMem.Core

open VirtioMem.Markup VirtioMem.Result VirtioMem.Word

structure VirtioMemXmlState where
  aliasName : String
  memory : VirtioMemState
  compatibility : VirtioMemCompatibility
  deriving DecidableEq, Repr

inductive VirtioMemXmlError where
  | invalidXml (error : String)
  | missingMemoryModel
  | unexpectedModel (model : String)
  | missingField (field : String)
  | invalidValue (field value : String)
  | unsupportedUnit (field unit : String)
  | overflow (field : String)
  | aliasNotFound (aliasName : String)
  | duplicateAlias (aliasName : String)
  | invalidState (error : VirtioMemError)
  deriving DecidableEq, Repr

def VirtioMemXmlError.toString : VirtioMemXmlError → String
  | invalidXml error => s!"invalid virtio-mem XML: {error}"
  | missingMemoryModel => "virtio-mem XML does not contain a memory model"
  | unexpectedModel model => s!"virtio-mem XML has an unexpected model: {model}"
  | missingField field => s!"virtio-mem XML is missing {field}"
  | invalidValue field value => s!"virtio-mem XML field {field} has invalid value {value}"
  | unsupportedUnit field unit => s!"virtio-mem XML field {field} uses unsupported unit {unit}"
  | overflow field => s!"virtio-mem XML field {field} overflows when converted to bytes"
  | aliasNotFound aliasName => s!"virtio-mem XML does not contain alias {aliasName}"
  | duplicateAlias aliasName => s!"virtio-mem XML contains alias {aliasName} more than once"
  | invalidState error => error.toString

/-! ## Fields and attributes -/

/-- The sizes of a device. -/
inductive Field where
  | size
  | block
  | requested
  | current
  deriving DecidableEq, Repr

def Field.name : Field → String
  | size => "size"
  | block => "block"
  | requested => "requested"
  | current => "current"

def fieldName (name : String) : Option Field :=
  if name = "size" then some .size
  else if name = "block" ∨ name = "block-size" then some .block
  else if name = "requested" then some .requested
  else if name = "current" then some .current
  else none

inductive FieldUnit where
  | bytes
  | kibibytes
  | mebibytes
  | gibibytes
  deriving DecidableEq, Repr

def FieldUnit.parse (field : Field) (value : Option String) : Except VirtioMemXmlError FieldUnit :=
  let unit := value.getD "B"
  if unit = "B" ∨ unit = "bytes" then .ok bytes
  else if unit = "KiB" then .ok kibibytes
  else if unit = "MiB" then .ok mebibytes
  else if unit = "GiB" then .ok gibibytes
  else .error (.unsupportedUnit field.name unit)

def FieldUnit.multiplier : FieldUnit → Nat
  | bytes => 1
  | kibibytes => bytesPerKib
  | mebibytes => 2 ^ 20
  | gibibytes => 2 ^ 30

def FieldUnit.toBytes (self : FieldUnit) (field : Field) (value : Nat) :
    Except VirtioMemXmlError Nat :=
  if value * self.multiplier ≤ maximum then .ok (value * self.multiplier)
  else .error (.overflow field.name)

/-- A number as the standard library reads it: digits, behind a `+` if one is written. -/
def parseU64 (text : String) : Option Nat :=
  let digits := if text.toList.head? = some '+' then text.toList.tail else text.toList
  if digits = [] ∨ !digits.all Char.isDigit then none
  else if Nat.ofDigitChars 10 digits 0 ≤ maximum then some (Nat.ofDigitChars 10 digits 0) else none

/-- The value of the first attribute of this name. -/
def attributeIn (name : String) : List (Except String Attribute) →
    Except VirtioMemXmlError (Option String)
  | [] => .ok none
  | .error error :: _ => .error (.invalidXml error)
  | .ok first :: rest =>
    if first.key = name then (first.value.map some).mapError .invalidXml
    else attributeIn name rest

def attributeOf (tag : Tag) (name : String) : Except VirtioMemXmlError (Option String) :=
  attributeIn name tag.attributes

def compatibilityAttribute (tag : Tag) (dashedName camelName : String) :
    Except VirtioMemXmlError CompatibilityEvidence := do
  let dashed ← attributeOf tag dashedName
  let camel ← attributeOf tag camelName
  match (dashed.or camel).map fun value => String.ofList (value.toList.map Char.toLower) with
  | none => .ok .unknown
  | some value =>
    if value ∈ ["yes", "on", "true", "1"] then .ok .confirmed
    else if value ∈ ["no", "off", "false", "0"] then .ok .rejected
    else .error (.invalidValue "compatibility attribute" value)

/-! ## One device -/

/-- What the parser of a device has seen. -/
structure DeviceParser where
  memoryDepth : Option Nat
  pending : Option (Field × FieldUnit)
  aliasName : Option String
  compatibility : VirtioMemCompatibility
  values : Field → Option Nat

namespace DeviceParser

def init : DeviceParser where
  memoryDepth := none
  pending := none
  aliasName := none
  compatibility := ⟨.unknown, .unknown, .unknown⟩
  values _ := none

/-- The start tag of a memory element. -/
def startMemory (self : DeviceParser) (tag : Tag) : Except VirtioMemXmlError DeviceParser := do
  let model ← attributeOf tag "model"
  let dynamicMemslots ← compatibilityAttribute tag "dynamic-memslots" "dynamicMemslots"
  let unpluggedInaccessible ←
    compatibilityAttribute tag "unplugged-inaccessible" "unpluggedInaccessible"
  match model with
  | none => .error .missingMemoryModel
  | some model =>
    if model = "virtio-mem" then
      return { self with
        memoryDepth := some 1
        compatibility := { self.compatibility with dynamicMemslots, unpluggedInaccessible } }
    else .error (.unexpectedModel model)

/-- A start tag inside of it. -/
def startInside (self : DeviceParser) (tag : Tag) : Except VirtioMemXmlError DeviceParser :=
  if tag.name = "alias" then do return { self with aliasName := ← attributeOf tag "name" }
  else match fieldName tag.name with
    | none => .ok self
    | some field => do
        let unit ← FieldUnit.parse field (← attributeOf tag "unit")
        return { self with pending := some (field, unit) }

def deeper (self : DeviceParser) : DeviceParser :=
  { self with memoryDepth := self.memoryDepth.map (· + 1) }

/-- Text is the value of the field that waits for one. -/
def value (self : DeviceParser) (field : Field) (unit : FieldUnit) (content : String) :
    Except VirtioMemXmlError DeviceParser := do
  let value ← okOr (parseU64 content) (.invalidValue field.name content)
  let bytes ← unit.toBytes field value
  return { self with pending := none, values := Function.update self.values field (some bytes) }

def step (self : DeviceParser) : Event → Except VirtioMemXmlError DeviceParser
  | .start tag =>
    if tag.name = "memory" then self.startMemory tag
    else if self.memoryDepth.isSome then (self.startInside tag).map deeper
    else .ok self
  | .empty tag =>
    if self.memoryDepth.isSome ∧ tag.name = "alias" then do
      return { self with aliasName := ← attributeOf tag "name" }
    else .ok self
  | .text content =>
    match self.pending with
    | none => .ok self
    | some (field, unit) => self.value field unit content
  | .close name =>
    if name = "memory" then .ok { self with memoryDepth := none }
    else .ok { self with memoryDepth := self.memoryDepth.map (· - 1) }
  | .other _ => .ok self
  | .failed error => .error (.invalidXml error)

def bytes (self : DeviceParser) (field : Field) : Except VirtioMemXmlError Nat :=
  okOr (self.values field) (.missingField field.name)

/-- The state, once everything is read. -/
def finish (self : DeviceParser) : Except VirtioMemXmlError VirtioMemXmlState := do
  let aliasName ← okOr self.aliasName (.missingField "alias")
  let sizeBytes ← self.bytes .size
  let blockSizeBytes ← self.bytes .block
  let requestedBytes ← self.bytes .requested
  let currentBytes ← self.bytes .current
  let memory : VirtioMemState := { sizeBytes, blockSizeBytes, requestedBytes, currentBytes }
  memory.validate.mapError .invalidState
  return { aliasName, memory, compatibility := self.compatibility }

end DeviceParser

/-- Read the text of one device. -/
def parseVirtioMemXml (xml : List Token) : Except VirtioMemXmlError VirtioMemXmlState := do
  let parser ← (trimmed xml).foldlM DeviceParser.step .init
  parser.finish

/-! ## The device of an alias -/

/-- Where the walk over the document stands, and what it has found. -/
structure DeviceSearch where
  position : Nat
  candidateStart : Option Nat
  candidateDepth : Nat
  selected : Option VirtioMemXmlState

namespace DeviceSearch

def init : DeviceSearch where
  position := 0
  candidateStart := none
  candidateDepth := 0
  selected := none

/-- A device that has been read; its alias may occur only once. -/
def select (selected : Option VirtioMemXmlState) (expectedAlias : String)
    (snapshot : VirtioMemXmlState) : Except VirtioMemXmlError (Option VirtioMemXmlState) :=
  if snapshot.aliasName = expectedAlias then
    if selected.isSome then .error (.duplicateAlias expectedAlias) else .ok (some snapshot)
  else .ok selected

def step (xml : List Token) (expectedAlias : String) (self : DeviceSearch) (token : Token) :
    Except VirtioMemXmlError DeviceSearch :=
  let eventStart := self.position
  let self := { self with position := self.position + token.bytes }
  match token.event, self.candidateStart with
  | .start _, some _ => .ok { self with candidateDepth := self.candidateDepth + 1 }
  | .start tag, none =>
    if tag.name = "memory" then do
      if (← attributeOf tag "model") = some "virtio-mem" then
        return { self with candidateStart := some eventStart, candidateDepth := 1 }
      else return self
    else .ok self
  | .close _, some start =>
    if self.candidateDepth - 1 = 0 then do
      let snapshot ← parseVirtioMemXml (slice xml start self.position)
      let selected ← select self.selected expectedAlias snapshot
      return { self with candidateStart := none, candidateDepth := 0, selected }
    else .ok { self with candidateDepth := self.candidateDepth - 1 }
  | .failed error, _ => .error (.invalidXml error)
  | _, _ => .ok self

end DeviceSearch

/-- Read exactly the device of this alias. -/
def parseVirtioMemXmlForAlias (xml : List Token) (expectedAlias : String) :
    Except VirtioMemXmlError VirtioMemXmlState := do
  let search ← xml.foldlM (DeviceSearch.step xml expectedAlias) .init
  okOr search.selected (.aliasNotFound expectedAlias)

end VirtioMem.Core
