import Mathlib.Algebra.GroupWithZero.Nat
import Mathlib.Data.List.Basic

/-!
# Markup as a reader delivers it

A reader turns a text into events: start and end tags, empty elements, runs of text, and what its users
pass over. Here a text is the list of its tokens, an event each with the bytes it takes, so that it can
be cut at byte offsets as its users do (`slice`). A reader may trim the runs of text (`trimmed`).

`Content` is well-nested markup: every start tag has its end tag. What holds of all of it is proved by
induction on it, and `Content.tokens` is how it is written.

Nothing here knows what the tags mean.
-/

namespace VirtioMem.Markup

/-- The value of an attribute, unless the reader refuses it. -/
structure Attribute where
  key : String
  value : Except String String

/-- A name with attributes, up to the first that the reader cannot make out. -/
structure Tag where
  name : String
  attributes : List (Except String Attribute)

inductive Event where
  | start (tag : Tag)
  | empty (tag : Tag)
  | text (content : String)
  | close (name : String)
  /-- A comment, a declaration, a reference or anything else that is passed over, and what it adds to
  the text around it: a reference or a CDATA section does, a comment does not. -/
  | other (content : String)
  | failed (error : String)

/-- A number of bytes that are really there. -/
abbrev Bytes : Type := { n : Nat // 0 < n }

structure Token where
  event : Event
  bytes : Bytes

/-- The length of a text. -/
def size (xml : List Token) : Nat := (xml.map fun token => (token.bytes : Nat)).sum

/-! ## Cutting -/

def skip : Nat → List Token → List Token
  | _, [] => []
  | offset, token :: xml => if offset = 0 then token :: xml else skip (offset - token.bytes) xml

def upTo : Nat → List Token → List Token
  | _, [] => []
  | length, token :: xml => if length = 0 then [] else token :: upTo (length - token.bytes) xml

/-- The text between two offsets. -/
def slice (xml : List Token) (start stop : Nat) : List Token := upTo (stop - start) (skip start xml)

@[simp] theorem size_nil : size [] = 0 := rfl

@[simp] theorem size_cons (token : Token) (xml : List Token) :
    size (token :: xml) = token.bytes + size xml := rfl

@[simp] theorem size_append (front back : List Token) :
    size (front ++ back) = size front + size back := by simp [size]

theorem skip_append (front back : List Token) : skip (size front) (front ++ back) = back := by
  induction front with
  | nil => cases back <;> rfl
  | cons token front ih =>
    have := token.bytes.2
    rw [List.cons_append, skip, if_neg (by simp only [size_cons]; omega), size_cons,
      Nat.add_sub_cancel_left, ih]

theorem upTo_append (front back : List Token) : upTo (size front) (front ++ back) = front := by
  induction front with
  | nil => cases back <;> rfl
  | cons token front ih =>
    have := token.bytes.2
    rw [List.cons_append, upTo, if_neg (by simp only [size_cons]; omega), size_cons,
      Nat.add_sub_cancel_left, ih]

/-- A piece is found between its offsets. -/
theorem slice_append (front piece back : List Token) :
    slice (front ++ (piece ++ back)) (size front) (size front + size piece) = piece := by
  rw [slice, Nat.add_sub_cancel_left, skip_append, upTo_append]

/-! ## Trimming -/

def isBlank (c : Char) : Bool := c == ' ' || c == '\t' || c == '\r' || c == '\n'

def trim (content : String) : String :=
  .ofList ((content.toList.dropWhile isBlank).reverse.dropWhile isBlank).reverse

/-- The event as a trimming reader delivers it; text that is all blank is not delivered. -/
def Event.trimmed : Event → Option Event
  | .text content => if (trim content).isEmpty then none else some (.text (trim content))
  | event => some event

/-- What a trimming reader delivers. -/
def trimmed (xml : List Token) : List Event := xml.filterMap fun token => token.event.trimmed

/-! ## Well-nested markup -/

inductive Content where
  | nil
  | text (content : String) (bytes : Bytes) (next : Content)
  | empty (tag : Tag) (bytes : Bytes) (next : Content)
  | other (content : String) (bytes : Bytes) (next : Content)
  | element (tag : Tag) (opened : Bytes) (content : Content) (closed : Bytes) (next : Content)

namespace Content

def tokens : Content → List Token
  | nil => []
  | text content bytes next => ⟨.text content, bytes⟩ :: next.tokens
  | empty tag bytes next => ⟨.empty tag, bytes⟩ :: next.tokens
  | other content bytes next => ⟨.other content, bytes⟩ :: next.tokens
  | element tag opened content closed next =>
      ⟨.start tag, opened⟩ :: (content.tokens ++ ⟨.close tag.name, closed⟩ :: next.tokens)

end Content

end VirtioMem.Markup
