import VirtioMem.Lib.Threads
import Mathlib.Order.Nat

/-!
# Files that are replaced

A directory and its files, as programs see them and as a crash leaves them, and the usual way to change
a file for good: write a temporary file, flush it, rename it over the old one, flush the directory.

A crash leaves anything of a file that was not flushed, and of the directory one of its states since it
was last flushed. Apart from that an operation that fails has done nothing, except that a write may have
been cut and a rename may have been carried out.

`replacer` is the discipline of a program that replaces a file, and `Intact` what it keeps: whatever is
or was in place under the file's name is not written to any more. So a reader that has opened it reads it
whole (`Sealed.step`), and a crash brings back a whole one (`Intact.crash`).
-/

namespace VirtioMem.Files

open VirtioMem.Effect

structure IoError where
  notFound : Bool
  /-- The code of the operating system. -/
  code : Option Nat
  text : String
  deriving DecidableEq, Repr

def noSuchFile : IoError := ⟨true, some 2, "No such file or directory (os error 2)"⟩

variable {N B X : Type} {R : X → Type}

/-- What a program does to files; `X` is whatever else it does. -/
inductive FileOp (N B X : Type) where
  /-- Create a file, or truncate the one that is there, to write to it. -/
  | create (name : N)
  | write (file : Nat) (bytes : List B)
  | sync (file : Nat)
  /-- With `through` it is on disk when the call returns. -/
  | rename (source target : N) (through : Bool)
  | remove (name : N)
  | syncDirectory
  | size (name : N)
  | openFile (name : N)
  | read (file : Nat)
  | outside (op : X)

abbrev FileAns (R : X → Type) : FileOp N B X → Type
  | .create _ => Except IoError Nat
  | .write _ _ | .sync _ | .rename _ _ _ | .remove _ | .syncDirectory => Except IoError Unit
  | .size _ => Except IoError Nat
  | .openFile _ => Except IoError Nat
  | .read _ => Except IoError (List B)
  | .outside op => R op

abbrev FileProg (N B X : Type) (R : X → Type) (α : Type) : Type :=
  Prog (FileOp N B X) (FileAns R) α

/-! ## The file system -/

structure Disk (N B : Type) where
  dir : N → Option Nat
  data : Nat → List B
  /-- Whether what was written is on disk. -/
  flushed : Nat → Bool
  /-- The directory since it was last flushed. -/
  past : List (N → Option Nat)
  /-- The files there are. -/
  used : Nat

namespace Disk

def empty : Disk N B where
  dir := fun _ => none
  data := fun _ => []
  flushed := fun _ => true
  past := [fun _ => none]
  used := 0

/-- What is under a name, in one of the directories. -/
def content (d : Disk N B) (dir : N → Option Nat) (name : N) : Option (List B) :=
  (dir name).map d.data

def holds (d : Disk N B) (name : N) : Option (List B) := d.content d.dir name

def put (d : Disk N B) (file : Nat) (bytes : List B) : Disk N B :=
  { d with
    data := Function.update d.data file bytes
    flushed := Function.update d.flushed file false }

def flush (d : Disk N B) (file : Nat) : Disk N B :=
  { d with flushed := Function.update d.flushed file true }

def flushDirectory (d : Disk N B) : Disk N B := { d with past := [d.dir] }

variable [DecidableEq N]

def link (d : Disk N B) (name : N) (file : Option Nat) : Disk N B :=
  { d with
    dir := Function.update d.dir name file
    past := Function.update d.dir name file :: d.past }

/-- A new file under a name. -/
def make (d : Disk N B) (name : N) : Disk N B :=
  { (d.put d.used []).link name (some d.used) with used := d.used + 1 }

/-- Both names change at once. -/
def move (d : Disk N B) (source target : N) (file : Nat) : Disk N B :=
  let dir := Function.update (Function.update d.dir target (some file)) source none
  { d with dir := dir, past := dir :: d.past }

end Disk

/-- What an operation may be answered, and what it leaves. -/
inductive Disk.Answers [DecidableEq N] (d : Disk N B) :
    (op : FileOp N B X) → FileAns R op → Disk N B → Prop
  | truncated {name : N} {file : Nat} (h : d.dir name = some file) :
      Answers d (.create name) (.ok file) (d.put file [])
  | made {name : N} (h : d.dir name = none) : Answers d (.create name) (.ok d.used) (d.make name)
  | notCreated {name : N} (error : IoError) : Answers d (.create name) (.error error) d
  | written (file : Nat) (bytes : List B) :
      Answers d (.write file bytes) (.ok ()) (d.put file (d.data file ++ bytes))
  | cut (file : Nat) (bytes part : List B) (error : IoError) :
      Answers d (.write file bytes) (.error error) (d.put file (d.data file ++ part))
  | synced (file : Nat) : Answers d (.sync file) (.ok ()) (d.flush file)
  | notSynced (file : Nat) (error : IoError) : Answers d (.sync file) (.error error) d
  | renamed {source target : N} {file : Nat} (h : d.dir source = some file) :
      Answers d (.rename source target false) (.ok ()) (d.move source target file)
  | movedThrough {source target : N} {file : Nat} (h : d.dir source = some file) :
      Answers d (.rename source target true) (.ok ()) (d.move source target file).flushDirectory
  | renamedBut {source target : N} {through : Bool} {file : Nat} (h : d.dir source = some file)
      (error : IoError) :
      Answers d (.rename source target through) (.error error) (d.move source target file)
  | notRenamed (source target : N) (through : Bool) (error : IoError) :
      Answers d (.rename source target through) (.error error) d
  | removed (name : N) : Answers d (.remove name) (.ok ()) (d.link name none)
  | notRemoved (name : N) (error : IoError) : Answers d (.remove name) (.error error) d
  | directorySynced : Answers d .syncDirectory (.ok ()) d.flushDirectory
  | directoryNotSynced (error : IoError) : Answers d .syncDirectory (.error error) d
  | sized {name : N} {file : Nat} (h : d.dir name = some file) :
      Answers d (.size name) (.ok (d.data file).length) d
  | notSized {name : N} {error : IoError} (h : error.notFound = true → d.dir name = none) :
      Answers d (.size name) (.error error) d
  | opened {name : N} {file : Nat} (h : d.dir name = some file) :
      Answers d (.openFile name) (.ok file) d
  | notOpened {name : N} {error : IoError} (h : error.notFound = true → d.dir name = none) :
      Answers d (.openFile name) (.error error) d
  | read (file : Nat) : Answers d (.read file) (.ok (d.data file)) d
  | notRead (file : Nat) (error : IoError) : Answers d (.read file) (.error error) d
  | outside (op : X) (answer : R op) : Answers d (.outside op) answer d

/-- What a crash of the machine leaves. -/
structure Disk.Crash (d d' : Disk N B) : Prop where
  dir : d'.dir ∈ d.past
  past : d'.past = [d'.dir]
  data : ∀ file, d.flushed file = true → d'.data file = d.data file
  flushed : ∀ file, d'.flushed file = true
  used : d'.used = d.used

/-! ## Replacing a file -/

/-- The temporary file as it was written. -/
structure Draft (B : Type) where
  file : Nat
  bytes : List B
  flushed : Bool
  /-- A rename has failed, and may have been carried out. -/
  sent : Bool

/-- Where a replacement stands. -/
structure Replacing (B : Type) where
  draft : Option (Draft B)
  /-- What is in place, where that is known. -/
  visible : Option (Option (List B))
  /-- What may be in place after a crash. -/
  versions : List (Option (List B))

/-- What a program that replaces `path` may do: it writes to a temporary file, and renames it only when
that is `Whole`, and flushed if the replacement has to survive a crash. -/
inductive ReplaceMay (path temporary : N) (durable : Bool) (Whole : List B → Prop) :
    Replacing B → FileOp N B X → Prop
  | create (l : Replacing B) : ReplaceMay path temporary durable Whole l (.create temporary)
  | write {l : Replacing B} {draft : Draft B} {file : Nat} (hdraft : l.draft = some draft)
      (hfile : draft.file = file) (hsent : draft.sent = false) (bytes : List B) :
      ReplaceMay path temporary durable Whole l (.write file bytes)
  | sync {l : Replacing B} {draft : Draft B} {file : Nat} (hdraft : l.draft = some draft)
      (hfile : draft.file = file) : ReplaceMay path temporary durable Whole l (.sync file)
  | rename {l : Replacing B} {draft : Draft B} (hdraft : l.draft = some draft)
      (hwhole : Whole draft.bytes) (hflushed : durable = true → draft.flushed = true)
      (through : Bool) : ReplaceMay path temporary durable Whole l (.rename temporary path through)
  | remove (l : Replacing B) : ReplaceMay path temporary durable Whole l (.remove temporary)
  | syncDirectory (l : Replacing B) : ReplaceMay path temporary durable Whole l .syncDirectory
  | size (l : Replacing B) (name : N) : ReplaceMay path temporary durable Whole l (.size name)
  | openFile (l : Replacing B) (name : N) :
      ReplaceMay path temporary durable Whole l (.openFile name)
  | read (l : Replacing B) (file : Nat) : ReplaceMay path temporary durable Whole l (.read file)
  | outside (l : Replacing B) (op : X) : ReplaceMay path temporary durable Whole l (.outside op)

theorem ReplaceMay.mono {path temporary : N} {durable : Bool} {Written Whole : List B → Prop}
    {l : Replacing B} {op : FileOp N B X}
    (h : ReplaceMay path temporary durable Written l op)
    (hwritten : ∀ bytes, Written bytes → Whole bytes) :
    ReplaceMay path temporary durable Whole l op := by
  cases h with
  | create => exact .create l
  | write hdraft hfile hsent bytes => exact .write hdraft hfile hsent bytes
  | sync hdraft hfile => exact .sync hdraft hfile
  | rename hdraft hbytes hflushed through => exact .rename hdraft (hwritten _ hbytes) hflushed through
  | remove => exact .remove l
  | syncDirectory => exact .syncDirectory l
  | size name => exact .size l name
  | openFile name => exact .openFile l name
  | read file => exact .read l file
  | outside op => exact .outside l op

def Replacing.next (l : Replacing B) : (op : FileOp N B X) → FileAns R op → Replacing B
  | .create _, .ok file => { l with draft := some ⟨file, [], false, false⟩ }
  | .create _, .error _ => { l with draft := none }
  | .write _ bytes, .ok () => { l with
      draft := l.draft.map fun draft =>
        { draft with bytes := draft.bytes ++ bytes, flushed := false } }
  | .write _ _, .error _ => { l with draft := none }
  | .sync _, .ok () => { l with draft := l.draft.map fun draft => { draft with flushed := true } }
  | .rename _ _ through, .ok () =>
    match l.draft with
    | none => l
    | some draft => {
        draft := none
        visible := some (some draft.bytes)
        versions := if through = true then [some draft.bytes] else some draft.bytes :: l.versions }
  | .rename _ _ _, .error _ =>
    match l.draft with
    | none => l
    | some draft => {
        draft := some { draft with sent := true }
        visible := none
        versions := some draft.bytes :: l.versions }
  | .remove _, _ => { l with draft := none }
  | .syncDirectory, .ok () =>
    match l.visible with
    | none => l
    | some content => { l with versions := [content] }
  | _, _ => l

def replacer (path temporary : N) (durable : Bool) (Whole : List B → Prop) :
    Monitor (Replacing B) (FileOp N B X) (FileAns R) where
  may := ReplaceMay path temporary durable Whole
  next := Replacing.next

/-! ## What a replacement keeps -/

/-- The file is not written to any more. -/
structure Sealed (path : N) (durable : Bool) (Whole : List B → Prop) (l : Replacing B) (d : Disk N B)
    (file : Nat) : Prop where
  used : file < d.used
  whole : Whole (d.data file)
  flushed : durable = true → d.flushed file = true
  apart : ∀ name, name ≠ path → d.dir name ≠ some file
  draft : ∀ draft, l.draft = some draft → draft.sent = false → draft.file ≠ file

/-- The draft is what it is remembered as. -/
structure DraftFits (temporary : N) (d : Disk N B) (draft : Draft B) : Prop where
  used : draft.file < d.used
  data : d.data draft.file = draft.bytes
  flushed : draft.flushed = true → d.flushed draft.file = true
  linked : draft.sent = false → d.dir temporary = some draft.file
  only : ∀ file, d.dir temporary = some file → file = draft.file

structure Intact (path temporary : N) (durable : Bool) (Whole : List B → Prop) (l : Replacing B)
    (d : Disk N B) : Prop where
  current : d.dir ∈ d.past
  used : ∀ dir ∈ d.past, ∀ name file, dir name = some file → file < d.used
  alone : ∀ dir ∈ d.past, ∀ name other file, dir name = some file → dir other = some file → name = other
  sealed : ∀ dir ∈ d.past, ∀ file, dir path = some file → Sealed path durable Whole l d file
  draft : ∀ draft, l.draft = some draft → DraftFits temporary d draft
  versions : ∀ dir ∈ d.past, d.content dir path ∈ l.versions
  visible : ∀ content, l.visible = some content → d.holds path = content

section Steps

variable {path temporary : N} {durable : Bool} {Whole : List B → Prop}
  {l l' : Replacing B} {d d' : Disk N B} {file : Nat}

theorem Sealed.of_data (h : Sealed path durable Whole l d file) (hused : d.used ≤ d'.used)
    (hdata : d'.data file = d.data file) (hflushed : d.flushed file = true → d'.flushed file = true)
    (hdir : ∀ name, name ≠ path → d'.dir name = some file → d.dir name = some file)
    (hdraft : ∀ draft, l'.draft = some draft → draft.sent = false → draft.file ≠ file) :
    Sealed path durable Whole l' d' file where
  used := h.used.trans_le hused
  whole := hdata ▸ h.whole
  flushed hdurable := hflushed (h.flushed hdurable)
  apart name hname hlinked := h.apart name hname (hdir name hname hlinked)
  draft := hdraft

/-- Another file is written. -/
theorem Sealed.put (h : Sealed path durable Whole l d file) {other : Nat} {bytes : List B}
    (hother : other ≠ file)
    (hdraft : ∀ draft, l'.draft = some draft → draft.sent = false → draft.file ≠ file) :
    Sealed path durable Whole l' (d.put other bytes) file ∧
      (d.put other bytes).data file = d.data file := by
  have hdata : (d.put other bytes).data file = d.data file := Function.update_of_ne hother.symm _ _
  have hflushed : (d.put other bytes).flushed file = d.flushed file :=
    Function.update_of_ne hother.symm _ _
  exact ⟨h.of_data le_rfl hdata (fun h => hflushed.trans h) (fun _ _ hlinked => hlinked) hdraft, hdata⟩

/-- What the invariant needs of a step; the directory changes at most in one step. -/
theorem Intact.next (h : Intact path temporary durable Whole l d) (hcurrent : d'.dir ∈ d'.past)
    (hpast : ∀ dir ∈ d'.past, (dir ∈ d.past ∧ ∀ content ∈ l.versions, content ∈ l'.versions) ∨
      dir = d'.dir) (hused : d.used ≤ d'.used)
    (hbound : ∀ name file, d'.dir name = some file → file < d'.used)
    (halone : ∀ name other file, d'.dir name = some file → d'.dir other = some file → name = other)
    (hold : ∀ file, Sealed path durable Whole l d file →
      Sealed path durable Whole l' d' file ∧ d'.data file = d.data file)
    (hnew : ∀ file, d'.dir path = some file → Sealed path durable Whole l' d' file)
    (hdraft : ∀ draft, l'.draft = some draft → DraftFits temporary d' draft)
    (hversion : d'.holds path ∈ l'.versions)
    (hvisible : ∀ content, l'.visible = some content → d'.holds path = content) :
    Intact path temporary durable Whole l' d' where
  current := hcurrent
  used dir hdir name file hlinked := by
    rcases hpast dir hdir with ⟨hold, -⟩ | rfl
    · exact (h.used dir hold name file hlinked).trans_le hused
    · exact hbound name file hlinked
  alone dir hdir := by
    rcases hpast dir hdir with ⟨hold, -⟩ | rfl
    · exact h.alone dir hold
    · exact halone
  sealed dir hdir file hlinked := by
    rcases hpast dir hdir with ⟨hdir, -⟩ | rfl
    · exact (hold file (h.sealed dir hdir file hlinked)).1
    · exact hnew file hlinked
  draft := hdraft
  versions dir hdir := by
    rcases hpast dir hdir with ⟨hdir, hversions⟩ | rfl
    · refine hversions _ ?_
      -- An old directory still leads to the same bytes: what it names is sealed.
      have hcontent : d'.content dir path = d.content dir path := by
        unfold Disk.content
        cases hlinked : dir path with
        | none => rfl
        | some file => exact congrArg some (hold file (h.sealed dir hdir file hlinked)).2
      rw [hcontent]
      exact h.versions dir hdir
    · exact hversion
  visible := hvisible

/-- What is in place stays, where its name is not given another file. -/
theorem Intact.holds_eq (h : Intact path temporary durable Whole l d)
    (hplace : d'.dir path = d.dir path)
    (hold : ∀ file, Sealed path durable Whole l d file → d'.data file = d.data file) :
    d'.holds path = d.holds path := by
  unfold Disk.holds Disk.content
  rw [hplace]
  cases hlinked : d.dir path with
  | none => rfl
  | some file => exact congrArg some (hold file (h.sealed _ h.current file hlinked))

/-- Only the draft and its file change. -/
theorem Intact.redraft (h : Intact path temporary durable Whole l d) (hdir : d'.dir = d.dir)
    (hpast : d'.past = d.past) (hused : d'.used = d.used) (hversions : l'.versions = l.versions)
    (hvisible : l'.visible = l.visible)
    (hold : ∀ file, Sealed path durable Whole l d file →
      Sealed path durable Whole l' d' file ∧ d'.data file = d.data file)
    (hdraft : ∀ draft, l'.draft = some draft → DraftFits temporary d' draft) :
    Intact path temporary durable Whole l' d' := by
  have hholds : d'.holds path = d.holds path :=
    h.holds_eq (by rw [hdir]) fun file hsealed => (hold file hsealed).2
  refine h.next (hdir ▸ hpast ▸ h.current) (fun dir hmem => .inl ⟨hpast ▸ hmem, ?_⟩) hused.ge ?_ ?_
    hold ?_ hdraft ?_ ?_
  · exact fun content hcontent => hversions ▸ hcontent
  · rw [hdir, hused]
    exact h.used _ h.current
  · rw [hdir]
    exact h.alone _ h.current
  · rw [hdir]
    exact fun file hlinked => (hold file (h.sealed _ h.current file hlinked)).1
  · rw [hholds, hversions]
    exact h.versions _ h.current
  · rw [hholds, hvisible]
    exact h.visible

variable [DecidableEq N]

/-- **Whoever replaces a file leaves alone what is or was in its place.** -/
theorem Sealed.step {op : FileOp N B X} {answer : FileAns R op} (hne : temporary ≠ path)
    (h : Sealed path durable Whole l d file) (hmay : ReplaceMay path temporary durable Whole l op)
    (hanswers : d.Answers op answer d') :
    Sealed path durable Whole (l.next op answer) d' file ∧ d'.data file = d.data file := by
  -- Nothing under a name other than the temporary one is new.
  have hlink : ∀ name other, name ≠ path → other ≠ some file →
      Function.update d.dir temporary other name = some file → d.dir name = some file := by
    intro name other hname hother hlinked
    by_cases htemporary : name = temporary
    · rw [htemporary, Function.update_self] at hlinked
      exact absurd hlinked hother
    · rwa [Function.update_of_ne htemporary] at hlinked
  have hmove : ∀ name other, name ≠ path →
      Function.update (Function.update d.dir path other) temporary none name = some file →
      d.dir name = some file := by
    intro name other hname hlinked
    by_cases htemporary : name = temporary
    · rw [htemporary, Function.update_self] at hlinked
      cases hlinked
    · rwa [Function.update_of_ne htemporary, Function.update_of_ne hname] at hlinked
  have hkept := h.draft
  cases hmay with
  | create =>
      cases hanswers with
      | truncated hlinked =>
          refine h.put (fun heq => h.apart temporary hne (heq ▸ hlinked)) ?_
          rintro draft ⟨⟩ -
          exact fun heq => h.apart temporary hne (heq ▸ hlinked)
      | made hfree =>
          have hother : d.used ≠ file := h.used.ne'
          have hdata : (d.make temporary).data file = d.data file :=
            Function.update_of_ne hother.symm _ _
          refine ⟨h.of_data (Nat.le_succ _) hdata (fun hflushed => ?_) (fun name hname hlinked => ?_) ?_,
            hdata⟩
          · exact (Function.update_of_ne hother.symm _ _).trans hflushed
          · exact hlink name _ hname (fun heq => hother (Option.some.inj heq)) hlinked
          · rintro draft ⟨⟩ -
            exact hother
      | notCreated error => exact ⟨{ h with draft := by rintro draft ⟨⟩ }, rfl⟩
  | write hdraft hfile hsent bytes =>
      subst hfile
      have hother := hkept _ hdraft hsent
      cases hanswers with
      | written =>
          refine h.put hother fun draft heq _ => ?_
          simp only [Replacing.next, hdraft, Option.map_some] at heq
          cases heq
          exact hother
      -- A write that is cut has spoiled the draft, and nothing else.
      | cut => exact h.put hother (by rintro draft ⟨⟩)
  | sync hdraft hfile =>
      subst hfile
      cases hanswers with
      | synced =>
          refine ⟨h.of_data le_rfl rfl (fun hflushed => ?_) (fun _ _ hlinked => hlinked)
            fun draft heq hsent => ?_, rfl⟩
          · simp only [Disk.flush, Function.update_apply]
            split <;> first | rfl | exact hflushed
          · simp only [Replacing.next, hdraft, Option.map_some] at heq
            cases heq
            have hother := hkept _ hdraft hsent
            exact hother
      | notSynced => exact ⟨h, rfl⟩
  | rename hdraft hwhole hflushed through =>
      have hnone : ∀ draft, (none : Option (Draft B)) = some draft → draft.sent = false →
          draft.file ≠ file := by rintro draft ⟨⟩
      cases hanswers with
      | renamed =>
          refine ⟨h.of_data le_rfl rfl id (fun name hname => hmove name _ hname) ?_, rfl⟩
          simpa only [Replacing.next, hdraft] using hnone
      | movedThrough =>
          refine ⟨h.of_data le_rfl rfl id (fun name hname => hmove name _ hname) ?_, rfl⟩
          simpa only [Replacing.next, hdraft] using hnone
      | renamedBut =>
          refine ⟨h.of_data le_rfl rfl id (fun name hname => hmove name _ hname) ?_, rfl⟩
          -- The draft is remembered as sent, so it need not be another file any more.
          simp only [Replacing.next, hdraft]
          rintro draft ⟨⟩ ⟨⟩
      | notRenamed =>
          refine ⟨h.of_data le_rfl rfl id (fun _ _ hlinked => hlinked) ?_, rfl⟩
          simp only [Replacing.next, hdraft]
          rintro draft ⟨⟩ ⟨⟩
  | remove =>
      cases hanswers with
      | removed =>
          refine ⟨h.of_data le_rfl rfl id (fun name hname => hlink name _ hname (by rintro ⟨⟩))
            (by rintro draft ⟨⟩), rfl⟩
      | notRemoved => exact ⟨{ h with draft := by rintro draft ⟨⟩ }, rfl⟩
  | syncDirectory =>
      cases hanswers with
      | directorySynced =>
          refine ⟨h.of_data le_rfl rfl id (fun _ _ hlinked => hlinked) fun draft hdraft => ?_, rfl⟩
          refine hkept draft (hdraft ▸ ?_)
          simp only [Replacing.next]
          cases l.visible <;> rfl
      | directoryNotSynced => exact ⟨h, rfl⟩
  | size name | openFile name =>
      cases hanswers <;> exact ⟨h, rfl⟩
  | read other =>
      cases hanswers <;> exact ⟨h, rfl⟩
  | outside op =>
      cases hanswers
      exact ⟨h, rfl⟩

/-- The draft is what is in place after a rename. -/
theorem Intact.holds_move (hne : temporary ≠ path) (h : Intact path temporary durable Whole l d)
    {draft : Draft B} (hdraft : l.draft = some draft) (hlinked : d.dir temporary = some file)
    (hdir : d'.dir = (d.move temporary path file).dir) (hdata : d'.data = d.data) :
    d'.holds path = some draft.bytes := by
  have hfits := h.draft draft hdraft
  have hfile := hfits.only file hlinked
  have hplace : d'.dir path = some file := by
    rw [hdir]
    simp [Disk.move, hne.symm]
  unfold Disk.holds Disk.content
  rw [hplace, hdata, Option.map_some, hfile, hfits.data]

/-- The draft takes the place of the file. -/
theorem Intact.move (hne : temporary ≠ path) (h : Intact path temporary durable Whole l d)
    {draft : Draft B} (hdraft : l.draft = some draft) (hwhole : Whole draft.bytes)
    (hflushed : durable = true → draft.flushed = true) (hlinked : d.dir temporary = some file)
    (hdir : d'.dir = (d.move temporary path file).dir)
    (hpast : ∀ dir ∈ d'.past, (dir ∈ d.past ∧ ∀ content ∈ l.versions, content ∈ l'.versions) ∨
      dir = d'.dir) (hcurrent : d'.dir ∈ d'.past) (hdata : d'.data = d.data)
    (hflush : d'.flushed = d.flushed) (hused : d'.used = d.used)
    (hsent : ∀ draft, l'.draft = some draft → draft.sent = true ∧ DraftFits temporary d' draft)
    (hversion : some draft.bytes ∈ l'.versions)
    (hvisible : ∀ content, l'.visible = some content → content = some draft.bytes) :
    Intact path temporary durable Whole l' d' := by
  have hholds := h.holds_move hne hdraft hlinked hdir hdata
  have hfits := h.draft draft hdraft
  have hfile := hfits.only file hlinked
  subst hfile
  have halone := h.alone _ h.current
  have hplace : d'.dir path = some draft.file := by
    rw [hdir]
    simp [Disk.move, hne.symm]
  have hother : ∀ name other, name ≠ path → d'.dir name = some other →
      name ≠ temporary ∧ d.dir name = some other := by
    intro name other hname hother
    rw [hdir] at hother
    simp only [Disk.move] at hother
    by_cases htemporary : name = temporary
    · rw [htemporary, Function.update_self] at hother
      cases hother
    · rw [Function.update_of_ne htemporary, Function.update_of_ne hname] at hother
      exact ⟨htemporary, hother⟩
  have hfree : ∀ name, name ≠ path → d'.dir name ≠ some draft.file := by
    intro name hname hfile
    obtain ⟨htemporary, hfile⟩ := hother name _ hname hfile
    exact htemporary (halone _ _ _ hfile hlinked)
  -- A draft that was sent may be in place already, and is written to no more.
  have hunsent : ∀ file, ∀ draft, l'.draft = some draft → draft.sent = false → draft.file ≠ file := by
    intro file draft hdraft hfalse
    rw [(hsent draft hdraft).1] at hfalse
    cases hfalse
  refine h.next hcurrent hpast hused.ge (fun name other hbound => ?_) (fun name other file hname hfile => ?_)
    (fun other hsealed => ⟨?_, by rw [hdata]⟩) (fun other hother => ?_)
    (fun draft hdraft => (hsent draft hdraft).2) (hholds ▸ hversion)
    (fun content hcontent => hholds.trans (hvisible content hcontent).symm)
  · rw [hused]
    by_cases hname : name = path
    · rw [hname, hplace] at hbound
      cases hbound
      exact hfits.used
    · exact h.used _ h.current _ _ (hother name _ hname hbound).2
  -- Two names of one file: either both are old, or one is the place of the draft.
  · by_cases hpath : name = path
    · by_cases hpath' : other = path
      · rw [hpath, hpath']
      · rw [hpath, hplace] at hname
        cases hname
        exact absurd hfile (hfree other hpath')
    · by_cases hpath' : other = path
      · rw [hpath', hplace] at hfile
        cases hfile
        exact absurd hname (hfree name hpath)
      · exact halone _ _ _ (hother name _ hpath hname).2 (hother other _ hpath' hfile).2
  · exact hsealed.of_data hused.ge (by rw [hdata]) (fun hflushed => by rw [hflush, hflushed])
      (fun name hname hbound => (hother name _ hname hbound).2) (hunsent other)
  · rw [hplace] at hother
    cases hother
    exact {
      used := hused ▸ hfits.used
      whole := by rw [hdata, hfits.data]; exact hwhole
      flushed := fun hdurable => by rw [hflush]; exact hfits.flushed (hflushed hdurable)
      apart := hfree
      draft := hunsent _ }

/-- The temporary name is given a new file, or none. -/
theorem Intact.relink (hne : temporary ≠ path) (h : Intact path temporary durable Whole l d)
    {other : Option Nat} (hdir : d'.dir = Function.update d.dir temporary other)
    (hpast : d'.past = d'.dir :: d.past) (hused : d.used ≤ d'.used)
    (hnew : ∀ file, other = some file → d.used ≤ file ∧ file < d'.used)
    (hversions : l'.versions = l.versions) (hvisible : l'.visible = l.visible)
    (hold : ∀ file, Sealed path durable Whole l d file →
      Sealed path durable Whole l' d' file ∧ d'.data file = d.data file)
    (hdraft : ∀ draft, l'.draft = some draft → DraftFits temporary d' draft) :
    Intact path temporary durable Whole l' d' := by
  have hcurrent := h.current
  have hbound := h.used _ hcurrent
  have hlinks : ∀ name file, d'.dir name = some file →
      name = temporary ∧ d.used ≤ file ∧ file < d'.used ∨ name ≠ temporary ∧ d.dir name = some file := by
    intro name file hlinked
    rw [hdir] at hlinked
    by_cases hname : name = temporary
    · rw [hname, Function.update_self] at hlinked
      exact .inl ⟨hname, hnew file hlinked⟩
    · rw [Function.update_of_ne hname] at hlinked
      exact .inr ⟨hname, hlinked⟩
  have hplace : d'.dir path = d.dir path := by
    rw [hdir]
    exact Function.update_of_ne hne.symm _ _
  have hholds : d'.holds path = d.holds path :=
    h.holds_eq hplace fun file hsealed => (hold file hsealed).2
  refine h.next (hpast ▸ List.mem_cons_self ..) (fun dir hmem => ?_) hused (fun name file hlinked => ?_)
    (fun name other file hname hother => ?_) hold (fun file hlinked => ?_) hdraft
    (by rw [hholds, hversions]; exact h.versions _ hcurrent) (by rw [hholds, hvisible]; exact h.visible)
  · rw [hpast] at hmem
    exact (List.mem_cons.mp hmem).symm.imp_left fun hmem =>
      ⟨hmem, fun content hcontent => hversions ▸ hcontent⟩
  · rcases hlinks name file hlinked with ⟨-, -, hlt⟩ | ⟨-, hlinked⟩
    · exact hlt
    · exact (hbound name file hlinked).trans_le hused
  -- A new file is not below the old bound, so it has no other name.
  · rcases hlinks name file hname with ⟨hname, hle, -⟩ | ⟨-, hlinked⟩ <;>
      rcases hlinks other file hother with ⟨hother, hle', -⟩ | ⟨-, hlinked'⟩
    · rw [hname, hother]
    · exact absurd (hbound _ _ hlinked') hle.not_gt
    · exact absurd (hbound _ _ hlinked) hle'.not_gt
    · exact h.alone _ hcurrent _ _ _ hlinked hlinked'
  · exact (hold file (h.sealed _ hcurrent file (hplace ▸ hlinked))).1

omit [DecidableEq N] in
theorem next_syncDirectory_draft (answer : Except IoError Unit) :
    (l.next (R := R) (.syncDirectory : FileOp N B X) answer).draft = l.draft ∧
      (l.next (R := R) (.syncDirectory : FileOp N B X) answer).visible = l.visible := by
  cases answer with
  | ok => cases hvisible : l.visible <;> simp [Replacing.next, hvisible]
  | error => exact ⟨rfl, rfl⟩

omit [DecidableEq N] in
/-- The directory is flushed. -/
theorem Intact.directorySynced (h : Intact path temporary durable Whole l d)
    (hold : ∀ file, Sealed path durable Whole l d file → Sealed path durable Whole
      (l.next (R := R) (.syncDirectory : FileOp N B X) (.ok ())) d.flushDirectory file ∧
        d.flushDirectory.data file = d.data file) :
    Intact path temporary durable Whole
      (l.next (R := R) (.syncDirectory : FileOp N B X) (.ok ())) d.flushDirectory := by
  have hcurrent := h.current
  obtain ⟨hdraft, hvisible⟩ :=
    @next_syncDirectory_draft N B X R l (.ok ())
  refine h.next (List.mem_cons_self ..) (fun dir hdir => .inr (List.mem_singleton.mp hdir)) le_rfl
    (h.used _ hcurrent) (h.alone _ hcurrent) hold
    (fun file hplace => (hold file (h.sealed _ hcurrent file hplace)).1) (fun draft hsome => ?_) ?_
    (fun content hcontent => h.visible content (hvisible ▸ hcontent))
  · have hfits := h.draft draft (hdraft ▸ hsome)
    exact ⟨hfits.used, hfits.data, hfits.flushed, hfits.linked, hfits.only⟩
  · show d.holds path ∈ _
    simp only [Replacing.next]
    cases hknown : l.visible with
    | none => exact h.versions _ hcurrent
    | some content =>
        rw [h.visible content hknown]
        exact List.mem_cons_self ..

/-- The rename was carried out. -/
theorem mem_moved {dir : N → Option Nat} {content : Option (List B)}
    (h : dir ∈ (d.move temporary path file).past) :
    (dir ∈ d.past ∧ ∀ other ∈ l.versions, other ∈ content :: l.versions) ∨
      dir = (d.move temporary path file).dir :=
  (List.mem_cons.mp h).symm.imp_left fun hmem =>
    ⟨hmem, fun _ hcontent => List.mem_cons_of_mem _ hcontent⟩

/-- **Every step of a replacement keeps what is in place.** -/
theorem Intact.step {op : FileOp N B X} {answer : FileAns R op} (hne : temporary ≠ path)
    (h : Intact path temporary durable Whole l d)
    (hmay : ReplaceMay path temporary durable Whole l op) (hanswers : d.Answers op answer d') :
    Intact path temporary durable Whole (l.next op answer) d' := by
  have hold : ∀ file, Sealed path durable Whole l d file →
      Sealed path durable Whole (l.next op answer) d' file ∧ d'.data file = d.data file :=
    fun file hsealed => hsealed.step hne hmay hanswers
  have hfits := h.draft
  have hcurrent := h.current
  cases hmay with
  | create =>
      cases hanswers with
      | truncated hlinked =>
          refine h.redraft rfl rfl rfl rfl rfl hold ?_
          rintro draft ⟨⟩
          exact ⟨h.used _ hcurrent _ _ hlinked, Function.update_self .., by rintro ⟨⟩, fun _ => hlinked,
            fun file hfile => Option.some.inj (hfile.symm.trans hlinked)⟩
      | made hfree =>
          refine h.relink hne rfl rfl (Nat.le_succ _) (fun file heq => ?_) rfl rfl hold ?_
          · cases heq
            exact ⟨le_rfl, Nat.lt_succ_self _⟩
          · rintro draft ⟨⟩
            have hlinked : (d.make temporary).dir temporary = some d.used := Function.update_self ..
            exact ⟨Nat.lt_succ_self _, Function.update_self .., by rintro ⟨⟩, fun _ => hlinked,
              fun file hfile => Option.some.inj (hfile.symm.trans hlinked)⟩
      | notCreated error => exact h.redraft rfl rfl rfl rfl rfl hold (by rintro draft ⟨⟩)
  | @write draft file hdraft hfile hsent bytes =>
      subst hfile
      have hfits := hfits draft hdraft
      cases hanswers with
      | written =>
          refine h.redraft rfl rfl rfl rfl rfl hold fun draft' hdraft' => ?_
          simp only [Replacing.next, hdraft, Option.map_some] at hdraft'
          cases hdraft'
          refine ⟨hfits.used, ?_, by rintro ⟨⟩, hfits.linked, hfits.only⟩
          rw [← hfits.data]
          exact Function.update_self ..
      | cut => exact h.redraft rfl rfl rfl rfl rfl hold (by rintro draft ⟨⟩)
  | @sync draft file hdraft hfile =>
      subst hfile
      have hfits := hfits draft hdraft
      cases hanswers with
      | synced =>
          refine h.redraft rfl rfl rfl rfl rfl hold fun draft' hdraft' => ?_
          simp only [Replacing.next, hdraft, Option.map_some] at hdraft'
          cases hdraft'
          exact ⟨hfits.used, hfits.data, fun _ => Function.update_self .., hfits.linked, hfits.only⟩
      | notSynced => exact h
  | @rename draft hdraft hwhole hflushed through =>
      have hfits := hfits draft hdraft
      cases hanswers with
      | renamed hlinked =>
          refine h.move hne hdraft hwhole hflushed hlinked rfl (fun dir hdir => ?_)
            (List.mem_cons_self ..) rfl rfl rfl ?_ ?_ ?_ <;> simp only [Replacing.next, hdraft]
          · exact mem_moved hdir
          · rintro draft ⟨⟩
          · exact List.mem_cons_self ..
          · rintro content ⟨⟩
            rfl
      | movedThrough hlinked =>
          refine h.move hne hdraft hwhole hflushed hlinked rfl (fun dir hdir => ?_)
            (List.mem_cons_self ..) rfl rfl rfl ?_ ?_ ?_ <;> simp only [Replacing.next, hdraft]
          · exact .inr (List.mem_singleton.mp hdir)
          · rintro draft ⟨⟩
          · exact List.mem_cons_self ..
          · rintro content ⟨⟩
            rfl
      | renamedBut hlinked =>
          refine h.move hne hdraft hwhole hflushed hlinked rfl (fun dir hdir => ?_)
            (List.mem_cons_self ..) rfl rfl rfl ?_ ?_ ?_ <;> simp only [Replacing.next, hdraft]
          · exact mem_moved hdir
          -- The rename was carried out, so nothing is under the temporary name.
          · rintro draft' ⟨⟩
            refine ⟨rfl, hfits.used, hfits.data, hfits.flushed, by rintro ⟨⟩, fun file hfile => ?_⟩
            rw [show (d.move temporary path _).dir temporary = none from Function.update_self ..] at hfile
            cases hfile
          · exact List.mem_cons_self ..
          · rintro content ⟨⟩
      | notRenamed =>
          -- Nothing has changed, but the replacement no longer knows what is in place.
          refine h.next hcurrent (fun dir hdir => .inl ⟨hdir, fun content hcontent => ?_⟩) le_rfl
            (h.used _ hcurrent) (h.alone _ hcurrent) hold
            (fun file hplace => (hold file (h.sealed _ hcurrent file hplace)).1) ?_ ?_ ?_ <;>
            simp only [Replacing.next, hdraft]
          · exact List.mem_cons_of_mem _ hcontent
          · rintro draft' ⟨⟩
            exact ⟨hfits.used, hfits.data, hfits.flushed, by rintro ⟨⟩, hfits.only⟩
          · exact List.mem_cons_of_mem _ (h.versions _ hcurrent)
          · rintro content ⟨⟩
  | remove =>
      cases hanswers with
      | removed =>
          exact h.relink hne rfl rfl le_rfl (by rintro file ⟨⟩) rfl rfl hold (by rintro draft ⟨⟩)
      | notRemoved => exact h.redraft rfl rfl rfl rfl rfl hold (by rintro draft ⟨⟩)
  | syncDirectory =>
      cases hanswers with
      | directorySynced => exact h.directorySynced hold
      | directoryNotSynced => exact h
  | size name | openFile name =>
      cases hanswers <;> exact h
  | read other =>
      cases hanswers <;> exact h
  | outside op =>
      cases hanswers
      exact h

/-- **A step changes what is in place only by a rename.** -/
theorem Intact.holds_step {Written : List B → Prop} {op : FileOp N B X} {answer : FileAns R op}
    (hne : temporary ≠ path) (h : Intact path temporary durable Whole l d)
    (hmay : ReplaceMay path temporary durable Written l op)
    (hwritten : ∀ bytes, Written bytes → Whole bytes) (hanswers : d.Answers op answer d') :
    d'.holds path = d.holds path ∨ ∃ bytes, Written bytes ∧ d'.holds path = some bytes := by
  have hold : ∀ file, Sealed path durable Whole l d file → d'.data file = d.data file :=
    fun file hsealed => (hsealed.step hne (hmay.mono hwritten) hanswers).2
  have hlinks : ∀ other, Function.update d.dir temporary other path = d.dir path :=
    fun other => Function.update_of_ne hne.symm _ _
  cases hmay with
  | create =>
      left
      cases hanswers with
      | truncated | notCreated => exact h.holds_eq rfl hold
      | made => exact h.holds_eq (hlinks _) hold
  | write | sync =>
      left
      cases hanswers <;> exact h.holds_eq rfl hold
  | @rename draft hdraft hbytes _ through =>
      cases hanswers with
      | renamed hlinked | movedThrough hlinked | renamedBut hlinked =>
          exact .inr ⟨_, hbytes, h.holds_move hne hdraft hlinked rfl rfl⟩
      | notRenamed => exact .inl rfl
  | remove =>
      left
      cases hanswers with
      | removed => exact h.holds_eq (hlinks _) hold
      | notRemoved => rfl
  | syncDirectory | size | openFile | read | outside =>
      left
      cases hanswers <;> rfl

omit [DecidableEq N]

/-- Whoever replaced the file is gone, and another may go on. -/
theorem Intact.restart (h : Intact path temporary durable Whole l d) (temporary' : N) :
    Intact path temporary' durable Whole { l with draft := none } d where
  current := h.current
  used := h.used
  alone := h.alone
  sealed dir hdir file hlinked := { h.sealed dir hdir file hlinked with draft := by rintro draft ⟨⟩ }
  draft := by rintro draft ⟨⟩
  versions := h.versions
  visible := h.visible

/-- **A crash leaves a whole file**, if every file was flushed before it took its place. -/
theorem Intact.crash (h : Intact path temporary true Whole l d) (hcrash : d.Crash d')
    (temporary' : N) : Intact path temporary' true Whole ⟨none, none, l.versions⟩ d' := by
  have hpast : ∀ dir ∈ d'.past, dir = d'.dir := fun dir hdir => by
    rw [hcrash.past] at hdir
    exact List.mem_singleton.mp hdir
  -- The only place where `durable` counts: whatever was ever in place had been flushed.
  have hdata : ∀ file, d'.dir path = some file → d'.data file = d.data file := fun file hlinked =>
    hcrash.data file ((h.sealed _ hcrash.dir file hlinked).flushed rfl)
  exact {
    current := hcrash.past ▸ List.mem_cons_self ..
    used := fun dir hdir name file hlinked => by
      rw [hpast dir hdir] at hlinked
      rw [hcrash.used]
      exact h.used _ hcrash.dir name file hlinked
    alone := fun dir hdir => by
      rw [hpast dir hdir]
      exact h.alone _ hcrash.dir
    sealed := fun dir hdir file hlinked => by
      rw [hpast dir hdir] at hlinked
      have hsealed := h.sealed _ hcrash.dir file hlinked
      exact {
        used := hcrash.used ▸ hsealed.used
        whole := hdata file hlinked ▸ hsealed.whole
        flushed := fun _ => hcrash.flushed file
        apart := fun name hname hother =>
          hname (h.alone _ hcrash.dir name path file hother hlinked)
        draft := by rintro draft ⟨⟩ }
    draft := by rintro draft ⟨⟩
    versions := fun dir hdir => by
      rw [hpast dir hdir]
      have hcontent : d'.content d'.dir path = d.content d'.dir path := by
        unfold Disk.content
        cases hlinked : d'.dir path with
        | none => rfl
        | some file => exact congrArg some (hdata file hlinked)
      rw [hcontent]
      exact h.versions _ hcrash.dir
    visible := by rintro content ⟨⟩ }

end Steps

theorem intact_empty (path temporary : N) (durable : Bool) (Whole : List B → Prop) :
    Intact path temporary durable Whole ⟨none, some none, [none]⟩ (.empty : Disk N B) where
  current := List.mem_cons_self ..
  used dir hdir name file hlinked := by
    rw [List.mem_singleton.mp hdir] at hlinked
    cases hlinked
  alone dir hdir name other file hlinked := by
    rw [List.mem_singleton.mp hdir] at hlinked
    cases hlinked
  sealed dir hdir file hlinked := by
    rw [List.mem_singleton.mp hdir] at hlinked
    cases hlinked
  draft := by rintro draft ⟨⟩
  versions dir hdir := by
    rw [List.mem_singleton.mp hdir]
    exact List.mem_cons_self ..
  visible := by
    rintro content ⟨⟩
    rfl

/-! ## One program after the other -/

/-- A program alone, to its end or cut anywhere. -/
inductive Disk.Run [DecidableEq N] {α : Type} :
    Disk N B → FileProg N B X R α → Option α → Disk N B → Prop
  | done (d : Disk N B) (value : α) : Run d (.pure value) (some value) d
  | cut (d : Disk N B) (program : FileProg N B X R α) : Run d program none d
  | step {d d' d'' : Disk N B} {op : FileOp N B X} {answer : FileAns R op}
      {resume : FileAns R op → FileProg N B X R α} {result : Option α}
      (hanswers : d.Answers op answer d') (h : Run d' (resume answer) result d'') :
      Run d (.perform op resume) result d''

/-- A program that was answered goes on from there. -/
theorem Disk.Run.ask [DecidableEq N] {α : Type} {d d' : Disk N B} {op : FileOp N B X}
    {next : FileAns R op → FileProg N B X R α} {value : α}
    (h : d.Run (Prog.ask op >>= next) (some value) d') :
    ∃ answer d₁, d.Answers op answer d₁ ∧ d₁.Run (next answer) (some value) d' := by
  change d.Run (.perform op next) _ _ at h
  cases h with
  | step hanswers h => exact ⟨_, _, hanswers, h⟩

/-- A program that has ended changes nothing. -/
theorem Disk.Run.ended [DecidableEq N] {α : Type} {d d' : Disk N B} {value value' : α}
    (h : d.Run (pure value : FileProg N B X R α) (some value') d') : value' = value := by
  cases h
  rfl

/-- A file system where nothing fails; `outside` answers the rest. -/
def Disk.serve [DecidableEq N] (outside : (op : X) → R op) (d : Disk N B) :
    (op : FileOp N B X) → FileAns R op × Disk N B
  | .create name =>
    match d.dir name with
    | none => (.ok d.used, d.make name)
    | some file => (.ok file, d.put file [])
  | .write file bytes => (.ok (), d.put file (d.data file ++ bytes))
  | .sync file => (.ok (), d.flush file)
  | .rename source target through =>
    match d.dir source, through with
    | none, _ => (.error noSuchFile, d)
    | some file, false => (.ok (), d.move source target file)
    | some file, true => (.ok (), (d.move source target file).flushDirectory)
  | .remove name => (.ok (), d.link name none)
  | .syncDirectory => (.ok (), d.flushDirectory)
  | .size name =>
    match d.dir name with
    | none => (.error noSuchFile, d)
    | some file => (.ok (d.data file).length, d)
  | .openFile name =>
    match d.dir name with
    | none => (.error noSuchFile, d)
    | some file => (.ok file, d)
  | .read file => (.ok (d.data file), d)
  | .outside op => (outside op, d)

theorem Disk.serve_answers [DecidableEq N] (outside : (op : X) → R op) (d : Disk N B)
    (op : FileOp N B X) : d.Answers op (d.serve outside op).1 (d.serve outside op).2 := by
  cases op with
  | create name =>
      simp only [Disk.serve]
      cases hplace : d.dir name with
      | none => exact .made hplace
      | some file => exact .truncated hplace
  | write file bytes => exact .written file bytes
  | sync file => exact .synced file
  | rename source target through =>
      simp only [Disk.serve]
      cases hplace : d.dir source with
      | none => exact .notRenamed source target through _
      | some file =>
          cases through with
          | false => exact .renamed hplace
          | true => exact .movedThrough hplace
  | remove name => exact .removed name
  | syncDirectory => exact .directorySynced
  | size name =>
      simp only [Disk.serve]
      cases hplace : d.dir name with
      | none => exact .notSized fun _ => hplace
      | some file => exact .sized hplace
  | openFile name =>
      simp only [Disk.serve]
      cases hplace : d.dir name with
      | none => exact .notOpened fun _ => hplace
      | some file => exact .opened hplace
  | read file => exact .read file
  | outside op => exact .outside op _

/-- A program that nothing fails. -/
theorem Disk.Run.served [DecidableEq N] {α : Type} (outside : (op : X) → R op)
    {program : FileProg N B X R α} {d : Disk N B} {value : α}
    (hvalue : (program.simulate (Disk.serve outside) d).2.1 = value) :
    d.Run program (some value) (program.simulate (Disk.serve outside) d).2.2 := by
  subst hvalue
  induction program generalizing d with
  | pure value => exact .done d value
  | perform op resume ih => exact .step (d.serve_answers outside op) (ih _)

/-- The disk when a program that nothing fails is cut after its first `k` operations. -/
def Disk.servedFor [DecidableEq N] {α : Type} (outside : (op : X) → R op) :
    Nat → FileProg N B X R α → Disk N B → Disk N B
  | k + 1, .perform op resume, d =>
    servedFor outside k (resume (d.serve outside op).1) (d.serve outside op).2
  | _, _, d => d

theorem Disk.Run.servedFor [DecidableEq N] {α : Type} (outside : (op : X) → R op) (k : Nat)
    (program : FileProg N B X R α) (d : Disk N B) :
    d.Run program none (d.servedFor outside k program) := by
  induction k generalizing program d with
  | zero => exact .cut d program
  | succ k ih =>
      cases program with
      | pure value => exact .cut d _
      | perform op resume => exact .step (d.serve_answers outside op) (ih _ _)

/-- What a crash leaves where everything written is on disk but the names are those of `dir`. -/
def Disk.reverted (d : Disk N B) (dir : N → Option Nat) : Disk N B :=
  { d with
    dir := dir
    past := [dir]
    flushed := fun _ => true }

theorem Disk.reverted_crash {d : Disk N B} {dir : N → Option Nat} (h : dir ∈ d.past) :
    d.Crash (d.reverted dir) where
  dir := h
  past := rfl
  data _ _ := rfl
  flushed _ := rfl
  used := rfl

/-- Nothing else may be in place, nor will be after a crash. -/
structure Replacing.Within (allowed : Option (List B) → Prop) (l : Replacing B) : Prop where
  versions : ∀ content ∈ l.versions, allowed content
  visible : ∀ content, l.visible = some content → allowed content

section Within

variable {path temporary : N} {durable : Bool} {Whole : List B → Prop} {l : Replacing B}
  {d d' : Disk N B} {allowed allowed' : Option (List B) → Prop}

theorem Replacing.Within.mono (h : l.Within allowed)
    (hallowed : ∀ content, allowed content → allowed' content) : l.Within allowed' where
  versions content hcontent := hallowed _ (h.versions content hcontent)
  visible content hcontent := hallowed _ (h.visible content hcontent)

theorem Replacing.Within.step {op : FileOp N B X} (answer : FileAns R op) (h : l.Within allowed)
    (hwhole : ∀ bytes, Whole bytes → allowed (some bytes))
    (hmay : ReplaceMay path temporary durable Whole l op) : (l.next op answer).Within allowed := by
  cases hmay with
  | create | remove => cases answer <;> exact ⟨h.versions, h.visible⟩
  | write => cases answer <;> exact ⟨h.versions, h.visible⟩
  | sync => cases answer <;> exact ⟨h.versions, h.visible⟩
  | @rename draft hdraft hbytes _ through =>
      have hnew := hwhole _ hbytes
      have hcons : ∀ content ∈ some draft.bytes :: l.versions, allowed content := by
        intro content hmem
        rcases List.mem_cons.mp hmem with rfl | hmem
        · exact hnew
        · exact h.versions content hmem
      cases answer with
      | ok =>
          simp only [Replacing.next, hdraft]
          refine ⟨?_, by rintro content ⟨⟩; exact hnew⟩
          cases through with
          | true => simpa using hnew
          | false => simpa using hcons
      | error =>
          simp only [Replacing.next, hdraft]
          exact ⟨hcons, by rintro content ⟨⟩⟩
  | syncDirectory =>
      cases answer with
      | ok =>
          simp only [Replacing.next]
          cases hvisible : l.visible with
          | none => exact h
          | some content =>
              refine ⟨?_, fun other hother => h.visible other (hvisible.trans hother)⟩
              simpa using h.visible content hvisible
      | error => exact h
  | size | openFile | read => cases answer <;> exact h
  | outside => exact h

/-- What is on disk is within what may be. -/
theorem Replacing.Within.holds (h : l.Within allowed)
    (hintact : Intact path temporary durable Whole l d) : allowed (d.holds path) :=
  h.versions _ (hintact.versions _ hintact.current)

/-- Nothing is in place but what may be. -/
theorem Intact.sharpen {Whole' : List B → Prop} (h : Intact path temporary durable Whole l d)
    (hwithin : l.Within allowed) (hallowed : ∀ bytes, allowed (some bytes) → Whole' bytes) :
    Intact path temporary durable Whole' l d where
  current := h.current
  used := h.used
  alone := h.alone
  sealed dir hdir file hlinked := by
    have hsealed := h.sealed dir hdir file hlinked
    have hcontent : d.content dir path = some (d.data file) := by rw [Disk.content, hlinked]; rfl
    refine ⟨hsealed.used, hallowed _ ?_, hsealed.flushed, hsealed.apart, hsealed.draft⟩
    exact hcontent ▸ hwithin.versions _ (h.versions dir hdir)
  draft := h.draft
  versions := h.versions
  visible := h.visible

/-- **A replacement that ends or is cut leaves a whole file**, an old one or one that it wrote. -/
theorem Intact.run [DecidableEq N] {α : Type} {Q : α → Replacing B → Prop}
    {Written : List B → Prop} {program : FileProg N B X R α} {result : Option α}
    (hne : temporary ≠ path) (hwritten : ∀ bytes, Written bytes → Whole bytes)
    (hallowed : ∀ bytes, Written bytes → allowed (some bytes)) (hrun : d.Run program result d')
    (h : Intact path temporary durable Whole l d) (hwithin : l.Within allowed)
    (hsafe : program.Safe (replacer path temporary durable Written) Q l) :
    (∃ l', Intact path temporary durable Whole l' d' ∧ l'.Within allowed ∧
      ∀ value, result = some value → Q value l') ∧
    (d'.holds path = d.holds path ∨ ∃ bytes, Written bytes ∧ d'.holds path = some bytes) := by
  induction hrun generalizing l with
  | done d value =>
      refine ⟨⟨l, h, hwithin, ?_⟩, .inl rfl⟩
      rintro _ ⟨⟩
      exact hsafe
  | cut => exact ⟨⟨l, h, hwithin, by rintro _ ⟨⟩⟩, .inl rfl⟩
  | step hanswers _ ih =>
      obtain ⟨hends, hholds⟩ := ih (h.step hne (hsafe.1.mono hwritten) hanswers)
        (hwithin.step _ hallowed hsafe.1) (hsafe.2 _)
      refine ⟨hends, ?_⟩
      -- What is found in the end was put there by the first step, or later.
      rcases hholds with hsame | hnew
      · rw [hsame]
        exact h.holds_step hne hsafe.1 hwritten hanswers
      · exact .inr hnew

end Within

/-! ## Reading a file that is replaced -/

/-- What a reader has learnt. -/
structure Reading (B : Type) where
  missing : Bool
  size : Option Nat
  opened : Option Nat
  bytes : Option (List B)

def Reading.new : Reading B := ⟨false, none, none, none⟩

inductive ReadMay (path : N) : Reading B → FileOp N B X → Prop
  | size (l : Reading B) : ReadMay path l (.size path)
  | openFile (l : Reading B) : ReadMay path l (.openFile path)
  | read {l : Reading B} {file : Nat} (h : l.opened = some file) : ReadMay path l (.read file)
  | outside (l : Reading B) (op : X) : ReadMay path l (.outside op)

def Reading.next (l : Reading B) : (op : FileOp N B X) → FileAns R op → Reading B
  | .size _, .ok size => { l with size := some size }
  | .size _, .error error => { l with missing := l.missing || error.notFound }
  | .openFile _, .ok file => { l with opened := some file }
  | .read _, .ok bytes => { l with bytes := some bytes }
  | _, _ => l

def fileReader (path : N) : Monitor (Reading B) (FileOp N B X) (FileAns R) where
  may := ReadMay path
  next := Reading.next

/-- What a reader has learnt is of whole files. -/
structure ReadsWhole (path : N) (durable : Bool) (Whole : List B → Prop)
    (allowed : Option (List B) → Prop) (l : Replacing B) (d : Disk N B) (reading : Reading B) :
    Prop where
  missing : reading.missing = true → allowed none
  size : ∀ size, reading.size = some size → ∃ bytes, Whole bytes ∧ bytes.length = size
  opened : ∀ file, reading.opened = some file → Sealed path durable Whole l d file
  bytes : ∀ bytes, reading.bytes = some bytes → Whole bytes

section Readers

variable [DecidableEq N] {path temporary : N} {durable : Bool} {Whole : List B → Prop}
  {allowed : Option (List B) → Prop} {l : Replacing B} {d d' : Disk N B} {reading : Reading B}

omit [DecidableEq N] in
theorem readsWhole_new : ReadsWhole path durable Whole allowed l d .new where
  missing := by rintro ⟨⟩
  size := by rintro size ⟨⟩
  opened := by rintro file ⟨⟩
  bytes := by rintro bytes ⟨⟩

/-- A step of the replacement leaves a reader its file. -/
theorem ReadsWhole.replaced {op : FileOp N B X} {answer : FileAns R op} (hne : temporary ≠ path)
    (h : ReadsWhole path durable Whole allowed l d reading)
    (hmay : ReplaceMay path temporary durable Whole l op) (hanswers : d.Answers op answer d') :
    ReadsWhole path durable Whole allowed (l.next op answer) d' reading where
  missing := h.missing
  size := h.size
  opened file hopened := ((h.opened file hopened).step hne hmay hanswers).1
  bytes := h.bytes

/-- A reader reads, and changes nothing. -/
theorem ReadsWhole.step {op : FileOp N B X} {answer : FileAns R op}
    (hintact : Intact path temporary durable Whole l d) (hwithin : l.Within allowed)
    (h : ReadsWhole path durable Whole allowed l d reading) (hmay : ReadMay path reading op)
    (hanswers : d.Answers op answer d') :
    d' = d ∧ ReadsWhole path durable Whole allowed l d (reading.next op answer) := by
  have hplace : ∀ file, d.dir path = some file → Sealed path durable Whole l d file :=
    hintact.sealed _ hintact.current
  cases hmay with
  | size =>
      cases hanswers with
      | sized hlinked =>
          refine ⟨rfl, h.missing, ?_, h.opened, h.bytes⟩
          rintro size ⟨⟩
          exact ⟨_, (hplace _ hlinked).whole, rfl⟩
      | notSized hmissing =>
          refine ⟨rfl, fun htrue => ?_, h.size, h.opened, h.bytes⟩
          -- A file is missing only where nothing is in place, and that is one of the allowed contents.
          rcases Bool.or_eq_true _ _ ▸ htrue with hbefore | hnotFound
          · exact h.missing hbefore
          · have hholds := hwithin.holds hintact
            rwa [Disk.holds, Disk.content, hmissing hnotFound] at hholds
  | openFile =>
      cases hanswers with
      | opened hlinked =>
          refine ⟨rfl, h.missing, h.size, ?_, h.bytes⟩
          rintro file ⟨⟩
          exact hplace _ hlinked
      | notOpened => exact ⟨rfl, h⟩
  | read hopened =>
      cases hanswers with
      | read =>
          refine ⟨rfl, h.missing, h.size, h.opened, ?_⟩
          rintro bytes ⟨⟩
          exact (h.opened _ hopened).whole
      | notRead => exact ⟨rfl, h⟩
  | outside op =>
      cases hanswers
      exact ⟨rfl, h⟩

/-! ## A writer and its readers -/

variable {κ : Type} [DecidableEq κ] {α : Option κ → Type}
  {programs programs' : (i : Option κ) → FileProg N B X R (α i)}

/-- Where a thread stands: the one that replaces the file, or a reader. -/
abbrev FileLocal (B : Type) : Option κ → Type
  | none => Replacing B
  | some _ => Reading B

def fileMonitor (path temporary : N) (durable : Bool) (Whole : List B → Prop) :
    (i : Option κ) → Monitor (FileLocal B i) (FileOp N B X) (FileAns R)
  | none => replacer path temporary durable Whole
  | some _ => fileReader path

def fileMachine : Machine (Option κ) (Disk N B) (FileOp N B X) (FileAns R) :=
  fun _ d op answer d' => d.Answers op answer d'

/-- Where the threads start: the readers have read nothing yet. -/
def startWith (l : Replacing B) : (i : Option κ) → FileLocal B i
  | none => l
  | some _ => .new

/-- **Replacing a file while it is read.** Whatever order the threads take their steps in, what is in
place is whole, and so is what each reader has learnt. -/
theorem replaced_whole {Q : (i : Option κ) → α i → FileLocal B i → Prop} (hne : temporary ≠ path)
    (hintact : Intact path temporary durable Whole l d) (hwithin : l.Within allowed)
    (hallowed : ∀ bytes, Whole bytes → allowed (some bytes))
    (hsafe : ∀ i, (programs i).Safe (fileMonitor path temporary durable Whole i) (Q i)
      (startWith l i)) (h : Reaches fileMachine programs d programs' d') :
    ∃ locals : (i : Option κ) → FileLocal B i,
      (Intact path temporary durable Whole (locals none) d' ∧
        Replacing.Within allowed (locals none) ∧
        ∀ k, ReadsWhole path durable Whole allowed (locals none) d' (locals (some k))) ∧
      ∀ i, (programs' i).Safe (fileMonitor path temporary durable Whole i) (Q i) (locals i) := by
  refine h.invariant (fun locals d => Intact path temporary durable Whole (locals none) d ∧
    Replacing.Within allowed (locals none) ∧
    ∀ k, ReadsWhole path durable Whole allowed (locals none) d (locals (some k))) hsafe
    ⟨hintact, hwithin, fun _ => readsWhole_new⟩ ?_
  rintro locals d i op answer d' ⟨hintact, hwithin, hreads⟩ hmay hanswers
  cases i with
  | none =>
      rw [Function.update_self]
      refine ⟨hintact.step hne hmay hanswers, hwithin.step answer hallowed hmay, fun k => ?_⟩
      rw [Function.update_of_ne (by rintro ⟨⟩)]
      exact (hreads k).replaced hne hmay hanswers
  | some k =>
      rw [Function.update_of_ne (by rintro ⟨⟩)]
      -- A reader takes a step: the disk stays, and so does what the others have learnt.
      obtain ⟨rfl, hread⟩ := (hreads k).step hintact hwithin hmay hanswers
      refine ⟨hintact, hwithin, fun other => ?_⟩
      by_cases hother : (some other : Option κ) = some k
      · cases hother
        rw [Function.update_self]
        exact hread
      · rw [Function.update_of_ne hother]
        exact hreads other

end Readers

end VirtioMem.Files
