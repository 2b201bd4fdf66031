import VirtioMem.Host.Accounting
import VirtioMem.Lib.Files

/-!
# How a checkpoint gets to disk

`persist` writes the checkpoint into a temporary file and renames it over the old one; `load` reads it
back, in the same process or in another. The JSON library is a parameter: what it writes, it reads back
(`Lossless`).

A save may fail or be cut anywhere, and the machine may crash. What is loaded afterwards is the file that
was last saved, or one that was attempted since, and nothing else (`checkpoint_survives`). A process that
reads while the owner saves reads a whole file (`checkpoint_read_whole`). To whoever only asks and loads,
a save is the write of `VmWorld` (`persist_refines`).
-/

namespace VirtioMem.Host

open VirtioMem.Effect VirtioMem.Files

def maxCheckpointBytes : Nat := 1024 * 1024

/-- What `persist` does beside the files themselves. -/
inductive DirectoryOp where
  | createDirAll (directory : String)
  | openDirectory (directory : String)

abbrev DirectoryAns (_ : DirectoryOp) : Type := Except IoError Unit

abbrev StoreProg (α : Type) : Type := FileProg String UInt8 DirectoryOp DirectoryAns α

def fileOp (op : FileOp String UInt8 DirectoryOp) : StoreProg (FileAns DirectoryAns op) := Prog.ask op

/-- The JSON library, and the directory of a path, if it has one. -/
structure StoreLibrary where
  encode : CheckpointFile → Except String (List UInt8)
  decode : List UInt8 → Except String CheckpointFile
  parent : String → Option String

/-- What is written can be read back. -/
def StoreLibrary.Lossless (lib : StoreLibrary) : Prop :=
  ∀ file bytes, lib.encode file = .ok bytes → lib.decode bytes = .ok file

def temporaryPath (path : String) (process : Nat) : String :=
  path ++ (".tmp-" ++ toString process)

namespace CheckpointStore

variable (lib : StoreLibrary)

/-- Write the temporary file, flush it and rename it. -/
def replaceWith (temporary path : String) (bytes : List UInt8) : StoreProg (Except IoError Unit) := do
  match ← fileOp (.create temporary) with
  | .error error => return .error error
  | .ok file =>
    match ← fileOp (.write file bytes) with
    | .error error => return .error error
    | .ok () =>
      match ← fileOp (.sync file) with
      | .error error => return .error error
      | .ok () => fileOp (.rename temporary path false)

def flushParent (directory : String) : StoreProg (Except IoError Unit) := do
  match ← fileOp (.outside (.openDirectory directory)) with
  | .error error => return .error error
  | .ok () => fileOp .syncDirectory

def persist (path : String) (process : Nat) (file : CheckpointFile) :
    StoreProg (Except String Unit) := do
  match lib.encode file with
  | .error error => return .error s!"encode control checkpoint: {error}"
  | .ok bytes =>
    if maxCheckpointBytes < bytes.length then
      return .error "control checkpoint exceeds its size limit"
    else
      match lib.parent path with
      | none => return .error "control checkpoint path has no parent directory"
      | some directory =>
        match ← fileOp (.outside (.createDirAll directory)) with
        | .error error => return .error s!"create control checkpoint directory: {error.text}"
        | .ok () =>
          match ← replaceWith (temporaryPath path process) path bytes with
          | .error error =>
            -- Best effort: the write error is the failure reported.
            let _ ← fileOp (.remove (temporaryPath path process))
            return .error s!"persist control checkpoint: {error.text}"
          | .ok () =>
            match ← flushParent directory with
            | .error error => return .error s!"flush control checkpoint directory: {error.text}"
            | .ok () => return .ok ()

/-- Open a file and read it whole. -/
def readFile (path : String) : StoreProg (Except IoError (List UInt8)) := do
  match ← fileOp (.openFile path) with
  | .error error => return .error error
  | .ok file => fileOp (.read file)

/-- What was read is decoded and checked. -/
def checked (vmName deviceAlias : String) (bytes : List UInt8) :
    Except String (Option CheckpointFile) :=
  match lib.decode bytes with
  | .error error =>
    .error s!"control checkpoint is invalid; refusing to discard it: {error}"
  | .ok file => Host.load (some file) vmName deviceAlias

/-- A missing file is fresh state. -/
def load (path vmName deviceAlias : String) : StoreProg (Except String (Option CheckpointFile)) := do
  match ← fileOp (.size path) with
  | .error error =>
    if error.notFound then return Host.load none vmName deviceAlias
    else return .error s!"inspect control checkpoint: {error.text}"
  | .ok size =>
    if maxCheckpointBytes < size then
      return .error "control checkpoint is oversized; refusing to discard it"
    else
      match ← readFile path with
      | .error error => return .error s!"read control checkpoint: {error.text}"
      | .ok bytes => return checked lib vmName deviceAlias bytes

end CheckpointStore

theorem temporaryPath_ne (path : String) (process : Nat) : temporaryPath path process ≠ path := by
  intro heq
  have hlength := congrArg String.length heq
  simp [temporaryPath, String.length_append] at hlength

/-! ## Saving -/

variable {lib : StoreLibrary} {path : String} {process : Nat} {file : CheckpointFile}
  {d d' d'' : Disk String UInt8} {l : Replacing UInt8}

/-- The contents of a checkpoint that was encoded. -/
def StoreLibrary.Encodes (lib : StoreLibrary) (file : CheckpointFile) (bytes : List UInt8) : Prop :=
  lib.encode file = .ok bytes ∧ bytes.length ≤ maxCheckpointBytes

/-- The contents of a checkpoint, if there is one. -/
def StoreLibrary.Matches (lib : StoreLibrary) :
    Option CheckpointFile → Option (List UInt8) → Prop
  | none, none => True
  | some file, some bytes => lib.Encodes file bytes
  | _, _ => False

/-- The contents of a checkpoint of a set. -/
def StoreLibrary.EncodesOf (lib : StoreLibrary) (files : CheckpointFile → Prop) (bytes : List UInt8) :
    Prop :=
  ∃ file, files file ∧ lib.Encodes file bytes

theorem replaceWith_safe {Whole : List UInt8 → Prop} {temporary : String} {bytes : List UInt8}
    (hwhole : Whole bytes) :
    (CheckpointStore.replaceWith temporary path bytes).Safe (replacer path temporary true Whole)
      (fun answer l => answer = .ok () → l.visible = some (some bytes)) l := by
  refine (Prog.safe_seq _ _).mpr ⟨.create l, fun answer => ?_⟩
  cases answer with
  | error error => rintro ⟨⟩
  | ok file =>
  have hcreated : ({ l with draft := some ⟨file, [], false, false⟩ } : Replacing UInt8).draft =
      some ⟨file, [], false, false⟩ := rfl
  refine (Prog.safe_seq _ _).mpr ⟨.write hcreated rfl rfl bytes, fun answer => ?_⟩
  cases answer with
  | error error => rintro ⟨⟩
  | ok _ =>
  have hwritten : ({ l with draft := some ⟨file, bytes, false, false⟩ } : Replacing UInt8).draft =
      some ⟨file, bytes, false, false⟩ := rfl
  refine (Prog.safe_seq _ _).mpr ⟨.sync hwritten rfl, fun answer => ?_⟩
  cases answer with
  | error error => rintro ⟨⟩
  | ok _ =>
  have hsynced : ({ l with draft := some ⟨file, bytes, true, false⟩ } : Replacing UInt8).draft =
      some ⟨file, bytes, true, false⟩ := rfl
  refine ⟨.rename hsynced hwhole (fun _ => rfl) false, fun answer => ?_⟩
  rintro rfl
  rfl

theorem flushParent_safe {Whole : List UInt8 → Prop} {temporary directory : String}
    {content : Option (List UInt8)} (hvisible : l.visible = some content) :
    (CheckpointStore.flushParent directory).Safe (replacer path temporary true Whole)
      (fun answer l => answer = .ok () → l.visible = some content ∧ l.versions = [content]) l := by
  refine (Prog.safe_seq _ _).mpr ⟨.outside l _, fun answer => ?_⟩
  cases answer with
  | error error => rintro ⟨⟩
  | ok _ =>
  refine ⟨.syncDirectory l, fun answer => ?_⟩
  rintro rfl
  simp [replacer, Replacing.next, hvisible]

/-- A save that succeeds leaves the file in place, for good. -/
theorem persist_safe {Whole : List UInt8 → Prop}
    (hwhole : ∀ bytes, lib.Encodes file bytes → Whole bytes) :
    (CheckpointStore.persist lib path process file).Safe
      (replacer path (temporaryPath path process) true Whole)
      (fun answer l => answer = .ok () → ∃ bytes, lib.Encodes file bytes ∧
        l.visible = some (some bytes) ∧ l.versions = [some bytes]) l := by
  unfold CheckpointStore.persist
  cases hencode : lib.encode file with
  | error error => rintro ⟨⟩
  | ok bytes =>
  dsimp only
  split
  · rintro ⟨⟩
  next hsize =>
  have hencodes : lib.Encodes file bytes := ⟨hencode, not_lt.mp hsize⟩
  cases lib.parent path with
  | none => rintro ⟨⟩
  | some directory =>
  refine (Prog.safe_seq _ _).mpr ⟨.outside l _, fun answer => ?_⟩
  cases answer with
  | error error => rintro ⟨⟩
  | ok _ =>
  refine (Prog.safe_seq _ _).mpr ((replaceWith_safe (hwhole bytes hencodes)).mono fun answer l hl => ?_)
  cases answer with
  | error error => exact (Prog.safe_seq _ _).mpr ⟨.remove l, fun _ => by rintro ⟨⟩⟩
  | ok _ =>
  refine (Prog.safe_seq _ _).mpr ((flushParent_safe (hl rfl)).mono fun answer l hl => ?_)
  cases answer with
  | error error => rintro ⟨⟩
  | ok _ => exact fun _ => ⟨bytes, hencodes, hl rfl⟩

/-- Where nothing fails, a save succeeds. -/
theorem persist_served {outside : (op : DirectoryOp) → DirectoryAns op} {directory : String}
    {bytes : List UInt8} (houtside : ∀ op, outside op = .ok ()) (hencodes : lib.Encodes file bytes)
    (hparent : lib.parent path = some directory) :
    d.Run (CheckpointStore.persist lib path process file) (some (.ok ()))
      ((CheckpointStore.persist lib path process file).simulate (Disk.serve outside) d).2.2 := by
  refine .served outside ?_
  -- The temporary file may be there from before, or not.
  cases hplace : d.dir (temporaryPath path process) <;>
    simp [CheckpointStore.persist, CheckpointStore.replaceWith, CheckpointStore.flushParent, fileOp,
      Prog.ask, Bind.bind, Prog.bind, Prog.simulate, Pure.pure, Disk.serve, Disk.make, Disk.link,
      Disk.put, Disk.flush, hencodes.1, not_lt.mpr hencodes.2, hparent, houtside, hplace]

/-- Until the directory is flushed a crash may bring back the one from before. -/
theorem persist_unflushed {outside : (op : DirectoryOp) → DirectoryAns op} {directory : String}
    {bytes : List UInt8} (houtside : ∀ op, outside op = .ok ()) (hencodes : lib.Encodes file bytes)
    (hparent : lib.parent path = some directory) (hpast : d.dir ∈ d.past) :
    d.dir ∈ (d.servedFor outside 5 (CheckpointStore.persist lib path process file)).past := by
  cases hplace : d.dir (temporaryPath path process) <;>
    simp [CheckpointStore.persist, CheckpointStore.replaceWith, CheckpointStore.flushParent, fileOp,
      Prog.ask, Bind.bind, Prog.bind, Disk.servedFor, Pure.pure, Disk.serve, Disk.make, Disk.link,
      Disk.put, Disk.flush, Disk.move, hencodes.1, not_lt.mpr hencodes.2, hparent, houtside, hplace,
      hpast]

/-! ## What is on disk -/

/-- A history of the checkpoint: the file that was last saved, and those attempted since. -/
inductive SaveRun (lib : StoreLibrary) (path : String) :
    Option CheckpointFile → List CheckpointFile → Disk String UInt8 → Prop
  | new : SaveRun lib path none [] .empty
  | saved {last : Option CheckpointFile} {since : List CheckpointFile} {d d' : Disk String UInt8}
      (process : Nat) (file : CheckpointFile) (h : SaveRun lib path last since d)
      (hrun : d.Run (CheckpointStore.persist lib path process file) (some (.ok ())) d') :
      SaveRun lib path (some file) [] d'
  /-- A save that fails, or is cut anywhere. -/
  | attempted {last : Option CheckpointFile} {since : List CheckpointFile} {d d' : Disk String UInt8}
      (process : Nat) (file : CheckpointFile) {result : Option (Except String Unit)}
      (h : SaveRun lib path last since d)
      (hrun : d.Run (CheckpointStore.persist lib path process file) result d') :
      SaveRun lib path last (file :: since) d'
  | crash {last : Option CheckpointFile} {since : List CheckpointFile} {d d' : Disk String UInt8}
      (h : SaveRun lib path last since d) (hcrash : d.Crash d') : SaveRun lib path last since d'

/-- The checkpoints that may be found. -/
def Found (last : Option CheckpointFile) (since : List CheckpointFile) (file : Option CheckpointFile) :
    Prop :=
  file = last ∨ ∃ attempted ∈ since, file = some attempted

/-- The contents that may be found. -/
def Holds (lib : StoreLibrary) (last : Option CheckpointFile) (since : List CheckpointFile)
    (content : Option (List UInt8)) : Prop :=
  ∃ file, Found last since file ∧ lib.Matches file content

theorem Holds.attempted {last : Option CheckpointFile} {since : List CheckpointFile}
    {content : Option (List UInt8)} (file : CheckpointFile) (h : Holds lib last since content) :
    Holds lib last (file :: since) content := by
  obtain ⟨found, hfound, hcontent⟩ := h
  refine ⟨found, hfound.imp_right ?_, hcontent⟩
  rintro ⟨attempted, hmem, rfl⟩
  exact ⟨attempted, List.mem_cons_of_mem _ hmem, rfl⟩

/-- What may be found on disk, now and after a crash, is what the history says. -/
theorem SaveRun.intact {last : Option CheckpointFile} {since : List CheckpointFile}
    (h : SaveRun lib path last since d) (process : Nat) :
    ∃ l, Intact path (temporaryPath path process) true (lib.EncodesOf fun _ => True) l d ∧
      l.Within (Holds lib last since) := by
  induction h generalizing process with
  | new =>
      refine ⟨_, intact_empty path _ true _, ?_, ?_⟩
      · intro content hcontent
        rw [List.mem_singleton.mp hcontent]
        exact ⟨none, .inl rfl, trivial⟩
      · rintro content ⟨⟩
        exact ⟨none, .inl rfl, trivial⟩
  | saved process' file _ hrun ih =>
      obtain ⟨l, hintact, hwithin⟩ := ih process'
      obtain ⟨⟨l', hintact', -, hdone⟩, -⟩ := hintact.run (temporaryPath_ne path process')
        (fun bytes hencodes => ⟨file, trivial, hencodes⟩) (fun _ _ => trivial) hrun
        (hwithin.mono fun _ _ => trivial) (persist_safe fun _ hencodes => hencodes)
      obtain ⟨bytes, hencodes, hvisible, hversions⟩ := hdone _ rfl rfl
      have hholds : Holds lib (some file) [] (some bytes) := ⟨some file, .inl rfl, hencodes⟩
      refine ⟨_, hintact'.restart _, ?_, ?_⟩
      · -- The directory was flushed, so one version is left.
        intro content hcontent
        rw [hversions] at hcontent
        rw [List.mem_singleton.mp hcontent]
        exact hholds
      · intro content hcontent
        rw [hvisible] at hcontent
        cases hcontent
        exact hholds
  | attempted process' file _ hrun ih =>
      obtain ⟨l, hintact, hwithin⟩ := ih process'
      obtain ⟨⟨l', hintact', hwithin', -⟩, -⟩ := hintact.run (temporaryPath_ne path process')
        (fun bytes hencodes => ⟨file, trivial, hencodes⟩)
        (fun bytes hencodes => ⟨some file, .inr ⟨file, List.mem_cons_self .., rfl⟩, hencodes⟩) hrun
        (hwithin.mono fun _ => Holds.attempted file) (persist_safe fun _ hencodes => hencodes)
      exact ⟨_, hintact'.restart _, hwithin'.versions, hwithin'.visible⟩
  | crash _ hcrash ih =>
      obtain ⟨l, hintact, hwithin⟩ := ih process
      exact ⟨_, hintact.crash hcrash _, hwithin.versions, by rintro content ⟨⟩⟩

/-! ## Loading -/

variable {last : Option CheckpointFile} {since : List CheckpointFile} {vmName deviceAlias : String}
  {result : Except String (Option CheckpointFile)}

/-- The file system refused to be read. -/
def Unreadable (result : Except String (Option CheckpointFile)) : Prop :=
  ∃ error : IoError, result = .error s!"inspect control checkpoint: {error.text}" ∨
    result = .error s!"read control checkpoint: {error.text}"

theorem checked_encodes (hlossless : lib.Lossless) {bytes : List UInt8}
    (h : lib.Encodes file bytes) :
    CheckpointStore.checked lib vmName deviceAlias bytes = load (some file) vmName deviceAlias := by
  simp [CheckpointStore.checked, hlossless file bytes h.1]

/-- A load finds what is in place, unless the file system refuses to be read. -/
theorem load_matches (hlossless : lib.Lossless) {found : Option CheckpointFile}
    (h : lib.Matches found (d.holds path))
    (hrun : d.Run (CheckpointStore.load lib path vmName deviceAlias) (some result) d') :
    Unreadable result ∨ result = load found vmName deviceAlias := by
  obtain ⟨answer, d₁, hanswers, hrun⟩ := hrun.ask
  -- The size, the open and the read see the same file, for nothing is written in between.
  cases hanswers with
  | @notSized _ error hmissing =>
      dsimp only at hrun
      split at hrun
      · next hnotFound =>
          rw [hrun.ended]
          have hnone : d.holds path = none := by
            rw [Disk.holds, Disk.content, hmissing hnotFound]
            rfl
          rw [hnone] at h
          cases found with
          | none => exact .inr rfl
          | some file => exact h.elim
      · exact .inl ⟨error, .inl hrun.ended⟩
  | @sized _ place hplace =>
  have hcontent : d.holds path = some (d.data place) := by
    rw [Disk.holds, Disk.content, hplace]
    rfl
  rw [hcontent] at h
  cases found with
  | none => exact h.elim
  | some file =>
  dsimp only at hrun
  rw [if_neg (not_lt.mpr h.2)] at hrun
  obtain ⟨answer, d₂, hanswers, hrun⟩ := hrun.ask
  cases hanswers with
  | @notOpened _ error => exact .inl ⟨error, .inr hrun.ended⟩
  | opened hopened =>
  cases hplace.symm.trans hopened
  obtain ⟨answer, d₃, hanswers, hrun⟩ := hrun.ask
  cases hanswers with
  | notRead _ error => exact .inl ⟨error, .inr hrun.ended⟩
  | read =>
  rw [hrun.ended]
  exact .inr (checked_encodes hlossless h)

/-- **A save survives.** After any history of saves, of which some failed or were cut anywhere, and of
crashes of the machine: whoever loads the checkpoint finds the one that was last saved, or one that was
attempted since, whole; unless the file system refuses to be read. -/
theorem checkpoint_survives (hlossless : lib.Lossless) (h : SaveRun lib path last since d)
    (hrun : d.Run (CheckpointStore.load lib path vmName deviceAlias) (some result) d') :
    Unreadable result ∨ ∃ found, Found last since found ∧ result = load found vmName deviceAlias := by
  obtain ⟨l, hintact, hwithin⟩ := h.intact 0
  obtain ⟨found, hfound, hmatches⟩ := hwithin.holds hintact
  exact (load_matches hlossless hmatches hrun).imp_right fun hresult => ⟨found, hfound, hresult⟩

/-- The library on two checkpoints, fresh and latched. -/
def exampleText (latchReason : List Char) : List UInt8 :=
  let quoted (text : String) := '"' :: text.toList ++ ['"']
  let object (fields : List (String × List Char)) :=
    '\x7b' :: [','].intercalate (fields.map fun field => quoted field.1 ++ ':' :: field.2) ++ ['\x7d']
  let null := "null".toList
  let text := object [("version", ['2']), ("vm_name", quoted "guest"),
    ("device_alias", quoted "memory0"), ("compatibility_fingerprint_sha256", quoted ""),
    ("control", object [("latch_reason", latchReason), ("intent", null),
      ("journal", object [("request", null), ("result", null)])]),
    ("last_latch_clear_reason", null)]
  text.map fun c => UInt8.ofNat c.toNat

def freshText : List UInt8 := exampleText "null".toList

def latchedText : List UInt8 := exampleText "\"lost\"".toList

def exampleFresh : CheckpointFile := exampleFile .fresh

def exampleLatched : CheckpointFile := exampleFile { DurableControlState.fresh with latchReason := some "lost" }

def exampleLibrary : StoreLibrary where
  encode file :=
    if file = exampleFresh then .ok freshText
    else if file = exampleLatched then .ok latchedText
    else .error "only two checkpoints"
  decode bytes :=
    if bytes = freshText then .ok exampleFresh
    else if bytes = latchedText then .ok exampleLatched
    else .error "expected value at line 1 column 1"
  parent _ := some "/var/lib/virtio-mem"

theorem exampleLatched_ne : exampleLatched ≠ exampleFresh := by decide +kernel

theorem latchedText_ne : latchedText ≠ freshText := by decide +kernel

theorem exampleFresh_encodes : exampleLibrary.Encodes exampleFresh freshText := by
  refine ⟨?_, by decide +kernel⟩
  simp only [exampleLibrary, if_pos]

theorem exampleLatched_encodes : exampleLibrary.Encodes exampleLatched latchedText := by
  refine ⟨?_, by decide +kernel⟩
  simp only [exampleLibrary, if_neg exampleLatched_ne, if_pos]

theorem exampleLibrary_lossless : exampleLibrary.Lossless := by
  intro file bytes hencode
  simp only [exampleLibrary] at hencode ⊢
  split at hencode
  · next hfile => rw [← Except.ok.inj hencode, if_pos rfl, hfile]
  · split at hencode
    · next hfile => rw [← Except.ok.inj hencode, if_neg latchedText_ne, if_pos rfl, hfile]
    · cases hencode

/-- Every directory can be made and opened. -/
def exampleDirectory (op : DirectoryOp) : DirectoryAns op := .ok ()

/-- The disk when the fresh checkpoint has been saved. -/
def exampleDisk : Disk String UInt8 :=
  ((CheckpointStore.persist exampleLibrary "control.json" 7 exampleFresh).simulate
    (Disk.serve exampleDirectory) .empty).2.2

theorem exampleDisk_saved :
    SaveRun exampleLibrary "control.json" (some exampleFresh) [] exampleDisk :=
  .saved 7 exampleFresh .new (persist_served (fun _ => rfl) exampleFresh_encodes rfl)

/-- The latch is being saved next, and has just been renamed into place. -/
def cutDisk : Disk String UInt8 :=
  exampleDisk.servedFor exampleDirectory 5
    (CheckpointStore.persist exampleLibrary "control.json" 8 exampleLatched)

/-- The directory was not flushed, so the crash brings the old one back. -/
def lostDisk : Disk String UInt8 := cutDisk.reverted exampleDisk.dir

theorem cutDisk_saved :
    SaveRun exampleLibrary "control.json" (some exampleFresh) [exampleLatched] cutDisk :=
  .attempted 8 exampleLatched exampleDisk_saved (.servedFor exampleDirectory 5 _ exampleDisk)

theorem lostDisk_crash : cutDisk.Crash lostDisk := by
  obtain ⟨l, hintact, -⟩ := exampleDisk_saved.intact 8
  apply Disk.reverted_crash
  exact persist_unflushed (fun _ => rfl) exampleLatched_encodes rfl hintact.current

attribute [irreducible] exampleDisk cutDisk

/-- The save of a latch is cut before the directory is flushed, and the machine crashes: the checkpoint
that is loaded is the one from before. -/
theorem survives_latch_lost : ∃ d d' : Disk String UInt8,
    SaveRun exampleLibrary "control.json" (some exampleFresh) [exampleLatched] d ∧
      d.Run (CheckpointStore.load exampleLibrary "control.json" "guest" "memory0")
        (some (.ok (some exampleFresh))) d' ∧
      (Unreadable (.ok (some exampleFresh)) ∨ ∃ found,
        Found (some exampleFresh) [exampleLatched] found ∧
          .ok (some exampleFresh) = load found "guest" "memory0") := by
  have hlost := SaveRun.crash cutDisk_saved lostDisk_crash
  have hvalue : ((CheckpointStore.load exampleLibrary "control.json" "guest" "memory0").simulate
      (Disk.serve exampleDirectory) lostDisk).2.1 = .ok (some exampleFresh) := by decide +kernel
  have hload := Disk.Run.served exampleDirectory hvalue
  exact ⟨lostDisk, _, hlost, hload, checkpoint_survives exampleLibrary_lossless hlost hload⟩

/-! ## Loading while the owner saves -/

/-- The owner of the checkpoint: whatever it decides to save, one file after the other. -/
abbrev OwnerProg (β : Type) : Type := Prog CheckpointFile (fun _ => Except String Unit) β

/-- Everything it saves is one of these. -/
def savesOnly (files : CheckpointFile → Prop) :
    Monitor Unit CheckpointFile (fun _ => Except String Unit) where
  may _ file := files file
  next _ _ _ := ()

theorem owner_safe {β : Type} {files : CheckpointFile → Prop} {Whole : List UInt8 → Prop}
    {owner : OwnerProg β} (hfiles : owner.Safe (savesOnly files) (fun _ _ => True) ())
    (hwhole : ∀ file bytes, files file → lib.Encodes file bytes → Whole bytes) :
    (owner.interpret (CheckpointStore.persist lib path process)).Safe
      (replacer path (temporaryPath path process) true Whole) (fun _ _ => True) l := by
  induction owner generalizing l with
  | pure value => trivial
  | perform file resume ih =>
      obtain ⟨hfile, hrest⟩ := hfiles
      exact Prog.safe_bind.mpr ((persist_safe fun bytes => hwhole file bytes hfile).mono
        fun answer l' _ => ih answer (hrest answer))

/-- What a load comes to, by what it has read. -/
def LoadEnds (lib : StoreLibrary) (vmName deviceAlias : String)
    (result : Except String (Option CheckpointFile)) (reading : Reading UInt8) : Prop :=
  Unreadable result ∨ (reading.missing = true ∧ result = load none vmName deviceAlias) ∨
    (∃ size, reading.size = some size ∧ maxCheckpointBytes < size) ∨
    ∃ bytes, reading.bytes = some bytes ∧
      result = CheckpointStore.checked lib vmName deviceAlias bytes

theorem load_safe {reading : Reading UInt8} :
    (CheckpointStore.load lib path vmName deviceAlias).Safe (fileReader path)
      (LoadEnds lib vmName deviceAlias) reading := by
  refine (Prog.safe_seq _ _).mpr ⟨.size reading, fun answer => ?_⟩
  cases answer with
  | error error =>
      refine (Prog.safe_pure (Except.error error)).mpr ?_
      dsimp only
      split
      · next hnotFound =>
          refine .inr (.inl ⟨?_, rfl⟩)
          show (reading.missing || error.notFound) = true
          rw [hnotFound, Bool.or_true]
      · exact .inl ⟨error, .inl rfl⟩
  | ok size =>
  refine (Prog.safe_pure (Except.ok size)).mpr ?_
  dsimp only
  split
  · next hsize => exact .inr (.inr (.inl ⟨size, rfl, hsize⟩))
  refine (Prog.safe_seq _ _).mpr ((Prog.safe_seq _ _).mpr ⟨.openFile _, fun answer => ?_⟩)
  cases answer with
  | error error => exact .inl ⟨error, .inr rfl⟩
  | ok file =>
  refine ⟨.read rfl, fun answer => ?_⟩
  cases answer with
  | error error => exact .inl ⟨error, .inr rfl⟩
  | ok bytes => exact .inr (.inr (.inr ⟨bytes, rfl, rfl⟩))

/-- What the owner returns, and what a reader loads. -/
abbrev StoreValue (β : Type) {κ : Type} : Option κ → Type
  | none => β
  | some _ => Except String (Option CheckpointFile)

/-- The owner, and processes that load the checkpoint. -/
def storeThreads {β κ : Type} (lib : StoreLibrary) (path vmName deviceAlias : String)
    (process : Nat) (owner : OwnerProg β) : (i : Option κ) → StoreProg (StoreValue β i)
  | none => owner.interpret (CheckpointStore.persist lib path process)
  | some _ => CheckpointStore.load lib path vmName deviceAlias

/-- Where the threads end. -/
def StoreEnds {β κ : Type} (lib : StoreLibrary) (vmName deviceAlias : String) :
    (i : Option κ) → StoreValue β i → FileLocal UInt8 i → Prop
  | none, _, _ => True
  | some _, result, reading => LoadEnds lib vmName deviceAlias result reading

theorem storeThreads_safe {β κ : Type} {files : CheckpointFile → Prop} {Whole : List UInt8 → Prop}
    {owner : OwnerProg β} (hfiles : owner.Safe (savesOnly files) (fun _ _ => True) ())
    (hwhole : ∀ file bytes, files file → lib.Encodes file bytes → Whole bytes) (i : Option κ) :
    (storeThreads lib path vmName deviceAlias process owner i).Safe
      (fileMonitor path (temporaryPath path process) true Whole i)
      (StoreEnds lib vmName deviceAlias i) (startWith l i) := by
  cases i with
  | none => exact owner_safe hfiles hwhole
  | some k => exact load_safe

/-- **A checkpoint is read whole, while it is replaced.** Whatever the owner saves and whatever fails,
and however the steps of any number of readers fall between its own: a load that ends finds a checkpoint
that was there before, or one that the owner saves, unless the file system refuses to be read. -/
theorem checkpoint_read_whole {β κ : Type} [DecidableEq κ] {files : CheckpointFile → Prop}
    {owner : OwnerProg β} {programs : (i : Option κ) → StoreProg (StoreValue β i)} {k : κ}
    (hlossless : lib.Lossless) (h : SaveRun lib path last since d)
    (hfiles : owner.Safe (savesOnly files) (fun _ _ => True) ())
    (hreach : Reaches fileMachine (storeThreads lib path vmName deviceAlias process owner) d programs
      d') (hvalue : (programs (some k)).value = some result) :
    Unreadable result ∨ ∃ found, (Found last since found ∨ ∃ file, files file ∧ found = some file) ∧
      result = load found vmName deviceAlias := by
  obtain ⟨l, hintact, hwithin⟩ := h.intact process
  have hne := temporaryPath_ne path process
  -- What may be found: what the history says, or a file of the owner's.
  have hwhole : ∀ bytes, Holds lib last since (some bytes) → lib.EncodesOf
      (fun file => Found last since (some file) ∨ files file) bytes := by
    rintro bytes ⟨found, hfound, hmatch⟩
    cases found with
    | none => exact hmatch.elim
    | some file => exact ⟨file, .inl hfound, hmatch⟩
  have hallowed : l.Within fun content => Holds lib last since content ∨ content.isSome = true :=
    hwithin.mono fun _ => .inl
  obtain ⟨locals, ⟨-, -, hreads⟩, hsafe⟩ := replaced_whole hne (hintact.sharpen hwithin hwhole)
    hallowed (fun _ _ => .inr rfl) (storeThreads_safe hfiles fun file bytes hfile hencodes =>
      ⟨file, .inr hfile, hencodes⟩) hreach
  have hread := hreads k
  have hends : LoadEnds lib vmName deviceAlias result (locals (some k)) := (hsafe (some k)).returned hvalue
  rcases hends with hunreadable | ⟨hmissing, hresult⟩ | ⟨size, hsize, hlarge⟩ | ⟨bytes, hbytes, hresult⟩
  · exact .inl hunreadable
  · rcases hread.missing hmissing with ⟨found, hfound, hmatch⟩ | hsome
    · cases found with
      | none => exact .inr ⟨none, .inl hfound, hresult⟩
      | some file => exact hmatch.elim
    · cases hsome
  · obtain ⟨bytes, ⟨file, -, -, hle⟩, hlength⟩ := hread.size size hsize
    omega
  · obtain ⟨file, hfound, hencodes⟩ := hread.bytes bytes hbytes
    refine .inr ⟨some file, hfound.imp_right fun hfile => ⟨file, hfile, rfl⟩, ?_⟩
    rw [hresult, checked_encodes hlossless hencodes]

/-- An owner that latches, and a reader. -/
def exampleThreads : (i : Option Unit) → StoreProg (StoreValue (Except String Unit) i) :=
  storeThreads exampleLibrary "control.json" "guest" "memory0" 8 (Prog.ask exampleLatched)

/-- The reader opens the old file, and reads it when the owner has put another in its place. -/
def exampleOrder : List (Option Unit) :=
  [some (), some (), none, none, none, none, none, none, none, none, some ()]

def exampleServe (_ : Option Unit) (d : Disk String UInt8) (op : FileOp String UInt8 DirectoryOp) :
    Option (FileAns DirectoryAns op × Disk String UInt8) :=
  some (d.serve exampleDirectory op)

theorem exampleServe_answers (i : Option Unit) (d : Disk String UInt8)
    (op : FileOp String UInt8 DirectoryOp) (answer : FileAns DirectoryAns op) (d' : Disk String UInt8)
    (h : exampleServe i d op = some (answer, d')) : fileMachine i d op answer d' := by
  have hserve := d.serve_answers exampleDirectory op
  rw [Option.some.inj h] at hserve
  exact hserve

theorem latching_read_whole : ∃ (d' : Disk String UInt8)
    (programs : (i : Option Unit) → StoreProg (StoreValue (Except String Unit) i)),
    Reaches fileMachine exampleThreads exampleDisk programs d' ∧
      (programs (some ())).value = some (.ok (some exampleFresh)) ∧
      (Unreadable (.ok (some exampleFresh)) ∨ ∃ found, (Found (some exampleFresh) [] found ∨
        ∃ file, file = exampleLatched ∧ found = some file) ∧
        .ok (some exampleFresh) = load found "guest" "memory0") := by
  have hreach := schedule_reaches exampleServe_answers exampleOrder exampleThreads exampleDisk
  have hvalue : ((schedule exampleServe exampleOrder exampleThreads exampleDisk).1 (some ())).value =
      some (.ok (some exampleFresh)) := by decide +kernel
  have hfiles : (Prog.ask exampleLatched : OwnerProg (Except String Unit)).Safe
      (savesOnly fun file => file = exampleLatched) (fun _ _ => True) () := ⟨rfl, fun _ => trivial⟩
  exact ⟨_, _, hreach, hvalue,
    checkpoint_read_whole exampleLibrary_lossless exampleDisk_saved hfiles hreach hvalue⟩

/-! ## What the runtime sees -/

/-- What a save is answered to the runtime. -/
def Saved.answer : Saved → Except String Unit
  | .written => .ok ()
  | .failed error _ => .error error

/-- **To the runtime a save is one write.** A save that ends, with whatever answer, leaves what
`VmWorld.persist` says of an outcome with that answer; one that is cut leaves the file from before, or
what it was to save. Whoever loads the checkpoint next finds that file. -/
theorem persist_refines {w : VmWorld} {answer : Option (Except String Unit)}
    (hlossless : lib.Lossless) (h : SaveRun lib path last since d)
    (hstores : lib.Matches w.disk (d.holds path))
    (hrun : d.Run (CheckpointStore.persist lib path process file) answer d') :
    ∃ saved : Saved, (∀ ended, answer = some ended → saved.answer = ended) ∧
      lib.Matches (w.persist file saved).disk (d'.holds path) ∧
      ∀ result d'', d'.Run (CheckpointStore.load lib path vmName deviceAlias) (some result) d'' →
        Unreadable result ∨ result = load (w.persist file saved).disk vmName deviceAlias := by
  suffices ∃ saved : Saved, (∀ ended, answer = some ended → saved.answer = ended) ∧
      lib.Matches (w.persist file saved).disk (d'.holds path) by
    obtain ⟨saved, hanswer, hmatches⟩ := this
    exact ⟨saved, hanswer, hmatches, fun _ _ hrun => load_matches hlossless hmatches hrun⟩
  obtain ⟨l, hintact, hwithin⟩ := h.intact process
  obtain ⟨⟨l', hintact', -, hdone⟩, hholds⟩ := hintact.run (temporaryPath_ne path process)
    (fun bytes hencodes => ⟨file, trivial, hencodes⟩) (fun _ _ => trivial) hrun
    (hwithin.mono fun _ _ => trivial) (persist_safe fun _ hencodes => hencodes)
  -- Unless the save succeeds, either file may be in place.
  have hkept : ∀ error, d'.holds path = d.holds path →
      lib.Matches (w.persist file (.failed error false)).disk (d'.holds path) := by
    intro error hsame
    rw [hsame]
    exact hstores
  have hnew : ∀ bytes, lib.Encodes file bytes → d'.holds path = some bytes →
      lib.Matches (some file) (d'.holds path) := by
    intro bytes hencodes hplace
    rw [hplace]
    exact hencodes
  cases answer with
  | none =>
      rcases hholds with hsame | ⟨bytes, hencodes, hplace⟩
      · exact ⟨.failed "" false, by rintro ended ⟨⟩, hkept "" hsame⟩
      · exact ⟨.failed "" true, by rintro ended ⟨⟩, hnew bytes hencodes hplace⟩
  | some ended =>
      cases ended with
      | ok _ =>
          obtain ⟨bytes, hencodes, hvisible, -⟩ := hdone _ rfl rfl
          exact ⟨.written, by rintro ended ⟨⟩; rfl, hnew bytes hencodes (hintact'.visible _ hvisible)⟩
      | error error =>
          rcases hholds with hsame | ⟨bytes, hencodes, hplace⟩
          · exact ⟨.failed error false, by rintro ended ⟨⟩; rfl, hkept error hsame⟩
          · exact ⟨.failed error true, by rintro ended ⟨⟩; rfl, hnew bytes hencodes hplace⟩

def exampleWorld : VmWorld := { VmWorld.initial with disk := some exampleFresh }

theorem latching_refines : ∃ (d' : Disk String UInt8) (saved : Saved),
    exampleDisk.Run (CheckpointStore.persist exampleLibrary "control.json" 7 exampleLatched)
      (some (.ok ())) d' ∧ saved.answer = .ok () ∧ exampleLibrary.Matches
        (exampleWorld.persist exampleLatched saved).disk (d'.holds "control.json") := by
  have hdisk : exampleWorld.disk = some exampleFresh := rfl
  have hstores : exampleLibrary.Matches exampleWorld.disk (exampleDisk.holds "control.json") := by
    obtain ⟨l, hintact, hwithin⟩ := exampleDisk_saved.intact 7
    obtain ⟨found, hfound | ⟨_, hnone, -⟩, hmatches⟩ := hwithin.holds hintact
    · rwa [hdisk, ← hfound]
    · cases hnone
  have hrun : exampleDisk.Run
      (CheckpointStore.persist exampleLibrary "control.json" 7 exampleLatched) (some (.ok ())) _ :=
    persist_served (fun _ => rfl) exampleLatched_encodes rfl
  obtain ⟨saved, hanswer, hmatches, -⟩ := @persist_refines exampleLibrary "control.json" 7
    exampleLatched exampleDisk _ _ _ "guest" "memory0" exampleWorld _ exampleLibrary_lossless
    exampleDisk_saved hstores hrun
  refine ⟨_, saved, hrun, ?_, hmatches⟩
  exact hanswer (.ok ()) rfl

end VirtioMem.Host
