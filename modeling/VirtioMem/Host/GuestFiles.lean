import Mathlib.Data.List.Infix
import VirtioMem.Host.Base64
import VirtioMem.Lib.Effect
import VirtioMem.Lib.Text
import VirtioMem.Lib.Word

/-!
# Reading a guest file

The host reads the guest's publication through the agent: open, read in chunks until the agent says
that the file ends, close. Every answer may be anything: an error, a text that does not parse, a chunk
of any size, an empty one, a wrong count. What parses is the business of the JSON library, the
parameter `json`.

The program is answered from a sequence, one answer for each request it sends (`talk`). Its loop is
looked at one chunk at a time, and an induction on the reads that are left gives the whole run: what
was read, what was asked for, and how it ended (`readFile_spec`).
-/

namespace VirtioMem.Host

open VirtioMem.Effect VirtioMem.Result VirtioMem.Text VirtioMem.Word

def maxGuestFileReads : Nat := 16

/-- What the host asks the agent for. -/
inductive AgentRequest where
  | guestFileOpen (path mode : String)
  | guestFileRead (handle : U64) (count : Nat)
  | guestFileClose (handle : U64)
  deriving DecidableEq

structure ReadResult where
  count : Nat
  bufferBase64 : String
  eof : Bool

/-- What the JSON library makes of a response: the types it is parsed into, or the text of the error. -/
structure AgentJson where
  openResponse : String → Except String U64
  readResponse : String → Except String ReadResult
  /-- Of any value: whether it has an object under `return`. -/
  returnsObject : String → Except String Bool

/-- A program that sends requests to the agent, each answered by a response or by an error. -/
abbrev Agent (α : Type) : Type :=
  ExceptT String (Prog AgentRequest fun _ => Except String String) α

namespace AgentJson

variable (json : AgentJson)

def handle (response : String) : Except String U64 :=
  (json.openResponse response).mapError fun error => s!"parse guest-file-open response: {error}"

/-- A chunk of the file, and whether it is the last one. -/
def chunk (response : String) : Except String (List UInt8 × Bool) := do
  let read ← (json.readResponse response).mapError
    fun error => s!"parse guest-file-read response: {error}"
  let bytes ← decodeBase64 read.bufferBase64
  if read.count ≠ bytes.length then
    .error s!"guest-file-read count {read.count} does not match decoded length {bytes.length}"
  else .ok (bytes, read.eof)

def closed (response : String) : Except String Unit := do
  let returnsObject ← (json.returnsObject response).mapError
    fun error => s!"parse guest-file-close response: {error}"
  if returnsObject then .ok () else .error "guest-file-close response has no return object"

end AgentJson

namespace VirshGuestFiles

/-- Send one request and look at the response. -/
def exchange {α : Type} (request : AgentRequest) (check : String → Except String α) : Agent α :=
  .mk (.perform request fun answer => .pure (answer >>= check))

variable (json : AgentJson)

def openFile (path mode : String) : Agent U64 :=
  if isBlank path then throw "QGA guest file path must not be empty"
  else exchange (.guestFileOpen path mode) json.handle

def close (handle : U64) : Agent Unit := exchange (.guestFileClose handle) json.closed

/-- Runs `operation` on an open handle and always closes it, keeping the operation's error as the
primary failure. -/
def withHandle {α : Type} (handle : U64) (operation : Agent α) : Agent α := .mk do
  let result ← operation.run
  let closed ← (close json handle).run
  return match result, closed with
    | .ok value, .ok () => .ok value
    | .error error, .ok () => .error error
    | .ok _, .error closeError => .error closeError
    | .error error, .error closeError =>
        .error s!"{error}; additionally failed to close QGA handle: {closeError}"

/-- The loop over the chunks, `reads` of them at most. -/
def readChunks (handle : U64) (maximumBytes : Nat) : Nat → List UInt8 → Agent (List UInt8)
  | 0, _ => throw s!"QGA guest file did not reach EOF within {maxGuestFileReads} reads"
  | reads + 1, contents => do
      let requested ← ExceptT.mk <| .pure <| okOr
        ((checkedSub maximumBytes contents.length).bind fun remaining => checkedAdd remaining 1)
        "QGA read bound overflowed"
      let read ← exchange (.guestFileRead handle requested) json.chunk
      if read.1.isEmpty ∧ read.2 = false then
        throw "QGA guest-file-read made no progress before EOF"
      else if (contents ++ read.1).length > maximumBytes then
        throw s!"QGA guest file exceeds {maximumBytes} byte limit"
      else if read.2 then return contents ++ read.1
      else readChunks handle maximumBytes reads (contents ++ read.1)

/-- A collision with the publisher, which replaces the file. -/
def isCollision (error : String) : Bool :=
  "being used by another process".toList <:+: error.toList ||
    "sharing violation".toList <:+: error.toList

def openForReading (path : String) : Agent U64 := .mk do
  match ← (openFile json path "r").run with
  | .error error => if isCollision error then (openFile json path "r").run else return .error error
  | result => return result

def readFile (path : String) (maximumBytes : Nat) : Agent (List UInt8) := do
  let handle ← openForReading json path
  withHandle json handle (readChunks json handle maximumBytes maxGuestFileReads [])

/-! ## Programs that are answered from a sequence -/

/-- The requests a program sends, its result and the answer it has come to, when the answers from the
`n`-th on are what it gets. -/
def talk {α : Type} (answers : Nat → Except String String) (program : Agent α) (n : Nat) :
    List AgentRequest × Except String α × Nat :=
  let (events, outcome) := program.run.simulate (fun n _ => (answers n, n + 1)) n
  (events.map (·.1), outcome)

section Talk

variable {α β : Type} {answers : Nat → Except String String} {n : Nat}

theorem talk_exchange {request : AgentRequest} {check : String → Except String α} :
    talk answers (exchange request check) n = ([request], answers n >>= check, n + 1) := rfl

theorem talk_mk_bind {program : Agent α} {next : Except String α → Prog _ _ (Except String β)} :
    talk answers (.mk (program.run >>= next)) n =
      let first := talk answers program n
      let second := talk answers (.mk (next first.2.1)) first.2.2
      (first.1 ++ second.1, second.2) := by
  simp only [talk, ExceptT.run_mk]
  rw [show (program.run >>= next) = program.run.bind next from rfl, Prog.simulate_bind]
  simp only [List.map_append]

theorem talk_bind {program : Agent α} {next : α → Agent β} {value : α} {requests : List AgentRequest}
    {n' : Nat} (h : talk answers program n = (requests, .ok value, n')) :
    talk answers (program >>= next) n =
      (requests ++ (talk answers (next value) n').1, (talk answers (next value) n').2) := by
  rw [show (program >>= next) = .mk (program.run >>= ExceptT.bindCont next) from rfl, talk_mk_bind, h]
  rfl

theorem talk_bind_error {program : Agent α} {next : α → Agent β} {error : String}
    {requests : List AgentRequest} {n' : Nat}
    (h : talk answers program n = (requests, .error error, n')) :
    talk answers (program >>= next) n = (requests, .error error, n') := by
  rw [show (program >>= next) = .mk (program.run >>= ExceptT.bindCont next) from rfl, talk_mk_bind, h]
  show (requests ++ [], _, _) = _
  rw [List.append_nil]

end Talk

/-! ## The loop, one chunk at a time -/

/-- What a chunk that is taken looks like. -/
def Chunk (answer : Except String String) (bytes : List UInt8) (eof : Bool) : Prop :=
  ∃ response read, answer = .ok response ∧ json.readResponse response = .ok read ∧
    decodeBase64 read.bufferBase64 = .ok bytes ∧ read.count = bytes.length ∧ read.eof = eof

variable {json} {answers : Nat → Except String String} {handle : U64} {maximumBytes : Nat}

theorem chunk_eq_ok {answer : Except String String} {bytes : List UInt8} {eof : Bool} :
    (answer >>= json.chunk) = .ok (bytes, eof) ↔ Chunk json answer bytes eof := by
  simp only [bind_eq_ok, AgentJson.chunk, mapError_eq_ok, Chunk]
  constructor
  · rintro ⟨response, hanswer, read, hread, bytes', hbytes, h⟩
    split at h
    · cases h
    next hcount =>
      cases h
      exact ⟨response, read, hanswer, hread, hbytes, by simpa using hcount, rfl⟩
  · rintro ⟨response, read, hanswer, hread, hbytes, hcount, rfl⟩
    exact ⟨response, hanswer, read, hread, bytes, hbytes, by rw [if_neg (by simp [hcount])]⟩

theorem Chunk.unique {answer : Except String String} {bytes bytes' : List UInt8} {eof eof' : Bool}
    (h : Chunk json answer bytes eof) (h' : Chunk json answer bytes' eof') :
    bytes' = bytes ∧ eof' = eof := by
  rw [← chunk_eq_ok] at h h'
  rw [h] at h'
  cases h'
  exact ⟨rfl, rfl⟩

/-- The request for what is left, and one byte more. -/
abbrev request (handle : U64) (maximumBytes : Nat) (contents : List UInt8) : AgentRequest :=
  .guestFileRead handle (maximumBytes - contents.length + 1)

/-- **One read.** It asks for what is left. It ends in an error, unless it brings a chunk that fits; that
chunk is the last one, or it has bytes and the loop goes on. -/
theorem talk_readChunks_succ {reads n : Nat} {contents : List UInt8}
    (hmax : maximumBytes < Word.maximum) (h : contents.length ≤ maximumBytes) :
    let run := talk answers (readChunks json handle maximumBytes (reads + 1) contents) n
    (∃ error, run = ([request handle maximumBytes contents], .error error, n + 1) ∧
      ∀ bytes eof, Chunk json (answers n) bytes eof → (contents ++ bytes).length ≤ maximumBytes →
        bytes = [] ∧ eof = false) ∨
    (∃ bytes, Chunk json (answers n) bytes true ∧ (contents ++ bytes).length ≤ maximumBytes ∧
      run = ([request handle maximumBytes contents], .ok (contents ++ bytes), n + 1)) ∨
    (∃ bytes, Chunk json (answers n) bytes false ∧ bytes ≠ [] ∧
      (contents ++ bytes).length ≤ maximumBytes ∧
      run = (request handle maximumBytes contents ::
        (talk answers (readChunks json handle maximumBytes reads (contents ++ bytes)) (n + 1)).1,
        (talk answers (readChunks json handle maximumBytes reads (contents ++ bytes)) (n + 1)).2)) := by
  intro run
  -- The extra byte does not overflow.
  have hrequested : okOr ((checkedSub maximumBytes contents.length).bind fun remaining =>
      checkedAdd remaining 1) "QGA read bound overflowed" =
        .ok (maximumBytes - contents.length + 1) := by
    have hsub : checkedSub maximumBytes contents.length = some (maximumBytes - contents.length) :=
      checkedSub_eq_some.mpr (by omega)
    rw [okOr_eq_ok, hsub, Option.bind_some, checkedAdd_eq_some]
    exact ⟨rfl, by omega⟩
  have hrun : run = talk answers (exchange (request handle maximumBytes contents) json.chunk >>=
      fun read =>
        if read.1.isEmpty ∧ read.2 = false then
          throw "QGA guest-file-read made no progress before EOF"
        else if (contents ++ read.1).length > maximumBytes then
          throw s!"QGA guest file exceeds {maximumBytes} byte limit"
        else if read.2 then return contents ++ read.1
        else readChunks json handle maximumBytes reads (contents ++ read.1)) n := by
    show talk answers (readChunks json handle maximumBytes (reads + 1) contents) n = _
    rw [readChunks, hrequested]
    rfl
  -- In the order of the loop: a failed read, no progress, too much, the last chunk, one of several.
  cases hchunk : answers n >>= json.chunk with
  | error error =>
    refine .inl ⟨error, ?_, fun bytes eof h => ?_⟩
    · rw [hrun, talk_bind_error (by rw [talk_exchange, hchunk])]
    · rw [← chunk_eq_ok, hchunk] at h
      cases h
  | ok read =>
    obtain ⟨bytes, eof⟩ := read
    rw [talk_bind (by rw [talk_exchange, hchunk])] at hrun
    dsimp only at hrun
    rw [chunk_eq_ok] at hchunk
    by_cases hempty : bytes.isEmpty ∧ eof = false
    · refine .inl ⟨_, by rw [hrun, if_pos hempty]; rfl, fun bytes' eof' h _ => ?_⟩
      obtain ⟨rfl, rfl⟩ := hchunk.unique h
      simpa using hempty
    rw [if_neg hempty] at hrun
    by_cases hlarge : (contents ++ bytes).length > maximumBytes
    · refine .inl ⟨_, by rw [hrun, if_pos hlarge]; rfl, fun bytes' eof' h hfits => ?_⟩
      obtain ⟨rfl, rfl⟩ := hchunk.unique h
      omega
    rw [if_neg hlarge] at hrun
    have hfits : (contents ++ bytes).length ≤ maximumBytes := by omega
    cases eof with
    | true => exact .inr (.inl ⟨bytes, hchunk, hfits, hrun⟩)
    | false =>
      exact .inr (.inr ⟨bytes, hchunk, by simpa using hempty, hfits, hrun⟩)

/-! ## Whole runs -/

/-- The answers from the `first` on bring these chunks, none of them empty and none the last. -/
def Received (json : AgentJson) (answers : Nat → Except String String) :
    Nat → List (List UInt8) → Prop
  | _, [] => True
  | first, bytes :: rest =>
      Chunk json (answers first) bytes false ∧ bytes ≠ [] ∧ Received json answers (first + 1) rest

/-- The loop sends reads only, no more than are left. -/
theorem readChunks_requests (hmax : maximumBytes < Word.maximum) {reads n : Nat}
    {contents : List UInt8} (h : contents.length ≤ maximumBytes) :
    ∃ counts : List Nat, counts.length ≤ reads ∧
      (talk answers (readChunks json handle maximumBytes reads contents) n).1 =
        counts.map (.guestFileRead handle) ∧
      (talk answers (readChunks json handle maximumBytes reads contents) n).2.2 =
        n + counts.length := by
  induction reads generalizing n contents with
  | zero => exact ⟨[], Nat.le_refl _, rfl, rfl⟩
  | succ reads ih =>
    have hone : ∃ counts : List Nat, counts.length ≤ reads + 1 ∧
        [request handle maximumBytes contents] = counts.map (.guestFileRead handle) ∧
        n + 1 = n + counts.length :=
      ⟨[maximumBytes - contents.length + 1], by simp, rfl, rfl⟩
    rcases talk_readChunks_succ hmax h with ⟨error, hrun, -⟩ | ⟨bytes, -, -, hrun⟩ |
      ⟨bytes, -, -, hfits, hrun⟩ <;> rw [hrun]
    · exact hone
    · exact hone
    · obtain ⟨counts, hcounts, hsent, hused⟩ := ih (n := n + 1) hfits
      refine ⟨(maximumBytes - contents.length + 1) :: counts, by simpa using hcounts, ?_, ?_⟩
      · rw [hsent]
        rfl
      · rw [hused, List.length_cons]
        omega

/-- The loop returns what the chunks up to the last one hold. -/
theorem readChunks_eq_ok (hmax : maximumBytes < Word.maximum) {reads n n' : Nat}
    {contents out : List UInt8} (h : contents.length ≤ maximumBytes) :
    (talk answers (readChunks json handle maximumBytes reads contents) n).2 = (.ok out, n') ↔
      ∃ chunks last, chunks.length < reads ∧ Received json answers n chunks ∧
        Chunk json (answers (n + chunks.length)) last true ∧
        (contents ++ chunks.flatten ++ last).length ≤ maximumBytes ∧
        out = contents ++ chunks.flatten ++ last ∧ n' = n + chunks.length + 1 := by
  induction reads generalizing n contents with
  | zero =>
    constructor
    · intro hok
      cases hok
    · rintro ⟨chunks, last, hreads, -⟩
      exact absurd hreads (Nat.not_lt_zero _)
  | succ reads ih =>
    -- The next read fails, or brings the last chunk, or one more of them.
    rcases talk_readChunks_succ hmax h with ⟨error, hrun, hnone⟩ | ⟨bytes, hbytes, hfits, hrun⟩ |
      ⟨bytes, hbytes, hne, hfits, hrun⟩ <;> rw [hrun]
    · constructor
      · intro hok
        cases hok
      · rintro ⟨chunks, last, -, hreceived, hlast, htotal, -⟩
        cases chunks with
        | nil => cases (hnone last true hlast (by simpa using htotal)).2
        | cons bytes rest =>
          have hbytes := hnone bytes false hreceived.1 (by simp at htotal ⊢; omega)
          exact absurd hbytes.1 hreceived.2.1
    · constructor
      · intro hok
        cases hok
        exact ⟨[], bytes, by simp, trivial, hbytes, by simpa using hfits, by simp, rfl⟩
      · rintro ⟨chunks, last, -, hreceived, hlast, htotal, rfl, rfl⟩
        cases chunks with
        | nil =>
          obtain ⟨rfl, -⟩ := hbytes.unique hlast
          simp
        | cons first rest => cases (hbytes.unique hreceived.1).2
    · rw [ih hfits]
      constructor
      · rintro ⟨chunks, last, hreads, hreceived, hlast, htotal, rfl, rfl⟩
        refine ⟨bytes :: chunks, last, by simpa using hreads, ⟨hbytes, hne, hreceived⟩, ?_, ?_, ?_, ?_⟩
        · rwa [List.length_cons, Nat.add_comm chunks.length, ← Nat.add_assoc]
        · simpa using htotal
        · simp
        · rw [List.length_cons]
          omega
      · rintro ⟨chunks, last, hreads, hreceived, hlast, htotal, rfl, rfl⟩
        cases chunks with
        | nil => cases (hbytes.unique hlast).2
        | cons first chunks =>
          obtain ⟨hfirst, -, hreceived⟩ := hreceived
          obtain ⟨rfl, -⟩ := hbytes.unique hfirst
          refine ⟨chunks, last, by simpa using hreads, hreceived, ?_, by simpa using htotal, by simp, ?_⟩
          · rwa [List.length_cons, Nat.add_comm chunks.length, ← Nat.add_assoc] at hlast
          · rw [List.length_cons]
            omega

/-- The request behind chunks that fit asks for what they leave. -/
theorem readChunks_request (hmax : maximumBytes < Word.maximum) {reads n : Nat}
    {contents : List UInt8} {chunks : List (List UInt8)} (hreceived : Received json answers n chunks)
    (hreads : chunks.length < reads) (h : (contents ++ chunks.flatten).length ≤ maximumBytes) :
    (talk answers (readChunks json handle maximumBytes reads contents) n).1[chunks.length]? =
      some (request handle maximumBytes (contents ++ chunks.flatten)) := by
  induction chunks generalizing reads n contents with
  | nil =>
    obtain ⟨reads, rfl⟩ := Nat.exists_eq_succ_of_ne_zero (Nat.ne_of_gt hreads)
    simp only [List.flatten_nil, List.append_nil] at h ⊢
    rcases talk_readChunks_succ hmax h with ⟨error, hrun, -⟩ | ⟨bytes, -, -, hrun⟩ |
      ⟨bytes, -, -, -, hrun⟩ <;> rw [hrun] <;> rfl
  | cons bytes chunks ih =>
    obtain ⟨reads, rfl⟩ := Nat.exists_eq_succ_of_ne_zero (Nat.ne_of_gt (Nat.zero_lt_of_lt hreads))
    obtain ⟨hbytes, hne, hreceived⟩ := hreceived
    have hcontents : contents ++ (bytes :: chunks).flatten = contents ++ bytes ++ chunks.flatten := by
      simp
    rw [hcontents] at h ⊢
    have hfits : (contents ++ bytes).length ≤ maximumBytes := by
      rw [List.length_append] at h
      omega
    have hbefore : contents.length ≤ maximumBytes := by
      rw [List.length_append] at hfits
      omega
    rcases talk_readChunks_succ hmax hbefore with ⟨error, -, hnone⟩ | ⟨last, hlast, -, -⟩ |
      ⟨bytes', hbytes', -, -, hrun⟩
    · exact absurd (hnone bytes false hbytes hfits).1 hne
    · cases (hbytes.unique hlast).2
    · obtain ⟨rfl, -⟩ := hbytes.unique hbytes'
      rw [hrun, List.length_cons, List.getElem?_cons_succ]
      exact ih hreceived (Nat.lt_of_succ_lt_succ hreads) h

/-! ## The handle -/

/-- The handle is closed whatever the operation came to, and both have to succeed. -/
theorem talk_withHandle {α : Type} {operation : Agent α} {n : Nat} :
    (talk answers (withHandle json handle operation) n).1 =
        (talk answers operation n).1 ++ [.guestFileClose handle] ∧
      ∀ value, (talk answers (withHandle json handle operation) n).2.1 = .ok value ↔
        (talk answers operation n).2.1 = .ok value ∧
          (answers (talk answers operation n).2.2 >>= json.closed) = .ok () := by
  obtain ⟨requests, result, n', h⟩ : ∃ requests result n',
    talk answers operation n = (requests, result, n') := ⟨_, _, _, rfl⟩
  rw [withHandle, talk_mk_bind, h]
  dsimp only
  rw [talk_mk_bind, show close json handle = exchange (.guestFileClose handle) json.closed from rfl,
    talk_exchange]
  refine ⟨rfl, fun value => ?_⟩
  generalize answers n' >>= json.closed = closing
  cases result with
  | error error =>
    cases closing <;>
    · constructor
      · intro hok
        cases hok
      · rintro ⟨⟨⟩, -⟩
  | ok contents =>
    cases closing with
    | error error =>
      constructor
      · intro hok
        cases hok
      · rintro ⟨-, ⟨⟩⟩
    | ok done => exact ⟨fun hok => ⟨hok, rfl⟩, fun hok => hok.1⟩

/-- The open succeeds with this handle and takes `used` answers: at once, or on the second try after a
collision. -/
inductive Opens (json : AgentJson) (path : String) (answers : Nat → Except String String) :
    Nat → U64 → Prop
  | atOnce {handle : U64} (hpath : isBlank path = false)
      (hopen : (answers 0 >>= json.handle) = .ok handle) : Opens json path answers 1 handle
  | again {handle : U64} {error : String} (hpath : isBlank path = false)
      (hfailed : (answers 0 >>= json.handle) = .error error) (hcollision : isCollision error = true)
      (hopen : (answers 1 >>= json.handle) = .ok handle) : Opens json path answers 2 handle

theorem talk_openFile {path mode : String} {n : Nat} (hpath : isBlank path = false) :
    talk answers (openFile json path mode) n =
      ([.guestFileOpen path mode], answers n >>= json.handle, n + 1) := by
  rw [openFile, hpath, if_neg Bool.false_ne_true, talk_exchange]

/-- The one permitted retry. -/
theorem talk_again {path error : String} (hpath : isBlank path = false)
    (hfailed : (answers 0 >>= json.handle) = .error error) (hcollision : isCollision error = true) :
    talk answers (openForReading json path) 0 =
      ([.guestFileOpen path "r", .guestFileOpen path "r"], answers 1 >>= json.handle, 2) := by
  rw [openForReading, talk_mk_bind, talk_openFile hpath, hfailed]
  dsimp only
  rw [if_pos hcollision, show ExceptT.mk (openFile json path "r").run = openFile json path "r" from
    rfl, talk_openFile hpath]
  rfl

theorem Opens.talk_eq {path : String} {used : Nat} (h : Opens json path answers used handle) :
    talk answers (openForReading json path) 0 =
      (List.replicate used (.guestFileOpen path "r"), .ok handle, used) := by
  cases h with
  | atOnce hpath hopen =>
    rw [openForReading, talk_mk_bind, talk_openFile hpath, hopen]
    rfl
  | again hpath hfailed hcollision hopen =>
    rw [talk_again hpath hfailed hcollision, hopen]
    rfl

theorem openForReading_cases (json : AgentJson) (answers : Nat → Except String String)
    (path : String) :
    (∃ used handle, Opens json path answers used handle) ∨
      ∃ used error used', talk answers (openForReading json path) 0 =
        (List.replicate used (.guestFileOpen path "r"), .error error, used') := by
  -- No path, the first open, or the second behind a collision.
  cases hpath : isBlank path with
  | true =>
    refine .inr ⟨0, "QGA guest file path must not be empty", 0, ?_⟩
    have hcollision : isCollision "QGA guest file path must not be empty" = false := by
      decide +kernel
    rw [openForReading, talk_mk_bind, openFile, hpath, if_pos rfl, show talk answers
      (throw "QGA guest file path must not be empty" : Agent U64) 0 =
        ([], .error "QGA guest file path must not be empty", 0) from rfl]
    dsimp only
    rw [hcollision, if_neg Bool.false_ne_true]
    rfl
  | false =>
    cases hfirst : answers 0 >>= json.handle with
    | ok handle => exact .inl ⟨1, handle, .atOnce hpath hfirst⟩
    | error error =>
      cases hcollision : isCollision error with
      | false =>
        refine .inr ⟨1, error, 1, ?_⟩
        rw [openForReading, talk_mk_bind, talk_openFile hpath, hfirst]
        dsimp only
        rw [hcollision, if_neg Bool.false_ne_true]
        rfl
      | true =>
        cases hsecond : answers 1 >>= json.handle with
        | ok handle => exact .inl ⟨2, handle, .again hpath hfirst hcollision hsecond⟩
        | error error' =>
          refine .inr ⟨2, error', 2, ?_⟩
          rw [talk_again hpath hfirst hcollision, hsecond]
          rfl

/-! ## Reading a file -/

/-- The run behind a successful open. -/
theorem Opens.talk_readFile {path : String} {used : Nat} (h : Opens json path answers used handle) :
    talk answers (readFile json path maximumBytes) 0 =
      (List.replicate used (.guestFileOpen path "r") ++ (talk answers (withHandle json handle
        (readChunks json handle maximumBytes maxGuestFileReads [])) used).1,
        (talk answers (withHandle json handle
          (readChunks json handle maximumBytes maxGuestFileReads [])) used).2) :=
  talk_bind h.talk_eq

theorem Opens.unique {path : String} {used used' : Nat} {handle' : U64}
    (h : Opens json path answers used handle) (h' : Opens json path answers used' handle') :
    used' = used ∧ handle' = handle := by
  have hsame := h'.talk_eq.symm.trans h.talk_eq
  simp only [Prod.mk.injEq, Except.ok.injEq] at hsame
  exact ⟨hsame.2.2, hsame.2.1⟩

/-- **A guest file is read whole, within its bound, and its handle is closed.** Whatever the agent
answers: the contents are returned exactly where the open succeeds, sixteen reads bring valid chunks
through the last one, none but that one empty and no more bytes than allowed, and the close succeeds;
behind a successful open there are reads of the handle and then its only close; and every read asks for
one byte more than may still come. -/
theorem readFile_spec (json : AgentJson) (answers : Nat → Except String String) (path : String)
    {maximumBytes : Nat} (hmax : maximumBytes < Word.maximum) :
    let run := talk answers (readFile json path maximumBytes) 0
    (∀ contents, run.2.1 = .ok contents ↔ ∃ used handle chunks last,
      Opens json path answers used handle ∧ chunks.length < 16 ∧
      Received json answers used chunks ∧ Chunk json (answers (used + chunks.length)) last true ∧
      (chunks.flatten ++ last).length ≤ maximumBytes ∧
      (answers (used + chunks.length + 1) >>= json.closed) = .ok () ∧
      contents = chunks.flatten ++ last) ∧
    (∀ used handle, Opens json path answers used handle → ∃ counts : List Nat, counts.length ≤ 16 ∧
      run.1 = List.replicate used (.guestFileOpen path "r") ++ counts.map (.guestFileRead handle) ++
        [.guestFileClose handle]) ∧
    ((¬∃ used handle, Opens json path answers used handle) →
      ∀ request ∈ run.1, request = .guestFileOpen path "r") ∧
    ∀ used handle chunks, Opens json path answers used handle → chunks.length < 16 →
      Received json answers used chunks → chunks.flatten.length ≤ maximumBytes →
      run.1[used + chunks.length]? =
        some (.guestFileRead handle (maximumBytes - chunks.flatten.length + 1)) := by
  intro run
  have hempty : ([] : List UInt8).length ≤ maximumBytes := Nat.zero_le _
  refine ⟨fun contents => ?_, ?_, ?_, ?_⟩
  · constructor
    · -- What returns was opened, read to a last chunk and closed.
      intro hok
      rcases openForReading_cases json answers path with ⟨used, handle, hopen⟩ |
        ⟨used, error, used', hfailed⟩
      · rw [show run = _ from hopen.talk_readFile] at hok
        obtain ⟨hread, hclosed⟩ := (talk_withHandle.2 contents).mp hok
        obtain ⟨n', hdone⟩ : ∃ n', (talk answers
            (readChunks json handle maximumBytes maxGuestFileReads []) used).2 = (.ok contents, n') :=
          ⟨_, Prod.ext hread rfl⟩
        rw [hdone] at hclosed
        obtain ⟨chunks, last, hreads, hreceived, hlast, htotal, hcontents, rfl⟩ :=
          (readChunks_eq_ok hmax hempty).mp hdone
        exact ⟨used, handle, chunks, last, hopen, hreads, hreceived, hlast, htotal, hclosed, hcontents⟩
      · rw [show run = _ from talk_bind_error hfailed] at hok
        cases hok
    · -- And where the answers are such, the run returns.
      rintro ⟨used, handle, chunks, last, hopen, hreads, hreceived, hlast, htotal, hclosed, rfl⟩
      have hdone : (talk answers (readChunks json handle maximumBytes maxGuestFileReads []) used).2 =
          (.ok (chunks.flatten ++ last), used + chunks.length + 1) :=
        (readChunks_eq_ok hmax hempty).mpr
          ⟨chunks, last, hreads, hreceived, hlast, htotal, rfl, rfl⟩
      rw [show run = _ from hopen.talk_readFile]
      exact (talk_withHandle.2 _).mpr ⟨congrArg Prod.fst hdone, by rwa [hdone]⟩
  · intro used handle hopen
    obtain ⟨counts, hcounts, hsent, -⟩ :=
      @readChunks_requests json answers handle _ hmax maxGuestFileReads used [] hempty
    refine ⟨counts, hcounts, ?_⟩
    rw [show run = _ from hopen.talk_readFile]
    rw [talk_withHandle.1, hsent, List.append_assoc]
  · intro hnone
    rcases openForReading_cases json answers path with ⟨used, handle, hopen⟩ |
      ⟨used, error, used', hfailed⟩
    · exact absurd ⟨used, handle, hopen⟩ hnone
    · rw [show run = _ from talk_bind_error hfailed]
      exact fun request hmem => List.eq_of_mem_replicate hmem
  · intro used handle chunks hopen hreads hreceived hfits
    rw [show run = _ from hopen.talk_readFile]
    have hrequest :=
      @readChunks_request json answers handle _ hmax maxGuestFileReads used [] _ hreceived hreads hfits
    have hsent := (List.getElem?_eq_some_iff.mp hrequest).1
    dsimp only
    -- The reads stand behind the attempts to open and before the close.
    rw [talk_withHandle.1, List.getElem?_append_right (by simp), List.length_replicate,
      Nat.add_sub_cancel_left, List.getElem?_append_left hsent, hrequest]
    rfl

/-- A parser of the responses below. -/
def exampleJson : AgentJson where
  openResponse response :=
    if response = "\x7b\"return\":7\x7d" then .ok 7 else .error "expected value at line 1 column 1"
  readResponse response :=
    if response = "\x7b\"return\":\x7b\"count\":2,\"buf-b64\":\"YWI=\",\"eof\":false\x7d\x7d" then
      .ok ⟨2, "YWI=", false⟩
    else if response =
        "\x7b\"return\":\x7b\"count\":1,\"buf-b64\":\"Yw==\",\"eof\":true\x7d\x7d" then
      .ok ⟨1, "Yw==", true⟩
    else .error "expected value at line 1 column 1"
  returnsObject response :=
    if response = "\x7b\"return\":\x7b\x7d\x7d" then .ok true
    else .error "expected value at line 1 column 1"

/-- An agent that serves three bytes in two chunks. -/
def exampleAnswers (n : Nat) : Except String String :=
  match n with
  | 0 => .ok "\x7b\"return\":7\x7d"
  | 1 => .ok "\x7b\"return\":\x7b\"count\":2,\"buf-b64\":\"YWI=\",\"eof\":false\x7d\x7d"
  | 2 => .ok "\x7b\"return\":\x7b\"count\":1,\"buf-b64\":\"Yw==\",\"eof\":true\x7d\x7d"
  | 3 => .ok "\x7b\"return\":\x7b\x7d\x7d"
  | _ => .error "connection reset"

theorem two_chunks_read :
    (talk exampleAnswers (readFile exampleJson "C:\\telemetry.json" 3) 0).2.1 = .ok [97, 98, 99] := by
  have hmax : 3 < Word.maximum := by decide
  refine ((readFile_spec exampleJson exampleAnswers "C:\\telemetry.json" hmax).1 _).mpr
    ⟨1, 7, [[97, 98]], [99], .atOnce (by decide +kernel) (by decide +kernel), by decide, ?_, ?_,
      by decide, by decide +kernel, rfl⟩
  · refine ⟨⟨_, ⟨2, "YWI=", false⟩, rfl, ?_, ?_, rfl, rfl⟩, by decide, trivial⟩
    · rfl
    · decide +kernel
  · refine ⟨_, ⟨1, "Yw==", true⟩, rfl, ?_, ?_, rfl, rfl⟩
    · rfl
    · decide +kernel

end VirshGuestFiles

end VirtioMem.Host
