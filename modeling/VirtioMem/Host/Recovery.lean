import VirtioMem.Host.Status

/-!
# Recovering from a latch

`clear-latch` is the only way out of a latch. It works on a converged device and goes through the same
journal as normal operation: a request that is still open is given a terminal result, measured from the
allocation its command started at, and only then is the file written without latch and intent.

The journal refuses a result that was observed before the one it replaces. What a latch leaves behind is
such a result, observed by the daemon's clock; so a clearing needs a clock that has not fallen behind it
(`ClockAccepts`). Everything else that could refuse it has been established by the runs themselves.
-/

namespace VirtioMem.Host

open VirtioMem.Core VirtioMem.Effect VirtioMem.Text VirtioMem.Word

/-! ## What a clearing comes to -/

/-- The answer of a clearing that writes, and the file on disk afterwards. -/
def Saved.leaves (saved : Saved) (message : String) (written : CheckpointFile)
    (file : Option CheckpointFile) : Except String String × Option CheckpointFile :=
  match saved with
  | .written => (.ok message, some written)
  | .failed error true => (.error error, some written)
  | .failed error false => (.error error, file)

/-- The answer of a clearing that came this far, and the file on disk afterwards. -/
def leftBy (cleared : Except String (String × Option CheckpointFile)) (saved : Saved)
    (file : Option CheckpointFile) : Except String String × Option CheckpointFile :=
  match cleared with
  | .error error => (.error error, file)
  | .ok (message, none) => (.ok message, file)
  | .ok (message, some written) => saved.leaves message written file

/-- The answer of a clearing, and the file it leaves behind, for what saving it came to. -/
def clearLatch (config : HostConfig) (live : VirtioMemState) (fingerprint reason : String)
    (now : Nat) (apply : Bool) (saved : Saved) (file : Option CheckpointFile) :
    Except String String × Option CheckpointFile :=
  leftBy (clearActuationLatch config live fingerprint reason now apply file) saved file

/-- The clearing as the operator's tool carries it out. -/
def Operator.clear (config : HostConfig) (live : VirtioMemState) (fingerprint reason : String)
    (now : Nat) (apply : Bool) (file : Option CheckpointFile) : OperatorAction String := do
  let cleared ← Action.ofExcept
    (clearActuationLatch config live fingerprint reason now apply file)
  saveCleared cleared

variable {config : HostConfig} {live : VirtioMemState} {fingerprint reason : String} {now : Nat}
  {apply : Bool} {saved : Saved} {file : Option CheckpointFile} {w : VmWorld}

theorem leftBy_runs {cleared : Except String (String × Option CheckpointFile)}
    {file : Option CheckpointFile} (hfile : w.disk = file) :
    Action.wp ⟨fun _ _ => True, VmWorld.next⟩
      (Action.ofExcept cleared >>= Operator.saveCleared)
      (fun message _ w' => ∃ saved, leftBy cleared saved file = (.ok message, w'.disk))
      (fun error _ w' => ∃ saved, leftBy cleared saved file = (.error error, w'.disk)) () w := by
  subst hfile
  cases cleared with
  | error error => exact ⟨.written, rfl⟩
  | ok found =>
      obtain ⟨message, written⟩ := found
      cases written with
      | none => exact ⟨.written, rfl⟩
      | some file =>
          refine ⟨trivial, fun saved => ?_⟩
          cases saved with
          | written => exact ⟨.written, rfl⟩
          | failed error visible =>
              cases visible with
              | true => exact ⟨.failed error true, rfl⟩
              | false => exact ⟨.failed error false, rfl⟩

/-- **`clearLatch` is what a run of the tool comes to**: there is no other answer and no other file. -/
theorem clear_runs {events : List (Event VmAns)} {answer : Except String String}
    (h : (Operator.clear config live fingerprint reason now apply file ()).Runs events
      (some (answer, ()))) (hfile : w.disk = file) :
    ∃ saved, clearLatch config live fingerprint reason now apply saved file =
      (answer, (operatorLaw.after w events).disk) := by
  unfold Operator.clear at h
  unfold clearLatch
  generalize clearActuationLatch config live fingerprint reason now apply file = cleared at h ⊢
  have hpost := (Prog.Safe.accepts (@leftBy_runs w cleared file hfile) h).2 _ rfl
  cases answer <;> exact hpost

/-! ## What it should come to -/

/-- A reason the operator may give. -/
def Acceptable (reason : String) : Prop :=
  ((trim reason).isEmpty || (trim reason).utf8ByteSize > 256 || hasControl (trim reason)) = false

/-- The admitted request has no terminal result. -/
def Outstanding (journal : MemoryRequestJournal) (request : MemoryRequest) : Prop :=
  journal.request = some request ∧
    ∀ result, journal.result = some result → result.terminal = false

/-- A terminal result equal to the observed movement from the intent's starting allocation, or a
rejection with zero bytes where no intent was recorded. -/
structure Closes (intent : Option CommandIntent) (live : VirtioMemState) (request : MemoryRequest)
    (result : MemoryResult) : Prop where
  own : result.request = request
  terminal : result.terminal = true
  executed : ∀ recorded, intent = some recorded →
    result.actualBytes = moved request recorded live ∧
      result.outcome =
        if moved request recorded live = request.bytes then .completed else .partialMove
  unexecuted : intent = none → result.outcome = .rejected ∧ result.actualBytes = 0

/-- **What a clearing makes of the control state**: no latch, no intent, and a result for the request
that was still open. -/
structure Recovered (live : VirtioMemState) (before after : DurableControlState) : Prop where
  unlatched : after.latched = false
  idle : after.intent = none
  request : after.journal.request = before.journal.request
  resolved : ∀ request, Outstanding before.journal request →
    ∃ result, after.journal.result = some result ∧ Closes before.intent live request result
  kept : (¬ ∃ request, Outstanding before.journal request) → after.journal = before.journal

/-- **The clock is not behind the journal.** An open request can be given a result that is observed
now. -/
def ClockAccepts (journal : MemoryRequestJournal) (now : Nat) : Prop :=
  ∀ request, Outstanding journal request →
    now ≠ 0 ∧ ∀ result, journal.result = some result → result.observedUnixMillis ≤ now

/-- What a clearing asks of the checkpoint, the device and the operator before it writes. -/
structure Clearable (config : HostConfig) (live : VirtioMemState) (reason : String)
    (file : Option CheckpointFile) : Prop where
  loads : load file config.vmName config.deviceAlias = .ok file
  latched : (controlOf file).latched = true
  valid : live.Valid
  converged : live.requestedBytes = live.currentBytes
  acceptable : Acceptable reason

/-! ## The journal -/

theorem outstanding_iff {journal : MemoryRequestJournal} :
    (journal.request.isSome && journal.result.all fun result => !result.terminal) = true ↔
      ∃ request, Outstanding journal request := by
  unfold Outstanding
  cases journal.request <;> cases journal.result <;> simp

/-- What the operator's clearing records resolves the request. -/
theorem clearedResult_resolves {control : DurableControlState} {request : MemoryRequest}
    (h : control.journal.request = some request) : ∃ result,
      clearedResult control live now reason = some result ∧
        Closes control.intent live request result ∧ result.observedUnixMillis = now ∧
        result.actualBytes ≤ request.bytes ∧ result.outcomeAgrees request = true := by
  unfold clearedResult
  cases hintent : control.intent with
  | some intent =>
      have hresult : movementResult control.journal intent live now
          (some s!"operator cleared the latch: {reason}") = some _ :=
        congrArg (Option.map _) h
      obtain ⟨-, hobserved, hactual, hagrees⟩ := movementResult_agrees hresult
      refine ⟨_, hresult, ⟨rfl, (movementResult_eq_some hresult).2, ?_, ?_⟩, hobserved, hactual,
        hagrees⟩
      · rintro _ ⟨⟩
        exact ⟨rfl, rfl⟩
      · intro hnone
        cases hnone
  | none =>
      refine ⟨_, congrArg (Option.map _) h, ⟨rfl, rfl, ?_, fun _ => ⟨rfl, rfl⟩⟩, rfl,
        Nat.zero_le _, rfl⟩
      intro recorded hrecorded
      cases hrecorded

/-- **When the journal lets a latch be cleared.** -/
theorem clearedJournal_isOk {control : DurableControlState} (h : control.journal.Valid) :
    (∃ journal, clearedJournal control live now reason = .ok journal) ↔
      ClockAccepts control.journal now := by
  unfold clearedJournal
  split
  · next hopen =>
    obtain ⟨request, houtstanding⟩ := outstanding_iff.mp hopen
    obtain ⟨result, hresult, hresolves, hobserved, hactual, hagrees⟩ :=
      @clearedResult_resolves live reason now _ _ houtstanding.1
    rw [hresult]
    dsimp only
    constructor
    · rintro ⟨journal, hjournal⟩ other hother
      split at hjournal
      · cases hjournal
      next after hrecord =>
      obtain ⟨-, -, hvalid, hprevious⟩ := MemoryRequestJournal.recordResult_ok hrecord
      refine ⟨?_, fun previous hsome => hobserved ▸ (hprevious previous hsome).2⟩
      exact hobserved ▸ (MemoryResult.validateFor_eq_ok.mp hvalid).2.2.1
    · intro hclock
      obtain ⟨hpos, hle⟩ := hclock request houtstanding
      have hrequest := hresolves.own
      subst hrequest
      have hok := MemoryRequestJournal.recordResult_isOk h houtstanding.1 (hobserved.trans_ne hpos)
        hactual hagrees fun previous hprevious =>
          ⟨houtstanding.2 previous hprevious, hobserved.symm ▸ hle previous hprevious⟩
      split
      · next error _ hrecord =>
        rw [hrecord] at hok
        cases hok
      · exact ⟨_, rfl⟩
  · next hclosed =>
    refine iff_of_true ⟨_, rfl⟩ ?_
    intro request houtstanding
    exact absurd (outstanding_iff.mpr ⟨request, houtstanding⟩) hclosed

theorem clearedJournal_recovers {control : DurableControlState} {journal : MemoryRequestJournal}
    (hcleared : clearedJournal control live now reason = .ok journal) :
    Recovered live control ⟨none, none, journal⟩ := by
  unfold clearedJournal at hcleared
  split at hcleared
  · next hopen =>
    obtain ⟨request, houtstanding⟩ := outstanding_iff.mp hopen
    obtain ⟨result, hresult, hresolves, -, -, -⟩ :=
      @clearedResult_resolves live reason now _ _ houtstanding.1
    rw [hresult] at hcleared
    dsimp only at hcleared
    split at hcleared
    · cases hcleared
    next hrecord =>
    cases hcleared
    obtain ⟨-, rfl, -, -⟩ := MemoryRequestJournal.recordResult_ok hrecord
    refine ⟨rfl, rfl, rfl, ?_, fun hnone => absurd ⟨request, houtstanding⟩ hnone⟩
    intro other hother
    have hsame : other = request := Option.some.inj (hother.1.symm.trans houtstanding.1)
    subst hsame
    exact ⟨_, rfl, hresolves.own, hresolves.terminal, hresolves.executed, hresolves.unexecuted⟩
  · next hclosed =>
    cases hcleared
    refine ⟨rfl, rfl, rfl, ?_, fun _ => rfl⟩
    intro request houtstanding
    exact absurd (outstanding_iff.mpr ⟨request, houtstanding⟩) hclosed

/-! ## The clearing -/

/-- The file a clearing writes. -/
def clearedFile (config : HostConfig) (fingerprint reason : String)
    (journal : MemoryRequestJournal) : CheckpointFile where
  version := checkpointVersion
  vmName := config.vmName
  deviceAlias := config.deviceAlias
  compatibilityFingerprint := fingerprint
  control := ⟨none, none, journal⟩
  lastLatchClearReason := some (trim reason)

/-- The operator's tool opens whatever can be loaded. -/
theorem openWith_migrating (h : load file config.vmName config.deviceAlias = .ok file) :
    Checkpoint.openWith config fingerprint true file =
      .ok ({
        vmName := config.vmName
        deviceAlias := config.deviceAlias
        compatibilityFingerprint := fingerprint
        lastLatchClearReason := file.bind CheckpointFile.lastLatchClearReason }, controlOf file) := by
  unfold Checkpoint.openWith
  rw [h]
  cases file <;> simp [controlOf]

/-- **What a clearing writes, and when.** -/
theorem clearActuationLatch_writes {message : String} {written : CheckpointFile} :
    clearActuationLatch config live fingerprint reason now apply file = .ok (message, some written) ↔
      apply = true ∧ Clearable config live reason file ∧ ∃ journal,
        clearedJournal (controlOf file) live now (trim reason) = .ok journal ∧
          message = clearMessage config live (trim reason) ∧
          written = clearedFile config fingerprint reason journal := by
  constructor
  · intro h
    obtain ⟨happly, hconverged, -, -, hjournal⟩ := clearActuationLatch_ok h
    subst happly
    -- Whatever is refused writes nothing, and so does a dry run.
    unfold clearActuationLatch at h
    split at h
    · cases h
    next hacceptable =>
    split at h
    · cases h
    next hvalid =>
    rw [if_neg (not_not.mpr hconverged)] at h
    split at h
    · cases h
    next checkpoint control hopen =>
    have hcontrol := openWith_control hopen
    unfold Checkpoint.openWith at hopen
    split at hopen
    · cases hopen
    next loaded hload =>
    have hloaded := load_eq_ok hload
    subst hloaded
    split at hopen
    · cases hopen
    cases hopen
    split at h
    · cases h
    next hlatched =>
    split at h
    · next hdry => cases hdry
    split at h
    · cases h
    next journal hcleared =>
    cases h
    refine ⟨rfl, ⟨hload, ?_, VirtioMemState.validate_eq_ok.mp hvalid, hconverged, ?_⟩, journal, hjournal,
      rfl, rfl⟩
    · rw [← hcontrol]
      simpa using hlatched
    · exact eq_false_of_ne_true hacceptable
  · rintro ⟨rfl, h, journal, hjournal, rfl, rfl⟩
    have hacceptable := h.acceptable
    unfold Acceptable at hacceptable
    have hlatched := h.latched
    unfold clearActuationLatch
    rw [if_neg (by simp [hacceptable]), VirtioMemState.validate_eq_ok.mpr h.valid]
    dsimp only
    rw [if_neg (not_not.mpr h.converged), openWith_migrating h.loads]
    dsimp only
    rw [if_neg (by simp [hlatched]), if_neg (by simp), hjournal]
    rfl

/-- A checkpoint that loads holds a valid journal. -/
theorem load_journal (h : load file config.vmName config.deviceAlias = .ok file) :
    (controlOf file).journal.Valid := by
  cases file with
  | none => exact ⟨nofun, nofun⟩
  | some found =>
      unfold load at h
      dsimp only at h
      split at h
      · cases h
      split at h
      · cases h
      next hvalid => exact MemoryRequestJournal.validate_eq_ok.mp hvalid

/-- **A clearing gets as far as writing exactly where it should and the clock is not behind.** -/
theorem clears_iff :
    (∃ message written, clearActuationLatch config live fingerprint reason now apply file =
        .ok (message, some written)) ↔
      apply = true ∧ Clearable config live reason file ∧
        ClockAccepts (controlOf file).journal now := by
  simp only [clearActuationLatch_writes]
  constructor
  · rintro ⟨_, _, happly, hclearable, journal, hjournal, -, -⟩
    exact ⟨happly, hclearable, (clearedJournal_isOk (load_journal hclearable.loads)).mp ⟨_, hjournal⟩⟩
  · rintro ⟨happly, hclearable, hclock⟩
    obtain ⟨journal, hjournal⟩ :=
      (@clearedJournal_isOk live (trim reason) _ _ (load_journal hclearable.loads)).mpr hclock
    exact ⟨_, _, happly, hclearable, journal, hjournal, rfl, rfl⟩

/-- **A refused clearing.** On a checkpoint that is not latched, or a device that has not converged, the
answer is an error. -/
theorem clearLatch_refuses (h : (controlOf file).latched = false ∨
    live.requestedBytes ≠ live.currentBytes) :
    ∃ error, clearLatch config live fingerprint reason now apply saved file =
      (.error error, file) := by
  have herror : ∃ error, clearActuationLatch config live fingerprint reason now apply file =
      .error error := by
    unfold clearActuationLatch
    split
    · exact ⟨_, rfl⟩
    split
    · exact ⟨_, rfl⟩
    split
    · exact ⟨_, rfl⟩
    next hconverged =>
    split
    · exact ⟨_, rfl⟩
    next checkpoint control hopen =>
    rcases h with hlatched | hdiverged
    · rw [openWith_control hopen, hlatched]
      exact ⟨_, rfl⟩
    · exact absurd hdiverged hconverged
  obtain ⟨error, herror⟩ := herror
  refine ⟨error, ?_⟩
  unfold clearLatch leftBy
  rw [herror]

/-- What a clearing comes to where it writes. -/
theorem clearLatch_of_writes {message : String} {written : CheckpointFile}
    (h : clearActuationLatch config live fingerprint reason now apply file =
      .ok (message, some written)) :
    clearLatch config live fingerprint reason now apply saved file =
      saved.leaves message written file := by
  unfold clearLatch leftBy
  rw [h]

/-- A clearing that does not write leaves the file alone. -/
theorem clearLatch_of_not_writes (h : ¬ ∃ message written,
    clearActuationLatch config live fingerprint reason now apply file =
      .ok (message, some written)) :
    (clearLatch config live fingerprint reason now apply saved file).2 = file := by
  unfold clearLatch leftBy
  split
  · rfl
  · rfl
  · next message written hwrites => exact absurd ⟨message, written, hwrites⟩ h

/-- What is written is never what was there: it is not latched. -/
theorem written_ne {message : String} {written : CheckpointFile}
    (h : clearActuationLatch config live fingerprint reason now apply file =
      .ok (message, some written)) : file ≠ some written := by
  rintro rfl
  obtain ⟨-, hclearable, journal, -, -, rfl⟩ := clearActuationLatch_writes.mp h
  exact absurd hclearable.latched (by simp [controlOf, clearedFile, DurableControlState.latched])

/-! ## What the tool promises -/

/-- An applied clearing succeeds and leaves what it should. -/
def Recovers (config : HostConfig) (live : VirtioMemState) (fingerprint reason : String) (now : Nat)
    (saved : Saved) (file : Option CheckpointFile) : Prop :=
  ∃ message written, clearLatch config live fingerprint reason now true saved file =
    (.ok message, some written) ∧ Recovered live (controlOf file) written.control

/-- A clearing that fails, or is a dry run, leaves the file alone. -/
def Harmless (config : HostConfig) (live : VirtioMemState) (fingerprint reason : String) (now : Nat)
    (apply : Bool) (saved : Saved) (file : Option CheckpointFile) : Prop :=
  apply = false ∨ (∃ error,
      (clearLatch config live fingerprint reason now apply saved file).1 = .error error) →
    (clearLatch config live fingerprint reason now apply saved file).2 = file

theorem recovers_iff (h : Clearable config live reason file) :
    Recovers config live fingerprint reason now saved file ↔
      ClockAccepts (controlOf file).journal now ∧ saved = .written := by
  unfold Recovers
  constructor
  · rintro ⟨message, written, hcleared, hrecovered⟩
    by_cases hwrites : ∃ message written,
        clearActuationLatch config live fingerprint reason now true file = .ok (message, some written)
    · obtain ⟨other, file', hfile'⟩ := hwrites
      rw [clearLatch_of_writes hfile'] at hcleared
      refine ⟨(clears_iff.mp ⟨other, file', hfile'⟩).2.2, ?_⟩
      unfold Saved.leaves at hcleared
      split at hcleared
      · rfl
      · cases hcleared
      · cases hcleared
    · -- The file would be the latched one.
      have hsame : (clearLatch config live fingerprint reason now true saved file).2 = file :=
        clearLatch_of_not_writes hwrites
      rw [hcleared] at hsame
      have hlatched := h.latched
      rw [← hsame] at hlatched
      exact absurd hlatched (by rw [Bool.not_eq_true]; exact hrecovered.unlatched)
  · rintro ⟨hclock, rfl⟩
    obtain ⟨message, written, hwrites⟩ :=
      (@clears_iff config live fingerprint reason now true file).mpr ⟨rfl, h, hclock⟩
    obtain ⟨-, -, journal, hjournal, -, rfl⟩ := clearActuationLatch_writes.mp hwrites
    exact ⟨message, _, clearLatch_of_writes hwrites, clearedJournal_recovers hjournal⟩

theorem harmless_iff :
    Harmless config live fingerprint reason now apply saved file ↔
      ¬ (apply = true ∧ Clearable config live reason file ∧
        ClockAccepts (controlOf file).journal now ∧ ∃ error, saved = .failed error true) := by
  by_cases hwrites : ∃ message written,
      clearActuationLatch config live fingerprint reason now apply file = .ok (message, some written)
  · obtain ⟨message, written, hwritten⟩ := hwrites
    obtain ⟨happly, hclearable, hclock⟩ := clears_iff.mp ⟨message, written, hwritten⟩
    unfold Harmless
    rw [clearLatch_of_writes hwritten]
    cases saved with
    | written =>
        refine iff_of_true ?_ ?_
        · rintro (hdry | ⟨error, herror⟩)
          · rw [happly] at hdry
            cases hdry
          · cases herror
        · rintro ⟨-, -, -, error, herror⟩
          cases herror
    | failed error visible =>
        cases visible with
        -- The write became visible and was answered with an error all the same.
        | true =>
            refine iff_of_false ?_ (not_not.mpr ⟨happly, hclearable, hclock, error, rfl⟩)
            intro hharmless
            exact written_ne hwritten (hharmless (.inr ⟨error, rfl⟩)).symm
        | false =>
            refine iff_of_true (fun _ => rfl) ?_
            rintro ⟨-, -, -, other, hother⟩
            cases hother
  · refine iff_of_true (fun _ => clearLatch_of_not_writes hwrites) ?_
    rintro ⟨happly, hclearable, hclock, -⟩
    exact hwrites (clears_iff.mpr ⟨happly, hclearable, hclock⟩)

variable {pool : Option Nat} {configs : List HostConfig} {labels : List Label}
  {process : Option HostRuntime} {index : Nat}

/-- **When a latch can be cleared.** For every latched checkpoint of every run, every valid converged
device and every acceptable reason, the clearing recovers exactly where the clock is not behind the
journal and the file is written. Whatever the input, a clearing that fails or is a dry run changes the
file only where the failure came after the new file was in place; and without a latch, or on a device
that has not converged, it is refused. -/
theorem clearing_iff (h : HostRun pool configs labels process) (hranged : Ranged labels)
    (hconfig : configs[index]? = some config) :
    (∀ live fingerprint reason now saved,
      (HostWorld.after .initial labels index).control.latched = true → live.Valid →
      live.requestedBytes = live.currentBytes → Acceptable reason →
      (Recovers config live fingerprint reason now saved
          (HostWorld.after .initial labels index).disk ↔
        ClockAccepts (HostWorld.after .initial labels index).control.journal now ∧
          saved = .written)) ∧
    (∀ config live fingerprint reason now apply saved file,
      (Harmless config live fingerprint reason now apply saved file ↔
        ¬ (apply = true ∧ Clearable config live reason file ∧
          ClockAccepts (controlOf file).journal now ∧ ∃ error, saved = .failed error true)) ∧
      ((controlOf file).latched = false ∨ live.requestedBytes ≠ live.currentBytes →
        ∃ error, (clearLatch config live fingerprint reason now apply saved file).1 =
          .error error)) := by
  refine ⟨?_, ?_⟩
  · intro live fingerprint reason now saved hlatched hvalid hconverged hacceptable
    have hfile := (hostRun_recorded h hranged).1 index config hconfig
    exact recovers_iff ⟨load_durable hfile.durable, hlatched, hvalid, hconverged, hacceptable⟩
  · intro config live fingerprint reason now apply saved file
    refine ⟨harmless_iff, fun hrefused => ?_⟩
    obtain ⟨error, herror⟩ := @clearLatch_refuses config live fingerprint reason now apply saved file
      hrefused
    exact ⟨error, congrArg Prod.fst herror⟩

/-- The addition is under way, and two hundred seconds in the device cannot be read. -/
def lostScript : Script := { grantedScript with unixMillis := 200000, readable := fun _ => false }

def lostLabels : List Label :=
  .started :: (Script.rounds [grantedScript, lostScript] exampleRuntime grantedDevices).1

theorem lost_run : ∃ s, HostRun none [exampleConfig] lostLabels (some s) :=
  ⟨_, (Script.playable_run exampleRuntime_run (by decide +kernel :
    Script.playable [grantedScript, lostScript] exampleRuntime grantedDevices = true)).1⟩

theorem lost_ranged : Ranged lostLabels := ranged_of_all (by decide +kernel)

theorem lost_latched : (HostWorld.after .initial lostLabels 0).control.latched = true := by
  decide +kernel

/-- At 300 s the latch of that VM is cleared. -/
theorem lost_recovers : Recovers exampleConfig (exampleDevice (3 * 2 ^ 30) (3 * 2 ^ 30)) "" "reviewed"
    300000 .written (HostWorld.after .initial lostLabels 0).disk := by
  obtain ⟨s, hrun⟩ := lost_run
  have hclock : ClockAccepts (HostWorld.after .initial lostLabels 0).control.journal 300000 := by
    have hobserved : ((HostWorld.after .initial lostLabels 0).control.journal.result.all
        fun result => result.observedUnixMillis ≤ 300000) = true := by decide +kernel
    intro request _
    refine ⟨by decide, fun result hresult => ?_⟩
    rw [hresult] at hobserved
    simpa using hobserved
  exact ((clearing_iff hrun lost_ranged rfl).1 (exampleDevice (3 * 2 ^ 30) (3 * 2 ^ 30)) "" "reviewed"
    300000 .written lost_latched (VirtioMemState.validate_eq_ok.mp (by decide +kernel)) rfl
    (by unfold Acceptable; decide +kernel)).mpr ⟨hclock, rfl⟩

/-- At 150 s, on a clock that was set back, it is not. -/
theorem lost_stuck : (∃ s, HostRun none [exampleConfig] lostLabels (some s)) ∧ Ranged lostLabels ∧
    (HostWorld.after .initial lostLabels 0).control.latched = true ∧
    (exampleDevice (3 * 2 ^ 30) (3 * 2 ^ 30)).Valid ∧ Acceptable "reviewed" ∧
    (clearLatch exampleConfig (exampleDevice (3 * 2 ^ 30) (3 * 2 ^ 30)) "" "reviewed" 150000 true
      .written (HostWorld.after .initial lostLabels 0).disk).1 =
        .error "memory result observation moved backwards" ∧
    ¬ Recovers exampleConfig (exampleDevice (3 * 2 ^ 30) (3 * 2 ^ 30)) "" "reviewed" 150000 .written
      (HostWorld.after .initial lostLabels 0).disk := by
  have herror : (clearLatch exampleConfig (exampleDevice (3 * 2 ^ 30) (3 * 2 ^ 30)) "" "reviewed"
      150000 true .written (HostWorld.after .initial lostLabels 0).disk).1 =
        .error "memory result observation moved backwards" := by decide +kernel
  refine ⟨lost_run, lost_ranged, lost_latched, VirtioMemState.validate_eq_ok.mp (by decide +kernel),
    by unfold Acceptable; decide +kernel, herror, ?_⟩
  rintro ⟨message, written, hcleared, -⟩
  rw [hcleared] at herror
  cases herror

end VirtioMem.Host
