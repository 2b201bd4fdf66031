import VirtioMem.Host.Recovery

/-!
# The trouble of one VM and the others

Most of what a round does for a VM ends the whole round where it fails. That every VM is served all
the same takes two things. Nothing fails: a round is steady, in a world that can be depended on. And
a round that has finished has run the code of every VM: its run is taken apart, VM by VM
(`observeFrom_runs`, `actFrom_runs`).

The world can be depended on but for the wall clock. A latch leaves an open request with a result
that was observed at its time. If the device converges after all, a second result is recorded, and the
journal refuses one that was observed before the first. Nothing catches that, so a clock that is set
back in between ends the round for every VM (`setBack_round`); where it is not, every VM is served
(`round_serves`).
-/

namespace VirtioMem.Host

open VirtioMem.Core VirtioMem.Effect VirtioMem.Word

/-! ## One VM's part of a round -/

def ofVm (index : Nat) : Event RuntimeAns → Option (Event VmAns)
  | ⟨.stopRequested, _⟩ => none
  | ⟨.vm other op, answer⟩ => if other = index then some ⟨op, answer⟩ else none

/-- What a round has asked for one VM, and what it was answered. -/
def eventsOf (index : Nat) (events : List (Event RuntimeAns)) : List (Event VmAns) :=
  events.filterMap (ofVm index)

variable {α : Type} {pool : Option Nat} {configs : List HostConfig} {labels : List Label}
  {s s' : HostRuntime} {vm vm' : VmController} {index other : Nat} {W : HostWorld}
  {events first second : List (Event RuntimeAns)}

@[simp] theorem eventsOf_append :
    eventsOf index (first ++ second) = eventsOf index first ++ eventsOf index second :=
  List.filterMap_append

@[simp] theorem eventsOf_stop {stopped : Bool} :
    eventsOf index (⟨.stopRequested, stopped⟩ :: events) = eventsOf index events := rfl

/-- A run of one VM's action within the runtime is a run of the action, and nothing else. -/
theorem onVm_runs {action : VmAction α} {outcome : Except HostRuntimeError α × HostRuntime}
    (hvm : s.vms[index]? = some vm)
    (h : (HostRuntime.onVm index action s).Runs events (some outcome)) :
    ∃ vm', (action vm).Runs (eventsOf index events) (some (outcome.1, vm')) ∧
      outcome.2 = { s with vms := s.vms.set index vm' } ∧
      ∀ other ≠ index, eventsOf other events = [] := by
  unfold HostRuntime.onVm at h
  rw [hvm] at h
  rcases Prog.Runs.bind_cases h with
    ⟨-, hcut⟩ | ⟨⟨answer, vm'⟩, first, second, rfl, hfirst, hsecond⟩
  · cases hcut
  cases hsecond
  obtain ⟨hruns, hsent⟩ := Prog.Runs.of_embed (ofVm index) (fun _ _ => by simp [ofVm]) hfirst
  rw [List.append_nil]
  refine ⟨vm', hruns, rfl, fun other hother => ?_⟩
  rw [eventsOf, List.filterMap_eq_nil_iff]
  intro event hmem
  obtain ⟨op, answer, rfl⟩ := hsent event hmem
  exact if_neg (Ne.symm hother)

/-! ## Taking a round apart -/

/-- The answers of a host whose files can be written, whose clock and memory can be read, and that
is not shutting down. -/
def Working : (op : RuntimeOp) → RuntimeAns op → Prop
  | .stopRequested, stopped => stopped = false
  | .vm _ .stopRequested, stopped => stopped = false
  | .vm _ .nowUnixMillis, answer => ∃ now, answer = .ok now
  | .vm _ .availableBytes, answer => ∃ bytes, answer = .ok bytes
  | .vm _ (.persist _), saved => saved = .written
  | _, _ => True

/-- Everything is answered so. -/
def AllWorking (events : List (Event RuntimeAns)) : Prop :=
  ∀ event ∈ events, Working event.1 event.2

theorem allWorking_append :
    AllWorking (first ++ second) ↔ AllWorking first ∧ AllWorking second := by
  simp only [AllWorking, List.mem_append, or_imp, forall_and]

/-- Where nobody asks the daemon to stop, the loop goes on. -/
theorem stop_runs {stopping going : RuntimeAction α}
    {outcome : Except HostRuntimeError α × HostRuntime} (hworking : AllWorking events)
    (h : ((do if ← Action.perform .stopRequested then stopping else going : RuntimeAction α) s).Runs
      events (some outcome)) :
    ∃ rest, events = ⟨.stopRequested, false⟩ :: rest ∧ AllWorking rest ∧
      (going s).Runs rest (some outcome) := by
  rcases Action.runs_bind h with
    ⟨_, _, hfirst, -⟩ | ⟨stopped, s', first, second, rfl, hfirst, hsecond⟩
  · obtain ⟨_, -, hanswer⟩ := Action.runs_perform hfirst
    cases hanswer
  obtain ⟨_, rfl, hanswer⟩ := Action.runs_perform hfirst
  cases hanswer
  have hstopped : stopped = false := hworking ⟨.stopRequested, stopped⟩ (by simp)
  subst hstopped
  exact ⟨second, rfl, (allWorking_append.mp hworking).2, hsecond⟩

theorem ofExcept_runs {answer : Except HostRuntimeError α} {value : α}
    (h : (Action.ofExcept answer s : Prog RuntimeOp RuntimeAns _).Runs events
      (some (.ok value, s'))) :
    answer = .ok value ∧ s' = s ∧ events = [] := by
  cases answer with
  | error error => cases h
  | ok found =>
      cases h
      exact ⟨rfl, rfl, rfl⟩

/-- What the first phase has done for one VM. -/
def ObservedIn (s s' : HostRuntime) (events : List (Event RuntimeAns)) (index : Nat)
    (seen : Observed) : Prop :=
  ∃ vm stopped vm', s.vms[index]? = some vm ∧ s'.vms[index]? = some vm' ∧
    (VmController.observed vm).Runs (eventsOf index events) (some (.ok (seen, stopped), vm'))

/-- **The first phase observes every VM.** -/
theorem observeFrom_runs {answer : Option (List Observed × Option HostRuntimeError)}
    {order : List Nat} :
    ∀ {observed : List Observed} {lastStop : Option HostRuntimeError} {s : HostRuntime}
      {events : List (Event RuntimeAns)}, order.Nodup → (∀ index ∈ order, index < s.vms.length) →
      AllWorking events →
      (HostRuntime.observeFrom observed lastStop order s).Runs events (some (.ok answer, s')) →
      ∃ reports lastStop', answer = some (observed ++ reports, lastStop') ∧
        s'.vms.length = s.vms.length ∧ s'.poolBytes = s.poolBytes ∧
        (∀ index, index ∉ order → eventsOf index events = [] ∧ s'.vms[index]? = s.vms[index]?) ∧
        ∀ (k index : Nat), order[k]? = some index → ∃ seen, reports[k]? = some seen ∧
          ObservedIn s s' events index seen := by
  -- By induction on the VMs that are left to observe.
  induction order with
  | nil =>
      intro observed lastStop s events _ _ _ h
      cases h
      exact ⟨[], lastStop, by simp, rfl, rfl, fun _ _ => ⟨rfl, rfl⟩, by simp⟩
  | cons index order ih =>
      intro observed lastStop s events hnodup hbound hworking h
      obtain ⟨hnotin, hnodup⟩ := List.nodup_cons.mp hnodup
      obtain ⟨rest, rfl, hworking, h⟩ := stop_runs hworking h
      have hlt : index < s.vms.length := hbound index List.mem_cons_self
      rcases Action.runs_bind h with
        ⟨_, _, -, herror⟩ | ⟨⟨seen, stopped⟩, s₁, first, second, rfl, hfirst, hsecond⟩
      · cases herror
      obtain ⟨vm', hruns, hs₁, hothers⟩ := onVm_runs (List.getElem?_eq_getElem hlt) hfirst
      dsimp only at hs₁ hruns
      subst hs₁
      obtain ⟨reports, lastStop', rfl, hlength, hpool, hsame, hreports⟩ := ih hnodup
        (by simpa using fun index hmem => hbound index (List.mem_cons_of_mem _ hmem))
        (allWorking_append.mp hworking).2 hsecond
      refine ⟨seen :: reports, lastStop', by simp, by simpa using hlength, hpool, ?_, ?_⟩
      · intro other hother
        rw [List.mem_cons, not_or] at hother
        obtain ⟨hne, hother⟩ := hother
        obtain ⟨hevents, hvms⟩ := hsame other hother
        refine ⟨by simp [hothers other hne, hevents], hvms.trans ?_⟩
        exact List.getElem?_set_ne (Ne.symm hne)
      · intro k other hother
        cases k with
        | zero =>
            cases hother
            -- No later VM touches what the first one left.
            obtain ⟨hevents, hvms⟩ := hsame index hnotin
            refine ⟨seen, rfl, _, stopped, vm', List.getElem?_eq_getElem hlt, hvms.trans ?_, ?_⟩
            · exact List.getElem?_set_self hlt
            · simpa [hevents] using hruns
        | succ k =>
            have hne : other ≠ index := by
              rintro rfl
              exact hnotin (List.mem_of_getElem? hother)
            obtain ⟨seen', hseen', vm, stopped', vm'', hvm, hvm'', hruns'⟩ :=
              hreports k other hother
            refine ⟨seen', hseen', vm, stopped', vm'', ?_, hvm'', ?_⟩
            · rwa [List.getElem?_set_ne (Ne.symm hne)] at hvm
            · simpa [hothers other hne] using hruns'

/-- What the second phase has done for a VM that was ready. -/
def ActedIn (s : HostRuntime) (events : List (Event RuntimeAns)) (index : Nat) (ready : Ready) :
    Prop :=
  ∃ vm ceiling committed outcome vm', s.vms[index]? = some vm ∧
    (VmController.acted ready ceiling committed vm).Runs (eventsOf index events)
      (some (.ok outcome, vm'))

/-- **The second phase acts on every VM that is ready.** -/
theorem actFrom_runs {observed : List Observed} {ceilings : Option (List PoolAllocation)}
    {answer : Option HostRuntimeError} {order : List Nat} :
    ∀ {committed : Nat} {lastStop : Option HostRuntimeError} {s : HostRuntime}
      {events : List (Event RuntimeAns)}, order.Nodup → (∀ index ∈ order, index < s.vms.length) →
      AllWorking events →
      (HostRuntime.actFrom observed ceilings order committed lastStop s).Runs events
        (some (.ok answer, s')) →
      (∀ index, index ∉ order → eventsOf index events = []) ∧
        ∀ index ∈ order, ∀ ready, observed[index]? = some (.ready ready) →
          ActedIn s events index ready := by
  -- By induction on the VMs that are left to act on.
  induction order with
  | nil =>
      intro committed lastStop s events _ _ _ h
      cases h
      exact ⟨fun _ _ => rfl, by simp⟩
  | cons index order ih =>
      intro committed lastStop s events hnodup hbound hworking h
      obtain ⟨hnotin, hnodup⟩ := List.nodup_cons.mp hnodup
      obtain ⟨rest, rfl, hworking, h⟩ := stop_runs hworking h
      have hlt : index < s.vms.length := hbound index List.mem_cons_self
      by_cases hready : ∃ ready, observed[index]? = some (.ready ready)
      · -- It is ready: its events come first, and those behind are the others'.
        obtain ⟨ready, hready⟩ := hready
        simp only [hready] at h
        rcases Action.runs_bind h with
          ⟨_, _, -, herror⟩ | ⟨⟨stopped, committed'⟩, s₁, first, second, rfl, hfirst, hsecond⟩
        · cases herror
        obtain ⟨vm', hruns, hs₁, hothers⟩ := onVm_runs (List.getElem?_eq_getElem hlt) hfirst
        dsimp only at hs₁ hruns
        subst hs₁
        obtain ⟨hsame, hacted⟩ := ih hnodup
          (by simpa using fun index hmem => hbound index (List.mem_cons_of_mem _ hmem))
          (allWorking_append.mp hworking).2 hsecond
        refine ⟨?_, ?_⟩
        · intro other hother
          rw [List.mem_cons, not_or] at hother
          simp [hothers other hother.1, hsame other hother.2]
        · intro other hother ready' hready'
          rcases List.mem_cons.mp hother with rfl | hlater
          · rw [hready] at hready'
            cases hready'
            have hevents : eventsOf other (⟨.stopRequested, false⟩ :: (first ++ second)) =
                eventsOf other first := by simp [hsame other hnotin]
            rw [← hevents] at hruns
            exact ⟨_, _, _, _, vm', List.getElem?_eq_getElem hlt, hruns⟩
          · have hne : other ≠ index := by
              rintro rfl
              exact hnotin hlater
            obtain ⟨vm, ceiling, committed, outcome, vm'', hvm, hruns'⟩ :=
              hacted other hlater _ hready'
            rw [List.getElem?_set_ne (Ne.symm hne)] at hvm
            refine ⟨vm, ceiling, committed, outcome, vm'', hvm, ?_⟩
            simpa [hothers other hne] using hruns'
      · -- It is not ready: the pass goes on as if it were not in the order.
        have hskip : (HostRuntime.actFrom observed ceilings order committed lastStop s).Runs rest
            (some (.ok answer, s')) := by
          cases hseen : observed[index]? with
          | none => simpa only [hseen] using h
          | some seen =>
              cases seen with
              | ready ready => exact absurd ⟨ready, hseen⟩ hready
              | held charge => simpa only [hseen] using h
              | stop error => simpa only [hseen] using h
        obtain ⟨hsame, hacted⟩ := ih hnodup
          (fun index hmem => hbound index (List.mem_cons_of_mem _ hmem)) hworking hskip
        refine ⟨?_, ?_⟩
        · intro other hother
          rw [List.mem_cons, not_or] at hother
          simp [hsame other hother.2]
        · intro other hother ready' hready'
          rcases List.mem_cons.mp hother with rfl | hlater
          · exact absurd ⟨ready', hready'⟩ hready
          · exact hacted other hlater ready' hready'

theorem observeAll_runs {answer : Option (List Observed × Option HostRuntimeError)}
    (hworking : AllWorking events)
    (h : (HostRuntime.observeAll s).Runs events (some (.ok answer, s'))) :
    ∃ reports lastStop, answer = some (reports, lastStop) ∧ s'.vms.length = s.vms.length ∧
      s'.poolBytes = s.poolBytes ∧ ∀ index < s.vms.length, ∃ seen,
        reports[index]? = some seen ∧ ObservedIn s s' events index seen := by
  unfold HostRuntime.observeAll at h
  rcases Action.runs_bind h with ⟨_, _, -, herror⟩ | ⟨self, s₁, first, second, rfl, hfirst, hsecond⟩
  · cases herror
  cases hfirst
  obtain ⟨reports, lastStop, rfl, hlength, hpool, -, hreports⟩ := observeFrom_runs List.nodup_range
    (fun _ hmem => List.mem_range.mp hmem) (allWorking_append.mp hworking).2 hsecond
  refine ⟨reports, lastStop, rfl, hlength, hpool, fun index hindex => ?_⟩
  exact hreports index index (List.getElem?_range hindex)

theorem mem_order : index ∈ s.order ↔ index < s.vms.length := by
  rw [HostRuntime.order, (servingOrder_perm _ _).mem_iff, List.mem_range]

theorem nodup_order : s.order.Nodup :=
  (servingOrder_perm _ _).nodup_iff.mpr List.nodup_range

theorem actAll_runs {observed : List Observed} {lastStop : Option HostRuntimeError} {step : Step}
    (hworking : AllWorking events)
    (h : (HostRuntime.actAll observed lastStop s).Runs events (some (.ok step, s'))) :
    (∀ error, step = .stop error → ∀ vm ∈ s'.vms, vm.stopped = true) ∧
      ∀ index < s.vms.length, ∀ ready, observed[index]? = some (.ready ready) →
        ActedIn s events index ready := by
  obtain ⟨rest, rfl, hworking, hgoing⟩ := stop_runs hworking h
  rcases Action.runs_bind hgoing with
    ⟨_, _, -, herror⟩ | ⟨self, _, _, _, rfl, hself, hallocating⟩
  · cases herror
  cases hself
  rcases Action.runs_bind hallocating with
    ⟨_, _, -, herror⟩ | ⟨ceilings, s₁, first, second, rfl, hallocated, hacting⟩
  · cases herror
  obtain ⟨-, rfl, rfl⟩ := ofExcept_runs hallocated
  rcases Action.runs_bind hacting with
    ⟨_, _, -, herror⟩ | ⟨lastStop', s₂, first, second, rfl, hacted, hending⟩
  · cases herror
  rcases Action.runs_bind hending with ⟨_, _, -, herror⟩ | ⟨self, _, _, _, rfl, hself, hstep⟩
  · cases herror
  cases hself
  cases hstep
  have hworking : AllWorking first :=
    (allWorking_append.mp (allWorking_append.mp (allWorking_append.mp hworking).2).2).1
  obtain ⟨-, hready⟩ := actFrom_runs nodup_order (fun _ hmem => mem_order.mp hmem) hworking hacted
  refine ⟨?_, fun index hindex ready hobserved => ?_⟩
  · intro error herror vm hvm
    split at herror
    · split at herror
      · next hall => exact List.all_eq_true.mp hall vm hvm
      · cases herror
    · cases herror
  · obtain ⟨vm, ceiling, committed, outcome, vm', hvm, hruns⟩ :=
      hready index (mem_order.mpr hindex) ready hobserved
    exact ⟨vm, ceiling, committed, outcome, vm', hvm, by simpa using hruns⟩

/-! ## One VM's turn -/

/-- **A VM has been served**: it was observed and, if that found it ready, its request was acted
on. -/
def Served (vm : VmController) (events : List (Event VmAns)) : Prop :=
  ∃ seen between first second, events = first ++ second ∧
    (VmController.observe vm).Runs first (some (.ok seen, between)) ∧
    ∀ ready, seen = .ready ready → ∃ ceiling committed answer after,
      (VmController.act ready ceiling committed between).Runs second (some (.ok answer, after))

/-- A VM that has not stopped is observed in full, and nothing follows where it is ready. -/
theorem observed_runs {seen : Observed} {stopped : Option HostRuntimeError}
    {events : List (Event VmAns)} (hrunning : vm.stopped = false)
    (h : (VmController.observed vm).Runs events (some (.ok (seen, stopped), vm'))) :
    ∃ found between first second, events = first ++ second ∧
      (VmController.observe vm).Runs first (some (.ok found, between)) ∧
      ∀ ready, found = .ready ready → seen = .ready ready ∧ between = vm' ∧ second = [] := by
  unfold VmController.observed at h
  rcases Action.runs_bind h with ⟨_, _, -, herror⟩ | ⟨self, _, _, _, rfl, hself, hobserving⟩
  · cases herror
  cases hself
  rw [hrunning] at hobserving
  rcases Action.runs_bind hobserving with
    ⟨_, _, -, herror⟩ | ⟨found, between, first, second, rfl, hobserve, hending⟩
  · cases herror
  refine ⟨found, between, first, second, rfl, hobserve, ?_⟩
  rintro ready rfl
  cases hending
  exact ⟨rfl, rfl, rfl⟩

theorem acted_runs {ready : Ready} {ceiling : Option Nat} {committed : Nat}
    {outcome : Option HostRuntimeError × Nat} {events : List (Event VmAns)}
    (h : (VmController.acted ready ceiling committed vm).Runs events (some (.ok outcome, vm'))) :
    ∃ answer after, (VmController.act ready ceiling committed vm).Runs events
      (some (.ok answer, after)) := by
  rcases Action.runs_bind h with
    ⟨_, _, -, herror⟩ | ⟨⟨step, committed'⟩, after, first, second, rfl, hact, hending⟩
  · cases herror
  have hsecond : second = [] := by
    cases step with
    | wait => cases hending; rfl
    | stop error => cases hending; rfl
  rw [hsecond, List.append_nil]
  exact ⟨_, after, hact⟩

/-- The two phases together. -/
theorem served {s₁ : HostRuntime} {reports : List Observed} {seen : Observed}
    (hvm : s.vms[index]? = some vm) (hrunning : vm.stopped = false)
    (hreport : reports[index]? = some seen) (hobserved : ObservedIn s s₁ first index seen)
    (hacted : ∀ ready, reports[index]? = some (.ready ready) → ActedIn s₁ second index ready) :
    Served vm (eventsOf index (first ++ second)) := by
  obtain ⟨_, stopped, vm₁, hvm', hvm₁, hruns⟩ := hobserved
  rw [hvm] at hvm'
  cases hvm'
  obtain ⟨found, between, observing, held, hevents, hobserve, hready⟩ :=
    observed_runs hrunning hruns
  refine ⟨found, between, observing, held ++ eventsOf index second, ?_, hobserve, ?_⟩
  · rw [eventsOf_append, hevents, List.append_assoc]
  · rintro ready rfl
    obtain ⟨rfl, rfl, rfl⟩ := hready ready rfl
    obtain ⟨_, ceiling, committed, outcome, vm', hvm', hacting⟩ := hacted ready hreport
    rw [hvm₁] at hvm'
    cases hvm'
    obtain ⟨answer, after, hact⟩ := acted_runs hacting
    exact ⟨ceiling, committed, answer, after, hact⟩

/-! ## A round -/

/-- What a round has to come to. -/
structure ServesAll (s : HostRuntime) (events : List (Event RuntimeAns))
    (outcome : Except HostRuntimeError Step × HostRuntime) : Prop where
  returns : ∃ step, outcome.1 = .ok step
  stops : ∀ error, outcome.1 = .ok (.stop error) → ∀ vm ∈ outcome.2.vms, vm.stopped = true
  served : ∀ index vm, s.vms[index]? = some vm → vm.stopped = false →
    Served vm (eventsOf index events)

/-- The host works, and the charges of the pool do not overflow where they are added up. -/
structure Dependable (s : HostRuntime) (events : List (Event RuntimeAns)) : Prop where
  working : AllWorking events
  charges : ∀ first second reports lastStop s' poolBytes, events = first ++ second →
    (HostRuntime.observeAll s).Runs first (some (.ok (some (reports, lastStop)), s')) →
    s'.poolBytes = some poolBytes → chargedTotal (s'.members reports poolBytes) ≠ none

/-- The polling interval, which is the tolerance, is at most ten seconds. -/
def Configured (configs : List HostConfig) : Prop :=
  ∀ config ∈ configs, config.rawTelemetryFutureTolerance ≤ 10 * 1000000000

/-- The VM for which the clock was read, and the reading. -/
def clockReading : (op : RuntimeOp) → RuntimeAns op → Option (Nat × Nat)
  | .vm index .nowUnixMillis, .ok now => some (index, now)
  | _, _ => none

/-- What is asked of a reading of the clock. -/
def ClockKeeps (W : HostWorld) (op : RuntimeOp) (answer : RuntimeAns op) : Prop :=
  ∀ reading ∈ clockReading op answer, 0 < reading.2 ∧ (W reading.1).Punctual reading.2

/-- **The clock does not contradict the journals**: no reading is at the epoch, and none that is
taken with a device converged to the recorded target is behind a result that the request already
has. -/
def ClockKept : HostWorld → List (Event RuntimeAns) → Prop
  | _, [] => True
  | W, event :: events => ClockKeeps W event.1 event.2 ∧ ClockKept (W.next event.1 event.2) events

instance (w : VmWorld) (now : Nat) : Decidable (w.Punctual now) :=
  decidable_of_iff (w.fresh = true → ∀ live ∈ w.live, ∀ intent ∈ w.control.intent,
      live.requestedBytes = intent.targetBytes → live.currentBytes = intent.targetBytes →
      ∀ result ∈ w.control.journal.result, result.observedUnixMillis ≤ now)
    ⟨fun h live intent result hfresh hlive hintent hrequested hcurrent hresult =>
      h hfresh live hlive intent hintent hrequested hcurrent result hresult,
    fun h hfresh live hlive intent hintent hrequested hcurrent result hresult =>
      h live intent result hfresh hlive hintent hrequested hcurrent hresult⟩

instance (W : HostWorld) (op : RuntimeOp) (answer : RuntimeAns op) :
    Decidable (ClockKeeps W op answer) :=
  inferInstanceAs (Decidable (∀ reading ∈ clockReading op answer, _))

instance decidableClockKept : (W : HostWorld) → (events : List (Event RuntimeAns)) →
    Decidable (ClockKept W events)
  | _, [] => .isTrue trivial
  | W, event :: events =>
    haveI := decidableClockKept (W.next event.1 event.2) events
    inferInstanceAs (Decidable (ClockKeeps W event.1 event.2 ∧ ClockKept _ events))

theorem ClockKept.expects (hclock : ClockKept W events) (hworking : AllWorking events)
    (hranged : Ranged (events.map .event)) :
    (recordLawAll configs).Expects (ExpectedAll True) W events := by
  induction events generalizing W with
  | nil => trivial
  | cons event events ih =>
      obtain ⟨op, answer⟩ := event
      have hanswer := hworking ⟨op, answer⟩ List.mem_cons_self
      refine ⟨?_, ih hclock.2 (fun event hmem => hworking event (List.mem_cons_of_mem _ hmem))
        fun index state hmem => hranged index state (List.mem_cons_of_mem _ hmem)⟩
      cases op with
      | stopRequested => trivial
      | vm index op =>
          cases op with
          | memoryState =>
              rintro state rfl
              exact hranged index state List.mem_cons_self
          | nowUnixMillis =>
              intro _
              obtain ⟨now, rfl⟩ := hanswer
              exact ⟨now, rfl, hclock.1 (index, now) rfl⟩
          | persist file => exact fun _ => hanswer
          | availableBytes => exact fun _ => hanswer
          | _ => trivial

/-- **Every VM is served.** In any run, a round that finishes in a dependable world with the clock
kept returns, stops the daemon only when every VM has stopped, and observes every VM that has not,
acting on it if it is ready. -/
theorem round_serves {outcome : Except HostRuntimeError Step × HostRuntime}
    (h : HostRun pool configs labels (some s)) (hconfigured : Configured configs)
    (hranged : Ranged (labels ++ .round :: events.map .event))
    (hruns : (HostRuntime.round s).Runs events (some outcome)) (hdependable : Dependable s events)
    (hclock : ClockKept (HostWorld.after .initial (labels ++ [.round])) events) :
    ServesAll s events outcome := by
  have hbefore : Ranged labels := fun index state hmem =>
    hranged index state (List.mem_append_left _ hmem)
  have hsizes : Ranged (events.map .event) := fun index state hmem =>
    hranged index state (List.mem_append_right _ (List.mem_cons_of_mem _ hmem))
  rw [HostWorld.after_append] at hclock
  have hsound : SoundAll configs True s
      (HostWorld.after (HostWorld.after .initial labels) [.round]) :=
    ((hostRun_recorded h hbefore).2 s rfl).stale.rely fun config hmem =>
      (Nat.div_le_div_right (hconfigured config hmem)).trans (by decide)
  generalize HostWorld.after (HostWorld.after .initial labels) [.round] = W at hclock hsound
  have hexpects := @ClockKept.expects configs W events hclock hdependable.working hsizes
  -- In such a world neither phase can fail: both are steady.
  have hobserves : SteadyAll configs True HostRuntime.observeAll
      (fun answer s W => ∀ reports lastStop, answer = some (reports, lastStop) →
        ReportedAll configs True reports s W) s W :=
    steadyAll_observeAll hsound nofun fun reports lastStop s W hreported => by
      rintro _ _ ⟨⟩
      exact hreported
  unfold HostRuntime.round at hruns
  rcases Action.runs_bind hruns with
    ⟨error, s₁, hobserving, -⟩ | ⟨answer, s₁, first, second, rfl, hobserving, hacting⟩
  · have hpost := (Prog.SafeIf.accepts hobserves hobserving hexpects).2 _ rfl
    exact absurd trivial hpost
  -- So the round came to the second phase, with a report of every VM.
  obtain ⟨hfirst, hsecond⟩ := (Monitor.expects_append W first second).mp hexpects
  have hworking := allWorking_append.mp hdependable.working
  obtain ⟨reports, lastStop, rfl, hlength, -, hreports⟩ := observeAll_runs hworking.1 hobserving
  have hreported : ReportedAll configs True reports s₁ _ :=
    (Prog.SafeIf.accepts hobserves hobserving hfirst).2 _ rfl reports lastStop rfl
  have hacts : SteadyAll configs True (HostRuntime.actAll reports lastStop)
      (fun _ _ _ => True) s₁ _ :=
    steadyAll_actAll hreported (fun _ => hreported.allocates fun poolBytes hpool =>
      hdependable.charges first second reports lastStop s₁ poolBytes rfl hobserving hpool)
      fun _ _ _ _ => trivial
  have hpost := (Prog.SafeIf.accepts hacts hacting hsecond).2 _ rfl
  obtain ⟨answer, s'⟩ := outcome
  cases answer with
  | error error => exact absurd trivial hpost
  | ok step =>
      obtain ⟨hstops, hacted⟩ := actAll_runs hworking.2 hacting
      refine ⟨⟨step, rfl⟩, ?_, ?_⟩
      · rintro error ⟨⟩
        exact hstops error rfl
      · intro index vm hvm hrunning
        have hindex : index < s.vms.length := (List.getElem?_eq_some_iff.mp hvm).1
        obtain ⟨seen, hseen, hobserved⟩ := hreports index hindex
        exact served hvm hrunning hseen hobserved fun ready hready =>
          hacted index (hlength ▸ hindex) ready hready

/-! ## Two VMs -/

/-- Another VM, whose guest never answers for it. -/
def neighbourConfig : HostConfig := { exampleConfig with vmName := "neighbour" }

def pairConfigs : List HostConfig := [exampleConfig, neighbourConfig]

def pairRuntime : HostRuntime where
  vms := [.new exampleConfig 1 (⟨"guest", "memory0", "", none⟩, .fresh),
    .new neighbourConfig 1 (⟨"neighbour", "memory0", "", none⟩, .fresh)]
  poolBytes := none

theorem pairRuntime_run : HostRun none pairConfigs [.started] (some pairRuntime) :=
  .start (fun _ => "") 1 (by decide) .fresh rfl

/-- An addition is granted, and two hundred seconds in no device can be read. -/
def pairRounds : List Label × HostRuntime × Devices :=
  Script.rounds [grantedScript, lostScript] pairRuntime grantedDevices

def pairLabels : List Label := .started :: pairRounds.1

/-- The device of the first VM has converged to the addition. -/
def convergedScript (unixMillis : Nat) : Script :=
  { grantedScript with unixMillis := unixMillis, plugged := [3 * 2 ^ 30] }

def convergedRound (unixMillis : Nat) :
    List (Event RuntimeAns) × (Except HostRuntimeError Step × HostRuntime) × Devices :=
  (HostRuntime.round pairRounds.2.1).simulate (convergedScript unixMillis).env
    ((convergedScript unixMillis).moved pairRounds.2.2)

/-- A script lets the host work. -/
theorem Script.working (script : Script) (p : Prog RuntimeOp RuntimeAns α) (D : Devices) :
    AllWorking (p.simulate script.env D).1 := by
  refine Prog.simulate_answers (fun D op => ?_) p D
  cases op with
  | stopRequested => rfl
  | vm index op =>
      cases op with
      | stopRequested => rfl
      | nowUnixMillis => exact ⟨_, rfl⟩
      | availableBytes => exact ⟨_, rfl⟩
      | persist file => rfl
      | _ => trivial

theorem pair_run : HostRun none pairConfigs pairLabels (some pairRounds.2.1) :=
  (Script.playable_run pairRuntime_run (by decide +kernel :
    Script.playable [grantedScript, lostScript] pairRuntime grantedDevices = true)).1

theorem pair_configured : Configured pairConfigs := by
  unfold Configured
  decide

theorem converged_runs (unixMillis : Nat) : (HostRuntime.round pairRounds.2.1).Runs
    (convergedRound unixMillis).1 (some (convergedRound unixMillis).2.1) :=
  Prog.simulate_runs _ _ _

/-- Without a pool nothing is added up. -/
theorem converged_dependable (unixMillis : Nat) :
    Dependable pairRounds.2.1 (convergedRound unixMillis).1 := by
  refine ⟨Script.working _ _ _, ?_⟩
  intro first second reports lastStop s' poolBytes hevents hobserving hpool
  have hworking : AllWorking (first ++ second) := hevents ▸ Script.working _ _ _
  obtain ⟨_, _, -, -, hnone, -⟩ := observeAll_runs (allWorking_append.mp hworking).1 hobserving
  have hbefore : pairRounds.2.1.poolBytes = none := by decide +kernel
  rw [hpool, hbefore] at hnone
  cases hnone

/-- At 300 s both VMs are served. -/
theorem pair_served :
    ServesAll pairRounds.2.1 (convergedRound 300000).1 (convergedRound 300000).2.1 :=
  round_serves pair_run pair_configured (ranged_of_all (by decide +kernel)) (converged_runs 300000)
    (converged_dependable 300000) (by decide +kernel)

/-- At 150 s, on a clock that was set back, the round ends before the second VM. -/
theorem setBack_round : HostRun none pairConfigs pairLabels (some pairRounds.2.1) ∧
    Configured pairConfigs ∧
    Ranged (pairLabels ++ .round :: (convergedRound 150000).1.map .event) ∧
    (HostRuntime.round pairRounds.2.1).Runs (convergedRound 150000).1
      (some (convergedRound 150000).2.1) ∧
    Dependable pairRounds.2.1 (convergedRound 150000).1 ∧
    (convergedRound 150000).2.1.1 =
      .error (.controller "memory result observation moved backwards") ∧
    eventsOf 1 (convergedRound 150000).1 = [] ∧
    ¬ServesAll pairRounds.2.1 (convergedRound 150000).1 (convergedRound 150000).2.1 := by
  have herror : (convergedRound 150000).2.1.1 =
      .error (.controller "memory result observation moved backwards") := by decide +kernel
  have hevents : eventsOf 1 (convergedRound 150000).1 = [] :=
    List.length_eq_zero_iff.mp (by decide +kernel)
  refine ⟨pair_run, pair_configured, ranged_of_all (by decide +kernel), converged_runs 150000,
    converged_dependable 150000, herror, hevents, fun h => ?_⟩
  obtain ⟨step, hstep⟩ := h.returns
  rw [herror] at hstep
  cases hstep

end VirtioMem.Host
