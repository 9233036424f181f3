import VirtioOsx.SCSIController

/-! The targets that the SCSI controller has created, over the events and the completions that
create and destroy them, and the buffers in which the events come. -/
namespace VirtioOsx

open Runs

def SCSIEvent.change (event : SCSIEvent) (target : Nat) : Option Bool :=
  if event.event = SCSIEvent.transportReset ∧ event.target = target then
    if event.reason = SCSIEvent.resetRescan then some true
    else if event.reason = SCSIEvent.resetRemoved then some false
    else none
  else none

/-- A target is created by a rescan, and destroyed by its removal or by a task that was sent to
a target the device does not have. -/
def targetChange (target : Nat) : SCSIAction → Option Bool
  | .eventCompleted _ false event _ => event.change target
  | .parallelTaskCompleted t false fromDevice =>
    if fromDevice.response = VirtioSCSIController.responseBadTarget ∧ t.target = target then some false
    else none
  | _ => none

def targetChanges (target : Nat) (actions : List SCSIAction) : List Bool :=
  actions.filterMap (targetChange target)

namespace VirtioSCSIController

variable {c c' : VirtioSCSIController}

theorem mem_createTargetForID : target ∈ (c.createTargetForID created).present ↔
    target = created ∨ target ∈ c.present :=
  List.mem_insert_iff

theorem mem_destroyTargetForID : target ∈ (c.destroyTargetForID destroyed).present ↔
    target ∈ c.present ∧ target ≠ destroyed := by
  simp [destroyTargetForID]

/-- The loop stops short of the highest target. -/
theorem mem_startController (fresh : c.present = []) :
    target ∈ c.startController.present ↔ c.hotplug = true ∧ target < c.maxTarget := by
  have created (targets : List Nat) (d : VirtioSCSIController) :
      target ∈ (targets.foldl createTargetForID d).present ↔
        target ∈ targets ∨ target ∈ d.present := by
    induction targets generalizing d with
    | nil => simp
    | cons first rest ih =>
      rw [List.foldl_cons,ih,mem_createTargetForID,List.mem_cons]
      tauto
  unfold startController
  by_cases hotplug : c.hotplug
  · rw [if_pos hotplug,created,fresh]
    simp [hotplug]
  · rw [if_neg hotplug,fresh]
    simp [hotplug]

theorem mem_handleEvent (event : SCSIEvent) : target ∈ (c.handleEvent event).present ↔
    (event.change target).getD (decide (target ∈ c.present)) = true := by
  unfold handleEvent SCSIEvent.change
  by_cases reset : event.event = SCSIEvent.transportReset
  · by_cases rescan : event.reason = SCSIEvent.resetRescan
    · rw [if_pos reset,if_pos rescan,mem_createTargetForID]
      by_cases named : event.target = target
      · simp [reset,rescan,named]
      · simp [named,Ne.symm named]
    by_cases removed : event.reason = SCSIEvent.resetRemoved
    · rw [if_pos reset,if_neg rescan,if_pos removed,mem_destroyTargetForID]
      by_cases named : event.target = target
      · rw [if_pos ⟨reset,named⟩,if_neg rescan,if_pos removed]
        simp [named]
      · simp [named,Ne.symm named]
    · simp [reset,rescan,removed]
  · simp [reset]

theorem present_eventCompleted (eventBuffer : Nat) (event : SCSIEvent) (resubmission : IOReturn) :
    (c.eventCompleted eventBuffer false event resubmission).present =
      (c.handleEvent event).present := by
  have same : (handleEvent { c with queuedEvents := c.queuedEvents.erase eventBuffer } event).present =
      (c.handleEvent event).present := by
    unfold handleEvent
    split
    · split
      · rfl
      split
      · rfl
      · rfl
    · rfl
  unfold eventCompleted
  simp only [Bool.false_eq_true,if_false]
  split
  · exact same
  · exact same

theorem mem_parallelTaskCompleted (t : ParallelTask) (deviceReset : Bool)
    (fromDevice : ReqCmdFromDevice) :
    target ∈ (c.parallelTaskCompleted t deviceReset fromDevice).present ↔
      (targetChange target (.parallelTaskCompleted t deviceReset fromDevice)).getD
        (decide (target ∈ c.present)) = true := by
  unfold parallelTaskCompleted
  cases deviceReset with
  | true => simp [targetChange,returnDescriptors]
  | false =>
    simp only [Bool.false_eq_true,if_false,targetChange]
    by_cases ok : fromDevice.response = responseOk
    · have other : fromDevice.response ≠ responseBadTarget := by rw [ok]; decide
      have silent : ¬(fromDevice.response = responseBadTarget ∧ t.target = target) :=
        fun both => other both.1
      rw [if_pos ok,if_neg silent]
      simp [returnDescriptors]
    by_cases bad : fromDevice.response = responseBadTarget
    · rw [if_neg ok,if_pos bad]
      refine mem_destroyTargetForID.trans ?_
      by_cases named : t.target = target
      · simp [bad,named]
      · simp [named,Ne.symm named,returnDescriptors]
    · simp [ok,bad,returnDescriptors]

/-- What a step does to a target. -/
theorem mem_present_step (taken : scsiStep a c = some c') :
    target ∈ c'.present ↔ (targetChange target a).getD (decide (target ∈ c.present)) = true := by
  cases a with
  | processParallelTask t calls =>
    obtain ⟨⟨response,_⟩,processed,rfl⟩ := Option.map_eq_some_iff.mp taken
    rw [(processParallelTaskInGate_frame processed).1]
    simp [targetChange]
  | parallelTaskCompleted t deviceReset fromDevice =>
    simp only [scsiStep] at taken
    split at taken
    · obtain rfl := Option.some.inj taken
      exact mem_parallelTaskCompleted t deviceReset fromDevice
    · cases taken
  | eventCompleted eventBuffer deviceReset event resubmission =>
    simp only [scsiStep] at taken
    split at taken
    · obtain rfl := Option.some.inj taken
      cases deviceReset with
      | true => simp [eventCompleted,targetChange]
      | false =>
        rw [present_eventCompleted]
        exact mem_handleEvent event
    · cases taken

/-- The last that was said about a target counts. -/
theorem mem_present_run (run : Run scsiStep allowed c actions c') :
    target ∈ c'.present ↔
      (targetChanges target actions).getLast?.getD (decide (target ∈ c.present)) = true := by
  induction run with
  | nil => simp [targetChanges]
  | @cons c a next rest final _ taken _ ih =>
    have first : decide (target ∈ next.present) =
        (targetChange target a).getD (decide (target ∈ c.present)) := by
      rw [Bool.eq_iff_iff,decide_eq_true_eq]
      exact mem_present_step taken
    rw [ih,first,targetChanges,targetChanges,List.filterMap_cons]
    cases targetChange target a with
    | none => rfl
    | some created =>
      rw [List.getLast?_cons]
      rfl

def EventsApart (c : VirtioSCSIController) : Prop := (c.queuedEvents ++ c.releasedEvents).Nodup

theorem submitEvents_apart (submission : Nat → IOReturn) (rest i : Nat) :
    ((submitEvents submission rest i).1 ++ (submitEvents submission rest i).2).Nodup ∧
    ∀ buffer ∈ (submitEvents submission rest i).1 ++ (submitEvents submission rest i).2,
      i ≤ buffer := by
  induction rest generalizing i with
  | zero => simp [submitEvents]
  | succ rest ih =>
    obtain ⟨distinct,later⟩ := ih (i + 1)
    unfold submitEvents
    split
    · refine ⟨List.nodup_cons.mpr ⟨fun member => ?_,distinct⟩,fun buffer member => ?_⟩
      · have := later i member
        omega
      · rcases List.mem_cons.mp member with rfl | member
        · exact Nat.le_refl _
        · have := later buffer member
          omega
    · simp

theorem initializeController_targets (initialized : initializeController setup = some c) :
    c.present = [] ∧ EventsApart c := by
  have fresh := initializeController_spec initialized
  obtain ⟨queued,released⟩ := Prod.mk.inj fresh.events
  refine ⟨fresh.present,?_⟩
  rw [EventsApart,queued,released]
  exact (submitEvents_apart _ _ _).1

theorem handleEvent_events (c : VirtioSCSIController) (event : SCSIEvent) :
    (c.handleEvent event).queuedEvents = c.queuedEvents ∧
      (c.handleEvent event).releasedEvents = c.releasedEvents := by
  unfold handleEvent
  split
  · split
    · exact ⟨rfl,rfl⟩
    split
    · exact ⟨rfl,rfl⟩
    · exact ⟨rfl,rfl⟩
  · exact ⟨rfl,rfl⟩

theorem eventCompleted_events (c : VirtioSCSIController) (eventBuffer : Nat) (deviceReset : Bool)
    (event : SCSIEvent) (resubmission : IOReturn) :
    let c' := c.eventCompleted eventBuffer deviceReset event resubmission
    if deviceReset = false ∧ resubmission = .success then
      c'.queuedEvents = eventBuffer :: c.queuedEvents.erase eventBuffer ∧
        c'.releasedEvents = c.releasedEvents
    else c'.queuedEvents = c.queuedEvents.erase eventBuffer ∧
      c'.releasedEvents = eventBuffer :: c.releasedEvents := by
  obtain ⟨queued,released⟩ :=
    handleEvent_events { c with queuedEvents := c.queuedEvents.erase eventBuffer } event
  unfold eventCompleted
  cases deviceReset with
  | true => simp
  | false =>
    by_cases accepted : resubmission = .success
    · simp [accepted,queued,released]
    · simp [accepted,queued,released]

theorem EventsApart.completed (apart : EventsApart c) (member : eventBuffer ∈ c.queuedEvents)
    (deviceReset : Bool) (event : SCSIEvent) (resubmission : IOReturn) :
    EventsApart (c.eventCompleted eventBuffer deviceReset event resubmission) := by
  have events := eventCompleted_events c eventBuffer deviceReset event resubmission
  have split : (eventBuffer :: c.queuedEvents.erase eventBuffer).Perm c.queuedEvents :=
    (List.perm_cons_erase member).symm
  unfold EventsApart
  dsimp only at events
  split at events
  · rw [events.1,events.2,(split.append_right _).nodup_iff]
    exact apart
  · rw [events.1,events.2,List.perm_middle.nodup_iff]
    exact (split.append_right _).nodup_iff.mpr apart

theorem EventsApart.keeps (taken : scsiStep a c = some c') (apart : EventsApart c) :
    EventsApart c' := by
  cases a with
  | processParallelTask t calls =>
    obtain ⟨⟨response,_⟩,processed,rfl⟩ := Option.map_eq_some_iff.mp taken
    obtain ⟨_,queued,released⟩ := processParallelTaskInGate_frame processed
    unfold EventsApart
    rw [queued,released]
    exact apart
  | parallelTaskCompleted t deviceReset fromDevice =>
    simp only [scsiStep] at taken
    split at taken
    · obtain rfl := Option.some.inj taken
      obtain ⟨_,_,same⟩ := parallelTaskCompleted_frame c t deviceReset fromDevice
      rw [same]
      exact apart
    · cases taken
  | eventCompleted eventBuffer deviceReset event resubmission =>
    simp only [scsiStep] at taken
    split at taken
    · rename_i member
      obtain rfl := Option.some.inj taken
      exact apart.completed member deviceReset event resubmission
    · cases taken

/-- A buffer in which an event came has been submitted again or released, and not both. -/
def EventHandled (c : VirtioSCSIController) (a : SCSIAction) (c' : VirtioSCSIController) : Prop :=
  ∀ eventBuffer event resubmission, a = .eventCompleted eventBuffer false event resubmission →
    c.queuedEvents.Nodup ∧ eventBuffer ∈ c.queuedEvents ∧
    ((eventBuffer ∈ c'.queuedEvents ∧ eventBuffer ∉ c'.releasedEvents) ∨
      (eventBuffer ∉ c'.queuedEvents ∧ eventBuffer ∈ c'.releasedEvents))

theorem EventsApart.handled (apart : EventsApart c) (taken : scsiStep a c = some c') :
    EventHandled c a c' := by
  rintro eventBuffer event resubmission rfl
  have apart' := apart.keeps taken
  simp only [scsiStep] at taken
  split at taken
  · rename_i member
    obtain rfl := Option.some.inj taken
    have events := eventCompleted_events c eventBuffer false event resubmission
    obtain ⟨_,_,never⟩ := List.nodup_append.mp apart'
    refine ⟨(List.nodup_append.mp apart).1,member,?_⟩
    dsimp only at events
    split at events
    · have queued : eventBuffer ∈
          (c.eventCompleted eventBuffer false event resubmission).queuedEvents := by
        rw [events.1]
        exact List.mem_cons_self
      exact .inl ⟨queued,fun released => never _ queued _ released rfl⟩
    · have released : eventBuffer ∈
          (c.eventCompleted eventBuffer false event resubmission).releasedEvents := by
        rw [events.2]
        exact List.mem_cons_self
      exact .inr ⟨fun queued => never _ queued _ released rfl,released⟩
  · cases taken

end VirtioSCSIController

open VirtioSCSIController

def lastCreates (target : Nat) (actions : List SCSIAction) : Bool :=
  (targetChanges target actions).getLast?.getD true

/-- `StartController` never creates all targets up to the highest one that is reported; the
highest is missing. From then on, a target in that range is present as the last that was said
of it requires, exactly if it was created at the start or something was said of it. Event
buffers are handled once. -/
theorem targets_present (initialized : initializeController setup = some started)
    (run : Run scsiStep (fun _ _ => True) started.startController actions c) :
    ¬(∀ target, target ∈ started.startController.present ↔
      target ≤ started.reportHighestSupportedDeviceID) ∧
    (∀ target, target ∈ started.startController.present ↔
      started.hotplug = true ∧ target < started.reportHighestSupportedDeviceID) ∧
    (∀ target ≤ started.reportHighestSupportedDeviceID,
      ((target ∈ c.present ↔ lastCreates target actions = true) ↔
        target ∈ started.startController.present ∨ targetChanges target actions ≠ [])) ∧
    ∀ a c', scsiStep a c = some c' → EventHandled c a c' := by
  obtain ⟨fresh,apart⟩ := initializeController_targets initialized
  have created (target : Nat) : target ∈ started.startController.present ↔
      started.hotplug = true ∧ target < started.maxTarget := mem_startController fresh
  refine ⟨fun all => ?_,created,fun target _ => ?_,?_⟩
  · have highest := (created started.maxTarget).mp ((all started.maxTarget).mpr (Nat.le_refl _))
    omega
  · rw [mem_present_run run,lastCreates]
    cases changes : (targetChanges target actions).getLast? with
    | none =>
      simp [List.getLast?_eq_none_iff.mp changes]
    | some change =>
      have said : targetChanges target actions ≠ [] := by
        intro none
        simp [none] at changes
      simp [said]
  · have start : EventsApart started.startController := by
      obtain ⟨present,same⟩ := startController_frame started
      rw [same]
      exact apart
    have apart : EventsApart c := Run.keeps EventsApart
      (fun _ taken apart => apart.keeps taken) run start
    exact fun a c' taken => apart.handled taken

def threeTargets : ControllerSetup :=
  ⟨true, BitVec.ofNat 32 2, true, 4, 2, .success, (2, 2, 4), fun _ => .success⟩

def transportEvent (reason target : Nat) : SCSIEvent := ⟨1, [1, target, 0, 0, 0, 0, 0, 0], reason⟩

def targetRun : List SCSIAction :=
  [.eventCompleted 0 false (transportEvent 1 2) .success,
    .processParallelTask ⟨7, 70, 1, 0, 7, 0, [], none, 0, 0, .noDataTransfer⟩ ⟨0, 0, .success⟩,
    .eventCompleted 1 false (transportEvent 2 0) .busy,
    .parallelTaskCompleted ⟨7, 70, 1, 0, 7, 0, [], none, 0, 0, .noDataTransfer⟩ false ⟨0, 0, 3⟩,
    .eventCompleted 0 false (transportEvent 0 2) .success]

theorem targets_present_targetRun :
    ∃ started c, initializeController threeTargets = some started ∧
      Run scsiStep (fun _ _ => True) started.startController targetRun c ∧
      c.present = [2] ∧ c.queuedEvents = [0] ∧ c.releasedEvents = [1] ∧
      ∀ target ≤ 2, (target ∈ c.present ↔ lastCreates target targetRun = true) := by
  have played : ((initializeController threeTargets).bind fun started =>
      (play scsiStep (fun _ _ => true) targetRun started.startController).map fun c =>
        (started.maxTarget,started.startController.present,c.present,c.queuedEvents,
          c.releasedEvents)) = some (2,[1,0],[2],[0],[1]) := by decide +kernel
  obtain ⟨started,initialized,played⟩ := Option.bind_eq_some_iff.mp played
  obtain ⟨c,played,seen⟩ := Option.map_eq_some_iff.mp played
  simp only [Prod.mk.injEq] at seen
  obtain ⟨highest,initial,present,queued,released⟩ := seen
  have run : Run scsiStep (fun _ _ => True) started.startController targetRun c :=
    run_of_play (fun _ _ _ => trivial) played
  obtain ⟨_,_,last,_⟩ := targets_present initialized run
  refine ⟨started,c,initialized,run,present,queued,released,fun target within => ?_⟩
  apply (last target (within.trans_eq highest.symm)).mpr
  rw [initial]
  obtain rfl | rfl | rfl : target = 0 ∨ target = 1 ∨ target = 2 := by omega
  · exact .inl (by simp)
  · exact .inl (by simp)
  · exact .inr (by decide)

theorem targets_highest_missing :
    ∃ started, initializeController threeTargets = some started ∧
      started.hotplug = true ∧ started.reportHighestSupportedDeviceID = 2 ∧
      started.startController.present = [1, 0] ∧
      ¬(∀ target, target ∈ started.startController.present ↔
        target ≤ started.reportHighestSupportedDeviceID) := by
  have shown : (initializeController threeTargets).map (fun started =>
      (started.hotplug,started.maxTarget,started.startController.present)) =
        some (true,2,[1,0]) := by decide +kernel
  obtain ⟨started,initialized,seen⟩ := Option.map_eq_some_iff.mp shown
  simp only [Prod.mk.injEq] at seen
  obtain ⟨hotplug,highest,present⟩ := seen
  refine ⟨started,initialized,hotplug,highest,present,fun all => ?_⟩
  have missing := (all 2).mpr (Nat.le_of_eq highest.symm)
  rw [present] at missing
  simp at missing

end VirtioOsx
