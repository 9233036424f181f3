import VirtioOsx.SCSIController

/-! The descriptors of the SCSI tasks: a task takes one from each pool and gives both back,
emptied, when it could not be submitted or when it is completed. -/
namespace VirtioOsx

open Runs
open Pool

namespace VirtioSCSIController

variable {c c' : VirtioSCSIController} {t : ParallelTask} {calls : TaskCalls}
  {response : SCSIServiceResponse}

def taskMultiMDs (c : VirtioSCSIController) : List Nat :=
  c.outstanding.map fun t => (c.task t.identifier).multiMD

def taskSubMDs (c : VirtioSCSIController) : List Nat :=
  c.outstanding.map fun t => (c.task t.identifier).subMD

def createdMultiMDs (c : VirtioSCSIController) : List Nat := (List.range c.maxTaskCount).map (2 * ·)

def createdSubMDs (c : VirtioSCSIController) : List Nat :=
  (List.range c.maxTaskCount).map (2 * · + 1)

/-- Each descriptor is in its pool and empty, or with exactly one of the tasks. -/
structure PoolInv (c : VirtioSCSIController) : Prop where
  identifiers : (c.outstanding.map ParallelTask.identifier).Nodup
  multi : Reusable c.createdMultiMDs c.multiSubrangeMDPool c.taskMultiMDs c.multiMD .empty
  single : Reusable c.createdSubMDs c.singleSubrangeMDPool c.taskSubMDs c.subMD .empty

structure TasksPooled (c : VirtioSCSIController) : Prop where
  multiCount : c.multiSubrangeMDPool.length + c.outstanding.length = c.maxTaskCount
  singleCount : c.singleSubrangeMDPool.length + c.outstanding.length = c.maxTaskCount
  distinct : (c.taskMultiMDs ++ c.taskSubMDs).Nodup
  outside : ∀ md ∈ c.taskMultiMDs ++ c.taskSubMDs,
    md ∉ c.multiSubrangeMDPool ∧ md ∉ c.singleSubrangeMDPool
  multiSet : c.multiSubrangeMDPool.Nodup
  singleSet : c.singleSubrangeMDPool.Nodup
  multiEmpty : ∀ md ∈ c.multiSubrangeMDPool, c.multiMD md = .empty
  singleEmpty : ∀ md ∈ c.singleSubrangeMDPool, c.subMD md = .empty

/-- What the family keeps to: it hands over a task only while it has fewer than it was told,
and not a second time while the device has it. -/
def Promised (c : VirtioSCSIController) : SCSIAction → Prop
  | .processParallelTask t _ =>
    c.outstanding.length < c.reportMaximumTaskCount ∧
      t.identifier ∉ c.outstanding.map ParallelTask.identifier
  | _ => True

theorem PoolInv.multi_length (inv : PoolInv c) :
    c.multiSubrangeMDPool.length + c.outstanding.length = c.maxTaskCount := by
  simpa [createdMultiMDs,taskMultiMDs] using inv.multi.pooled.length

theorem PoolInv.single_length (inv : PoolInv c) :
    c.singleSubrangeMDPool.length + c.outstanding.length = c.maxTaskCount := by
  simpa [createdSubMDs,taskSubMDs] using inv.single.pooled.length

theorem PoolInv.multi_even (inv : PoolInv c)
    (member : md ∈ c.multiSubrangeMDPool ∨ md ∈ c.taskMultiMDs) : md % 2 = 0 := by
  obtain ⟨i,_,rfl⟩ := List.mem_map.mp (inv.multi.pooled.known member)
  omega

theorem PoolInv.single_odd (inv : PoolInv c)
    (member : md ∈ c.singleSubrangeMDPool ∨ md ∈ c.taskSubMDs) : md % 2 = 1 := by
  obtain ⟨i,_,rfl⟩ := List.mem_map.mp (inv.single.pooled.known member)
  omega

theorem PoolInv.tasksPooled (inv : PoolInv c) : TasksPooled c where
  multiCount := inv.multi_length
  singleCount := inv.single_length
  distinct := by
    refine List.nodup_append.mpr ⟨inv.multi.pooled.held_nodup,inv.single.pooled.held_nodup,?_⟩
    rintro md multi _ single rfl
    have even := inv.multi_even (.inr multi)
    have odd := inv.single_odd (.inr single)
    omega
  outside md member := by
    rcases List.mem_append.mp member with multi | single
    · have even := inv.multi_even (.inr multi)
      refine ⟨fun pooled => inv.multi.pooled.not_held pooled multi,fun pooled => ?_⟩
      have odd := inv.single_odd (.inl pooled)
      omega
    · have odd := inv.single_odd (.inr single)
      refine ⟨fun pooled => ?_,fun pooled => inv.single.pooled.not_held pooled single⟩
      have even := inv.multi_even (.inl pooled)
      omega
  multiSet := (List.nodup_append.mp inv.multi.pooled.nodup).1
  singleSet := (List.nodup_append.mp inv.single.pooled.nodup).1
  multiEmpty := inv.multi.unused
  singleEmpty := inv.single.unused

theorem initializeController_pools (initialized : initializeController setup = some c) :
    PoolInv c := by
  have fresh := initializeController_spec initialized
  have multiDistinct : c.createdMultiMDs.Nodup := List.nodup_range.map fun i j same => by omega
  have singleDistinct : c.createdSubMDs.Nodup := List.nodup_range.map fun i j same => by omega
  refine ⟨?_,⟨?_,fun _ _ => ?_⟩,⟨?_,fun _ _ => ?_⟩⟩
  · rw [fresh.outstanding]
    exact List.nodup_nil
  · rw [fresh.multiPool,taskMultiMDs,fresh.outstanding]
    exact .full multiDistinct
  · rw [fresh.multiMD]
  · rw [fresh.singlePool,taskSubMDs,fresh.outstanding]
    exact .full singleDistinct
  · rw [fresh.subMD]

theorem map_task_update (task : Nat → SCSITask) (tasks : List ParallelTask) (field : SCSITask → Nat)
    (fresh : identifier ∉ tasks.map ParallelTask.identifier) (new : SCSITask) :
    (tasks.map fun t => field (Function.update task identifier new t.identifier)) =
      tasks.map fun t => field (task t.identifier) := by
  apply List.map_congr_left
  intro t member
  have different : t.identifier ≠ identifier := by
    rintro rfl
    exact fresh (List.mem_map_of_mem member)
  rw [Function.update_of_ne different]

theorem PoolInv.process (inv : PoolInv c)
    (fresh : t.identifier ∉ c.outstanding.map ParallelTask.identifier)
    (processed : c.processParallelTaskInGate t calls = some (response, c')) : PoolInv c' := by
  obtain ⟨multi,sub,multiMD,multiMember,subMember,submitted⟩ :=
    processParallelTaskInGate_cases processed
  have multiHeld := map_task_update c.task c.outstanding SCSITask.multiMD fresh
    ⟨sub,multi,t.ranges.1,t.toDevice⟩
  have subHeld := map_task_update c.task c.outstanding SCSITask.subMD fresh
    ⟨sub,multi,t.ranges.1,t.toDevice⟩
  have multiDrawn := inv.multi.drawn multiMember multiMD
  have subDrawn := inv.single.drawn subMember t.ranges.2.2
  unfold submitTask at submitted
  split at submitted
  · obtain ⟨_,rfl⟩ := Prod.mk.inj submitted
    refine ⟨List.nodup_cons.mpr ⟨fresh,inv.identifiers⟩,?_,?_⟩
    · simpa [taskMultiMDs,createdMultiMDs,multiHeld] using multiDrawn
    · simpa [taskSubMDs,createdSubMDs,subHeld] using subDrawn
  · obtain ⟨_,rfl⟩ := Prod.mk.inj submitted
    refine ⟨inv.identifiers,?_,?_⟩
    · simpa [taskMultiMDs,createdMultiMDs,returnDescriptors,returnItemToPool,multiHeld] using
        multiDrawn.returned
    · simpa [taskSubMDs,createdSubMDs,returnDescriptors,returnItemToPool,subHeld] using
        subDrawn.returned

theorem PoolInv.completed (inv : PoolInv c) (member : t ∈ c.outstanding) (deviceReset : Bool)
    (fromDevice : ReqCmdFromDevice) : PoolInv (c.parallelTaskCompleted t deviceReset fromDevice) := by
  obtain ⟨present,completions,same⟩ := parallelTaskCompleted_frame c t deviceReset fromDevice
  have split := List.perm_cons_erase member
  have multi := inv.multi.congr (split.map fun t => (c.task t.identifier).multiMD).symm
  have single := inv.single.congr (split.map fun t => (c.task t.identifier).subMD).symm
  rw [same]
  refine ⟨?_,?_,?_⟩
  · exact inv.identifiers.sublist (List.erase_sublist.map _)
  · exact multi.returned
  · exact single.returned

theorem handleEvent_frame (c : VirtioSCSIController) (event : SCSIEvent) :
    ∃ present, c.handleEvent event = { c with present := present } := by
  unfold handleEvent
  split
  · split
    · exact ⟨_,rfl⟩
    split
    · exact ⟨_,rfl⟩
    · exact ⟨_,rfl⟩
  · exact ⟨_,rfl⟩

theorem eventCompleted_frame (c : VirtioSCSIController) (eventBuffer : Nat) (deviceReset : Bool)
    (event : SCSIEvent) (resubmission : IOReturn) :
    ∃ present queued released, c.eventCompleted eventBuffer deviceReset event resubmission =
      { c with present := present, queuedEvents := queued, releasedEvents := released } := by
  unfold eventCompleted
  dsimp only
  split
  · exact ⟨_,_,_,rfl⟩
  · obtain ⟨present,same⟩ :=
      handleEvent_frame { c with queuedEvents := c.queuedEvents.erase eventBuffer } event
    rw [same]
    split
    · exact ⟨_,_,_,rfl⟩
    · exact ⟨_,_,_,rfl⟩

theorem PoolInv.keeps (promised : Promised c a) (taken : scsiStep a c = some c') (inv : PoolInv c) :
    PoolInv c' := by
  cases a with
  | processParallelTask t calls =>
    obtain ⟨⟨response,_⟩,processed,rfl⟩ := Option.map_eq_some_iff.mp taken
    exact inv.process promised.2 processed
  | parallelTaskCompleted t deviceReset fromDevice =>
    simp only [scsiStep] at taken
    split at taken
    · rename_i member
      obtain rfl := Option.some.inj taken
      exact inv.completed member deviceReset fromDevice
    · cases taken
  | eventCompleted eventBuffer deviceReset event resubmission =>
    simp only [scsiStep] at taken
    split at taken
    · obtain rfl := Option.some.inj taken
      obtain ⟨_,_,_,same⟩ := eventCompleted_frame c eventBuffer deviceReset event resubmission
      rw [same]
      exact ⟨inv.identifiers,inv.multi,inv.single⟩
    · cases taken

end VirtioSCSIController

open VirtioSCSIController

/-- In every run in which the family keeps to the number of tasks that it was told, each
descriptor is in its pool, and empty, or with one task; and a further task finds one in both
pools. -/
theorem task_descriptors_pooled (initialized : initializeController setup = some started)
    (run : Run scsiStep Promised started.startController actions c) :
    TasksPooled c ∧
    ∀ t calls, Promised c (.processParallelTask t calls) →
      itemFromPool calls.multiChoice c.multiSubrangeMDPool ≠ none ∧
      itemFromPool calls.singleChoice c.singleSubrangeMDPool ≠ none := by
  have start : PoolInv started.startController := by
    obtain ⟨present,same⟩ := startController_frame started
    obtain ⟨identifiers,multi,single⟩ := initializeController_pools initialized
    rw [same]
    exact ⟨identifiers,multi,single⟩
  have inv : PoolInv c := Run.keeps PoolInv
    (fun promised taken inv => inv.keeps promised taken) run start
  refine ⟨inv.tasksPooled,fun t calls promised => ?_⟩
  have fewer : c.outstanding.length < c.maxTaskCount := promised.1
  have multi := inv.multi_length
  have single := inv.single_length
  constructor
  · intro absent
    rw [draw_eq_none_iff.mp absent] at multi
    simp at multi
    omega
  · intro absent
    rw [draw_eq_none_iff.mp absent] at single
    simp at single
    omega

def twoTasks : ControllerSetup :=
  ⟨true, BitVec.ofNat 32 2, true, 2, 1, .success, (2, 1, 4), fun _ => .success⟩

def readTask (identifier target : Nat) : ParallelTask :=
  ⟨identifier, 100 + identifier, target, 0, identifier, 0, [], some ⟨7, 4096⟩, 0, 512,
    .fromTargetToInitiator⟩

/-- The second of two tasks is answered first and a third one is not submitted. -/
def taskRun : List SCSIAction :=
  [.processParallelTask (readTask 0 0) ⟨0, 0, .success⟩,
    .processParallelTask (readTask 1 0) ⟨0, 5, .success⟩,
    .parallelTaskCompleted (readTask 1 0) false ⟨0, 0, 0⟩,
    .processParallelTask (readTask 2 0) ⟨1, 1, .busy⟩]

instance (c : VirtioSCSIController) : (a : SCSIAction) → Decidable (Promised c a)
  | .processParallelTask _ _ => inferInstanceAs (Decidable (_ ∧ _))
  | .parallelTaskCompleted _ _ _ | .eventCompleted _ _ _ _ => isTrue trivial

theorem task_descriptors_pooled_taskRun :
    ∃ started c, initializeController twoTasks = some started ∧
      Run scsiStep Promised started.startController taskRun c ∧
      c.outstanding = [readTask 0 0] ∧ c.multiSubrangeMDPool.length = 1 ∧ TasksPooled c := by
  have played : ((initializeController twoTasks).bind fun started =>
      play scsiStep (fun c a => decide (Promised c a)) taskRun started.startController).map
        (fun c => (c.outstanding,c.multiSubrangeMDPool.length)) = some ([readTask 0 0],1) := by
    decide +kernel
  obtain ⟨c,played,seen⟩ := Option.map_eq_some_iff.mp played
  obtain ⟨started,initialized,played⟩ := Option.bind_eq_some_iff.mp played
  simp only [Prod.mk.injEq] at seen
  have run := run_of_play (fun _ _ => of_decide_eq_true) played
  exact ⟨started,c,initialized,run,seen.1,seen.2,(task_descriptors_pooled initialized run).1⟩

end VirtioOsx
