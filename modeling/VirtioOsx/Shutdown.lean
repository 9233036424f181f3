import VirtioOsx.CompletionRuns
import VirtioOsx.LegacyPCIDevice

/-! What becomes of the accepted requests when the device is shut down. -/
namespace VirtioOsx

open Runs

/-- Accepted requests whose completion action has not been invoked. -/
def Machine.outstanding (m : Machine) : List Request :=
  m.unconsumed ++ (m.owned.map Fetched.request ++ m.unprocessed.map fun r => r.fetched.request)

/-- Every accepted request has either been completed or is outstanding. -/
theorem MachineInv.accounted (inv : MachineInv n lost m) :
    (m.published.map Request.completion).Perm
      (m.log.map Invocation.completion ++ m.outstanding.map Request.completion) := by
  have conserved := inv.attribution.conserved.map Request.completion
  have handled : m.log.map Invocation.completion =
      (m.returned.take m.log.length).map fun r => r.fetched.request.completion := by
    conv_lhs => rw [inv.used.attributed]
    rw [List.map_map]
    rfl
  have consumed := congrArg (List.map Request.completion)
    (List.take_append_drop m.fetchedCount m.published)
  have returned := congrArg (List.map fun r : Returned => r.fetched.request.completion)
    (List.take_append_drop m.log.length m.returned)
  rw [List.perm_iff_count] at conserved ⊢
  intro c
  have conserved := conserved c
  have consumed := congrArg (List.count c) consumed
  have returned := congrArg (List.count c) returned
  rw [handled]
  simp only [Machine.outstanding,Machine.unconsumed,Machine.unprocessed,List.map_append,List.map_map,
    List.count_append,Function.comp_def] at conserved consumed returned ⊢
  omega

/-- Between the two states the action of each outstanding request is invoked exactly
once, whether normally or for a reset. -/
def OutstandingCompleted (before after : Machine) : Prop :=
  ∃ invoked, after.log = before.log ++ invoked ∧
    (invoked.map Invocation.completion).Perm (before.outstanding.map Request.completion)

def AcceptedCompleted (before after : Machine) : Prop :=
  (after.log.map Invocation.completion).Perm (before.published.map Request.completion)

/-- A property of every queue between the call that shuts the device down and the point
at which its queues have been freed. -/
structure Settles (settled : Machine → Machine → Prop) (d d' : VirtioLegacyPCIDevice) : Prop where
  closed : d'.virtqueues = none
  queues : ∃ last, d'.freed = d.freed ++ last ∧
    List.Forall₂ (fun before after => settled before.machine after.machine) d.queues last

def Idle (d : VirtioLegacyPCIDevice) : Prop :=
  ∀ queue ∈ d.queues, queue.machine.outstanding = []

theorem destroyVirtqueue_log (queue : VirtioLegacyPCIVirtqueue) :
    (destroyVirtqueue queue).machine.log = queue.machine.log := rfl

theorem endDeviceOperation_virtqueues (d : VirtioLegacyPCIDevice) :
    d.endDeviceOperation.virtqueues = none := by
  cases held : d.virtqueues <;>
    simp [VirtioLegacyPCIDevice.endDeviceOperation,VirtioLegacyPCIDevice.handleClose,
      VirtioLegacyPCIDevice.failDevice,VirtioLegacyPCIDevice.endHandlingInterrupts,
      VirtioLegacyPCIDevice.access,held]

theorem endDeviceOperation_freed (d : VirtioLegacyPCIDevice) :
    d.endDeviceOperation.freed = d.freed ++ d.queues.map destroyVirtqueue := by
  cases held : d.virtqueues <;>
    simp [VirtioLegacyPCIDevice.endDeviceOperation,VirtioLegacyPCIDevice.handleClose,
      VirtioLegacyPCIDevice.failDevice,VirtioLegacyPCIDevice.endHandlingInterrupts,
      VirtioLegacyPCIDevice.access,VirtioLegacyPCIDevice.free,VirtioLegacyPCIDevice.queues,held]

/-- Freeing a queue invokes nothing, so a property of the queues at the end is one of the
queues as they are. -/
theorem settles_iff (settled : Machine → Machine → Prop) (d : VirtioLegacyPCIDevice) :
    Settles settled d d.endDeviceOperation ↔
      ∀ queue ∈ d.queues, settled queue.machine (destroyVirtqueue queue).machine := by
  constructor
  · rintro ⟨_,last,freed,each⟩
    rw [endDeviceOperation_freed] at freed
    rw [← List.append_cancel_left freed,List.forall₂_map_right_iff,List.forall₂_same] at each
    exact each
  · intro each
    refine ⟨endDeviceOperation_virtqueues d,_,endDeviceOperation_freed d,?_⟩
    rwa [List.forall₂_map_right_iff,List.forall₂_same]

theorem outstandingCompleted_iff (queue : VirtioLegacyPCIVirtqueue) :
    OutstandingCompleted queue.machine (destroyVirtqueue queue).machine ↔
      queue.machine.outstanding = [] := by
  rw [OutstandingCompleted,destroyVirtqueue_log]
  constructor
  · rintro ⟨invoked,same,perm⟩
    obtain rfl : invoked = [] := by simpa using same
    simpa using perm.symm
  · intro none
    exact ⟨[],by simp,by simp [none]⟩

theorem acceptedCompleted_iff (queue : VirtioLegacyPCIVirtqueue)
    (inv : MachineInv n lost queue.machine) :
    AcceptedCompleted queue.machine (destroyVirtqueue queue).machine ↔
      queue.machine.outstanding = [] := by
  rw [AcceptedCompleted,destroyVirtqueue_log]
  have accounted := inv.accounted
  constructor
  · intro all
    have lengths := (all.trans accounted).length_eq
    simpa using lengths
  · intro none
    simpa [none] using accounted.symm

/-- Shutting the device down completes the requests in flight only if there are none. In
the second part, which looks back over the life of the queues, they have been used
without corrupting their unused lists. -/
theorem shutdown_completes_iff (d : VirtioLegacyPCIDevice) :
    (Settles OutstandingCompleted d d.endDeviceOperation ↔ Idle d) ∧
    ∀ (closed : VirtioLegacyPCIDevice) (allocated : Bool) (setups : List QueueSetup)
      (actions : List DeviceAction), (∀ setup ∈ setups, setup.numQueueEntries < 65536) →
      (closed.setupVirtqueues allocated setups).result = .success →
      Run deviceStep DeviceSound (closed.setupVirtqueues allocated setups).device actions d →
      (Settles AcceptedCompleted d d.endDeviceOperation ↔ Idle d) := by
  constructor
  · rw [settles_iff]
    exact forall₂_congr fun queue _ => outstandingCompleted_iff queue
  · intro closed allocated setups actions sizes ready run
    have inv := deviceInv_run (deviceInv_setup sizes ready) run
    rw [settles_iff]
    refine forall₂_congr fun queue member => ?_
    obtain ⟨n,lost,inv⟩ := inv queue member
    exact acceptedCompleted_iff queue inv

def openedDevice : VirtioLegacyPCIDevice := ⟨true, true, 0, none, true, true, [], []⟩

def twoQueues : List QueueSetup :=
  [⟨4, true, 0, readyCalls 4 64, 4096⟩, ⟨2, true, 0, readyCalls 2 64, 65536⟩]

def checkDevice (d : VirtioLegacyPCIDevice) (a : DeviceAction) : Bool :=
  d.queues[a.queueIndex]?.all fun queue => checkSuccessful queue.machine a.action

theorem deviceSound_of_check (d : VirtioLegacyPCIDevice) (a : DeviceAction)
    (checked : checkDevice d a = true) : DeviceSound d a := by
  intro queue found call same
  simp only [checkDevice,found,Option.all_some] at checked
  exact (successful_of_check _ _ checked).sound call same

def onQueue (j : Nat) (actions : List Action) : List DeviceAction := actions.map (⟨j,·⟩)

def unansweredRequest : List DeviceAction :=
  onQueue 1 [.submit (writeSector 3), .publish, .publish, .publish, .kick, .fetch]

def answeredRequest : List DeviceAction :=
  unansweredRequest ++ onQueue 1 [.complete 0 7, .process 0, .advance, .advance, .advance, .advance,
    .advance, .advance, .advance]

theorem shutdown_completes_iff_answered :
    ∃ d, Run deviceStep DeviceSound (openedDevice.setupVirtqueues true twoQueues).device
        answeredRequest d ∧
      Settles OutstandingCompleted d d.endDeviceOperation ∧
      Settles AcceptedCompleted d d.endDeviceOperation := by
  have played : (play deviceStep checkDevice answeredRequest
      (openedDevice.setupVirtqueues true twoQueues).device).map
        (fun d => d.queues.map fun queue => queue.machine.outstanding) = some [[],[]] := by
    decide +kernel
  obtain ⟨d,played,outstanding⟩ := Option.map_eq_some_iff.mp played
  have run := run_of_play deviceSound_of_check played
  have idle : Idle d := by
    intro queue member
    have listed := List.mem_map_of_mem (f := fun queue => queue.machine.outstanding) member
    rw [outstanding] at listed
    simpa using listed
  obtain ⟨shutdown,life⟩ := shutdown_completes_iff d
  exact ⟨d,run,shutdown.mpr idle,
    (life openedDevice true twoQueues answeredRequest (by decide) rfl run).mpr idle⟩

/-- The queues are freed without a call for the request that the device still holds. -/
theorem shutdown_drops_request :
    (openedDevice.setupVirtqueues true twoQueues).result = .success ∧
    ∃ d, Run deviceStep DeviceSound (openedDevice.setupVirtqueues true twoQueues).device
        unansweredRequest d ∧ d.endDeviceOperation.virtqueues = none ∧
      ¬Settles OutstandingCompleted d d.endDeviceOperation := by
  have played : (play deviceStep checkDevice unansweredRequest
      (openedDevice.setupVirtqueues true twoQueues).device).map
        (fun d => d.queues.map fun queue => queue.machine.outstanding) =
          some [[],[⟨0,[0],⟨1,2,3⟩⟩]] := by
    decide +kernel
  obtain ⟨d,played,outstanding⟩ := Option.map_eq_some_iff.mp played
  refine ⟨rfl,d,run_of_play deviceSound_of_check played,endDeviceOperation_virtqueues d,?_⟩
  intro settles
  have listed : [⟨0,[0],⟨1,2,3⟩⟩] ∈ d.queues.map fun queue => queue.machine.outstanding := by
    simp [outstanding]
  obtain ⟨queue,member,held⟩ := List.mem_map.mp listed
  have none := (outstandingCompleted_iff queue).mp ((settles_iff _ d).mp settles queue member)
  rw [none] at held
  cases held

end VirtioOsx
