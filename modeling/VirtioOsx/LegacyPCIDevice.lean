import VirtioOsx.QueueInvariant

/-! The device that owns the virtqueues: how they are set up, how calls on different
queues interleave, and how they are freed when the device is closed. A pointer of which
only nullness matters is a `Bool`. -/
namespace VirtioOsx

namespace VirtioLegacyHeaderOffset

def queueAddress : Nat := 8
def queueSize : Nat := 12
def queueSelect : Nat := 14
def deviceStatus : Nat := 18

end VirtioLegacyHeaderOffset

/-- An access to a register of the virtio header; `written` is absent for a read. -/
structure HeaderAccess where
  offset : Nat
  written : Option Nat
  mapped : Bool
  deriving DecidableEq, Repr

/-- The source's structure, with the queue's device on the other side. -/
structure VirtioLegacyPCIVirtqueue where
  queueMem : Bool
  queueMemDma : Bool
  descriptorBuffers : Bool
  machine : Machine

/-- `accesses` and `freed` only record what has happened: the accesses to the header, and
the queues as they were left when they were freed. -/
structure VirtioLegacyPCIDevice where
  opened : Bool
  pciVirtioHeaderIomap : Bool
  activeFeatures : Nat
  virtqueues : Option (List VirtioLegacyPCIVirtqueue)
  intrEventSource : Bool
  workLoop : Bool
  accesses : List HeaderAccess
  freed : List VirtioLegacyPCIVirtqueue

namespace VirtioLegacyPCIDevice

def queues (d : VirtioLegacyPCIDevice) : List VirtioLegacyPCIVirtqueue := d.virtqueues.getD []

def access (d : VirtioLegacyPCIDevice) (offset : Nat) (written : Option Nat) :
    VirtioLegacyPCIDevice :=
  { d with accesses := d.accesses ++ [⟨offset, written, d.pciVirtioHeaderIomap⟩] }

/-- The event source is disabled and removed from the work loop, and both are released. With a
source but no work loop the removal would crash; here it does nothing. -/
def endHandlingInterrupts (d : VirtioLegacyPCIDevice) : VirtioLegacyPCIDevice :=
  { d with intrEventSource := false, workLoop := false }

def failDevice (d : VirtioLegacyPCIDevice) : VirtioLegacyPCIDevice :=
  let d := d.access VirtioLegacyHeaderOffset.deviceStatus (some 128)
  let d := d.endHandlingInterrupts
  { d with pciVirtioHeaderIomap := false }

end VirtioLegacyPCIDevice

/-- Only the first command of each descriptor is released; a queue with indirect
descriptors keeps its other two commands and its tables. -/
def destroyVirtqueue (queue : VirtioLegacyPCIVirtqueue) : VirtioLegacyPCIVirtqueue :=
  let virtqueue := (List.range queue.machine.queue.numEntries).foldl
    (fun virtqueue i => virtqueue.modifyBuffer i fun buffer => { buffer with dmaCmd := none })
    queue.machine.queue
  ⟨false, false, false, { queue.machine with queue := virtqueue }⟩

/-- What one iteration of `setupVirtqueues` is given: the arguments for its queue, the
value of `QUEUE_SIZE`, and the outcome of its allocations and of its DMA mapping. -/
structure QueueSetup where
  numQueueEntries : Nat
  interruptsEnabled : Bool
  indirectDescPerRequest : Nat
  calls : SetupCalls
  segmentAddress : Nat

structure SetupReturn where
  result : IOReturn
  outQueueSizes : List Nat
  device : VirtioLegacyPCIDevice

namespace VirtioLegacyPCIDevice

def free (d : VirtioLegacyPCIDevice) (queues : List VirtioLegacyPCIVirtqueue) :
    VirtioLegacyPCIDevice :=
  { d with freed := d.freed ++ queues.map destroyVirtqueue }

def setupFrom (d : VirtioLegacyPCIDevice) (queues : List VirtioLegacyPCIVirtqueue) :
    List QueueSetup → SetupReturn
  | [] => ⟨.success, queues.map fun q => q.machine.queue.numEntries,
      { d with virtqueues := some queues }⟩
  | setup :: rest =>
    let d := d.access VirtioLegacyHeaderOffset.queueSelect (some queues.length)
    let d := d.access VirtioLegacyHeaderOffset.queueSize none
    match setupVirtqueue setup.numQueueEntries d.activeFeatures setup.interruptsEnabled
      setup.indirectDescPerRequest setup.calls with
    | .error result =>
      ⟨result, queues.map fun q => q.machine.queue.numEntries, d.failDevice.free queues⟩
    | .ok queue =>
      let d := d.access VirtioLegacyHeaderOffset.queueAddress
        (some (setup.segmentAddress / 4096 % 2^32))
      d.setupFrom (queues ++ [⟨true, true, true, Machine.start queue⟩]) rest

def setupVirtqueues (d : VirtioLegacyPCIDevice) (allocated : Bool) (setups : List QueueSetup) :
    SetupReturn :=
  if allocated then d.setupFrom [] setups else ⟨.noMemory, [], d⟩

def handleClose (d : VirtioLegacyPCIDevice) : VirtioLegacyPCIDevice :=
  let d := match d.virtqueues with
    | some queues => { d.failDevice.free queues with virtqueues := none }
    | none => d
  { d with pciVirtioHeaderIomap := false, opened := false }

/-- How the block, the balloon and the network driver let go of the device. -/
def endDeviceOperation (d : VirtioLegacyPCIDevice) : VirtioLegacyPCIDevice :=
  d.failDevice.handleClose

end VirtioLegacyPCIDevice

structure DeviceAction where
  queueIndex : Nat
  action : Action

def deviceStep (a : DeviceAction) (d : VirtioLegacyPCIDevice) : Option VirtioLegacyPCIDevice :=
  d.queues[a.queueIndex]?.bind fun queue =>
    (step a.action queue.machine).map fun m =>
      { d with virtqueues := some (d.queues.set a.queueIndex { queue with machine := m }) }

def DeviceSound (d : VirtioLegacyPCIDevice) (a : DeviceAction) : Prop :=
  ∀ queue, d.queues[a.queueIndex]? = some queue → Sound queue.machine a.action

/-- Every queue satisfies its own invariant; the queues share nothing. -/
def DeviceInv (d : VirtioLegacyPCIDevice) : Prop :=
  ∀ queue ∈ d.queues, ∃ n lost, MachineInv n lost queue.machine

theorem DeviceInv.keeps (inv : DeviceInv d) (sound : DeviceSound d a)
    (taken : deviceStep a d = some d') : DeviceInv d' := by
  obtain ⟨queue,found,moved⟩ := Option.bind_eq_some_iff.mp taken
  obtain ⟨m,stepped,rfl⟩ := Option.map_eq_some_iff.mp moved
  intro other member
  rcases List.mem_or_eq_of_mem_set member with old | rfl
  · exact inv other old
  · obtain ⟨n,lost,before⟩ := inv queue (List.mem_of_getElem? found)
    obtain ⟨more,after,_⟩ := before.keeps stepped (.inl (sound queue found))
    exact ⟨n,_,after⟩

theorem setupFrom_inv {d : VirtioLegacyPCIDevice} {queues : List VirtioLegacyPCIVirtqueue}
    (before : ∀ queue ∈ queues, ∃ n lost, MachineInv n lost queue.machine)
    (sizes : ∀ setup ∈ setups, setup.numQueueEntries < 65536)
    (ready : (d.setupFrom queues setups).result = .success) :
    DeviceInv (d.setupFrom queues setups).device := by
  induction setups generalizing d queues with
  | nil => exact before
  | cons setup rest ih =>
    simp only [VirtioLegacyPCIDevice.setupFrom] at ready ⊢
    split at ready
    · rename_i result failed
      exact absurd ready (setupVirtqueue_error failed)
    · rename_i queue built
      refine ih (fun other member => ?_) (fun s member => sizes s (List.mem_cons_of_mem _ member))
        ready
      rcases List.mem_append.mp member with old | new
      · exact before other old
      · obtain rfl := List.mem_singleton.mp new
        exact ⟨_,[],machineInv_setup (sizes setup List.mem_cons_self) built⟩

theorem deviceInv_setup {d : VirtioLegacyPCIDevice}
    (sizes : ∀ setup ∈ setups, setup.numQueueEntries < 65536)
    (ready : (d.setupVirtqueues allocated setups).result = .success) :
    DeviceInv (d.setupVirtqueues allocated setups).device := by
  unfold VirtioLegacyPCIDevice.setupVirtqueues at ready ⊢
  split at ready
  · rename_i given
    rw [if_pos given]
    exact setupFrom_inv (by simp) sizes ready
  · cases ready

open Runs

theorem deviceInv_run (inv : DeviceInv d) (run : Run deviceStep DeviceSound d actions d') :
    DeviceInv d' :=
  Run.keeps DeviceInv (fun sound taken inv => inv.keeps sound taken) run inv

end VirtioOsx
