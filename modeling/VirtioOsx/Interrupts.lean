import VirtioOsx.QueueInvariant

/-! The interrupts of a device with several queues. The filter runs in interrupt context
while the action, the device and the calls of the clients go on; every step is one access to
what they share. -/
namespace VirtioOsx

/-- A queue, and how far its device is with telling the driver: `check` says that it has
returned an entry and has not read the flags since, and `signal` that it has read 0 and is
about to raise the interrupt. -/
structure InterruptQueue where
  machine : Machine
  check : Bool
  signal : Bool

/-- Positions in `interruptFilter` once it has read the ISR: before it records the change of
configuration, before it masks a queue, and before it returns true. -/
inductive FilterPosition where
  | setConfigChange
  | mask (i : Nat)
  | returnTrue
  deriving DecidableEq, Repr

/-- Positions in `interruptAction`: before the test of `received_config_change`, before it is
cleared, before the call of `configChangeAction`, before the call for a queue, and inside it. -/
inductive ActionPosition where
  | test
  | clear
  | call
  | enter (i : Nat)
  | inside (i : Nat)
  deriving DecidableEq, Repr

/-- `isrUsed` and `isrConfChange` are the two bits of the ISR, and `scheduled` says that the
work loop is to run the action. `configSignal` is for the configuration what `signal` is for a
queue. `configChanges` only counts the changes, and `handledChanges` those of them that have
been followed by a call of `configChangeAction`. -/
structure InterruptSystem where
  numVirtqueues : Nat
  virtqueues : Nat → InterruptQueue
  configChangeAction : Bool
  receivedConfigChange : Bool
  isrUsed : Bool
  isrConfChange : Bool
  filter : Option FilterPosition
  scheduled : Bool
  action : Option ActionPosition
  configSignal : Bool
  configChanges : Nat
  handledChanges : Nat

namespace Machine

def setAvailableFlags (m : Machine) (flags : Nat) : Machine :=
  { m with queue := { m.queue with availableRing := { m.queue.availableRing with flags := flags } } }

end Machine

namespace InterruptQueue

def requested (queue : InterruptQueue) : Bool := queue.machine.queue.interruptsRequested

def flags (queue : InterruptQueue) : Nat := queue.machine.queue.availableRing.flags

def setFlags (queue : InterruptQueue) (flags : Nat) : InterruptQueue :=
  { queue with machine := queue.machine.setAvailableFlags flags }

def setRequested (queue : InterruptQueue) (enabled : Bool) : InterruptQueue :=
  { queue with machine := { queue.machine with
      queue := { queue.machine.queue with interruptsRequested := enabled } } }

end InterruptQueue

namespace InterruptSystem

def start (numVirtqueues : Nat) (queues : Nat → VirtioVirtqueue) (configChangeAction : Bool) :
    InterruptSystem where
  numVirtqueues := numVirtqueues
  virtqueues i := ⟨Machine.start (queues i), false, false⟩
  configChangeAction := configChangeAction
  receivedConfigChange := false
  isrUsed := false
  isrConfChange := false
  filter := none
  scheduled := false
  action := none
  configSignal := false
  configChanges := 0
  handledChanges := 0

def setQueue (s : InterruptSystem) (i : Nat) (queue : InterruptQueue) : InterruptSystem :=
  { s with virtqueues := Function.update s.virtqueues i queue }

/-- A step of the device on a queue, or of a call that a client makes. Such a call may poll
the queue, unless the action is processing it already. -/
def queueStep (i : Nat) (a : Action) (s : InterruptSystem) : Option InterruptSystem :=
  if i < s.numVirtqueues then
    match a with
    | .advance => if s.action = some (.inside i) then none else
        (step .advance (s.virtqueues i).machine).map fun m =>
          s.setQueue i { s.virtqueues i with machine := m }
    | .complete position writtenBytes =>
      (step (.complete position writtenBytes) (s.virtqueues i).machine).map fun m =>
        s.setQueue i { s.virtqueues i with machine := m, check := true }
    | a => (step a (s.virtqueues i).machine).map fun m =>
        s.setQueue i { s.virtqueues i with machine := m }
  else none

def readFlags (i : Nat) (s : InterruptSystem) : Option InterruptSystem :=
  if i < s.numVirtqueues ∧ (s.virtqueues i).check = true then
    some (s.setQueue i { s.virtqueues i with
      check := false
      signal := (s.virtqueues i).signal || (s.virtqueues i).flags == 0 })
  else none

def raiseUsed (i : Nat) (s : InterruptSystem) : Option InterruptSystem :=
  if i < s.numVirtqueues ∧ (s.virtqueues i).signal = true then
    some { s.setQueue i { s.virtqueues i with signal := false } with isrUsed := true }
  else none

def changeConfig (s : InterruptSystem) : InterruptSystem :=
  { s with configSignal := true, configChanges := s.configChanges + 1 }

def raiseConfig (s : InterruptSystem) : Option InterruptSystem :=
  if s.configSignal then some { s with configSignal := false, isrConfChange := true } else none

/-- Reading the ISR clears it. With neither bit set the filter returns false at once. -/
def enterFilter (s : InterruptSystem) : InterruptSystem :=
  { s with
    isrUsed := false
    isrConfChange := false
    filter := if s.isrConfChange then some .setConfigChange
      else if s.isrUsed then some (.mask 0) else none }

def interruptFilter (s : InterruptSystem) : InterruptSystem :=
  match s.filter with
  | none => s.enterFilter
  | some .setConfigChange => { s with receivedConfigChange := true, filter := some .returnTrue }
  | some (.mask i) =>
    if i < s.numVirtqueues then
      { s.setQueue i ((s.virtqueues i).setFlags VirtioVringAvailFlag.noInterrupt) with
        filter := some (.mask (i + 1)) }
    else { s with filter := some .returnTrue }
  | some .returnTrue => { s with filter := none, scheduled := true }

def processQueue (i : Nat) (s : InterruptSystem) : Option InterruptSystem :=
  (s.virtqueues i).machine.advance.map fun m =>
    { s.setQueue i { s.virtqueues i with machine := m } with
      action := some (if m.processing.isSome then .inside i else .enter (i + 1)) }

def interruptAction (s : InterruptSystem) : Option InterruptSystem :=
  match s.action with
  | none => if s.scheduled then some { s with scheduled := false, action := some .test } else none
  | some .test => some { s with
      action := some (if s.receivedConfigChange then .clear else .enter 0) }
  | some .clear => some { s with receivedConfigChange := false, action := some .call }
  | some .call => some { s with
      handledChanges := if s.configChangeAction then s.configChanges else s.handledChanges
      action := some (.enter 0) }
  | some (.enter i) =>
    if i < s.numVirtqueues then
      ((s.virtqueues i).machine.process 0).map fun m =>
        { s.setQueue i { s.virtqueues i with machine := m } with action := some (.inside i) }
    else some { s with action := none }
  | some (.inside i) => s.processQueue i

def queueAt (s : InterruptSystem) (queueId : Nat) : Option InterruptQueue :=
  if queueId < s.numVirtqueues then some (s.virtqueues queueId) else none

/-- Of the two writes only the one to the flags can be seen by the device and the filter. The
result is absent if the array has no element where it is accessed. -/
def setVirtqueueInterruptsEnabled (queueId : Nat) (enabled : Bool) (s : InterruptSystem) :
    Option (IOReturn × InterruptSystem) :=
  if queueId > s.numVirtqueues then some (.badArgument, s)
  else (s.queueAt queueId).map fun queue =>
    if queue.requested ≠ enabled then
      (.success, s.setQueue queueId ((queue.setRequested enabled).setFlags
        (if enabled then 0 else VirtioVringAvailFlag.noInterrupt)))
    else (.success, s)

end InterruptSystem

/-- The work loop may also run the action when nobody has asked for it. -/
inductive InterruptEvent where
  | queue (i : Nat) (a : Action)
  | readFlags (i : Nat)
  | raiseUsed (i : Nat)
  | changeConfig
  | raiseConfig
  | filter
  | schedule
  | action
  | setEnabled (queueId : Nat) (enabled : Bool)

def interruptStep : InterruptEvent → InterruptSystem → Option InterruptSystem
  | .queue i a => InterruptSystem.queueStep i a
  | .readFlags i => InterruptSystem.readFlags i
  | .raiseUsed i => InterruptSystem.raiseUsed i
  | .changeConfig => fun s => some s.changeConfig
  | .raiseConfig => InterruptSystem.raiseConfig
  | .filter => fun s => some s.interruptFilter
  | .schedule => fun s => some { s with scheduled := true }
  | .action => InterruptSystem.interruptAction
  | .setEnabled queueId enabled => fun s =>
    (s.setVirtqueueInterruptsEnabled queueId enabled).map Prod.snd

end VirtioOsx
