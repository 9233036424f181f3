import Mathlib.Data.BitVec
import VirtioOsx.LegacyPCIDevice

/-! How the drivers of this repository open the device, bring it up and let go of it, with
every access they make to the virtio header. Each call of a driver is one function here; what
the calls outside the repository return comes in as arguments. A work loop that cannot be had
leaves an event source behind, which is then removed from a null work loop; here the removal
returns. -/
namespace VirtioOsx

namespace VirtioLegacyHeaderOffset

def deviceFeatureBits : Nat := 0
def guestFeatureBits : Nat := 4
def queueNotify : Nat := 16
def isrStatus : Nat := 19
def basicEndHeader : Nat := 20
def msixConfigVector : Nat := 20
def msixQueueVector : Nat := 22
def msixEndHeader : Nat := 24

end VirtioLegacyHeaderOffset

/-- The device's first range of I/O ports. `probe` turns a shorter one down, and the bus
allows none that is longer. -/
structure HeaderRange where
  length : Nat
  minLen : VirtioLegacyHeaderOffset.basicEndHeader ≤ length
  maxLen : length ≤ 256

/-- `headerLength` is the length of the mapping. `closed` only records the device as each
`handleClose` left it. -/
structure VirtioDevice where
  pci : VirtioLegacyPCIDevice
  headerLength : Nat
  features : BitVec 32
  deviceSpecificConfigStartHeaderOffset : Nat
  closed : List VirtioLegacyPCIDevice

/-- What `beginHandlingInterrupts` gets from the calls it makes: an event source, a device
whose MSI-X is enabled, a work loop, and room for the source in it. -/
structure InterruptCalls where
  intrEventSource : Bool
  msixActive : Bool
  workLoop : Bool
  addEventSource : Bool

namespace VirtioLegacyPCIDevice

def read (d : VirtioLegacyPCIDevice) (offsets : List Nat) : VirtioLegacyPCIDevice :=
  offsets.foldl (fun d offset => d.access offset none) d

def headerOffsets (configBytes : Nat) : List Nat :=
  (List.range ((configBytes + 3) / 4)).map (4 * ·)

def msixQueueVectors (d : VirtioLegacyPCIDevice) : VirtioLegacyPCIDevice :=
  (List.range d.queues.length).foldl (fun d queueId =>
    let d := d.access VirtioLegacyHeaderOffset.queueSelect (some queueId)
    let d := d.access VirtioLegacyHeaderOffset.msixQueueVector (some 0)
    d.access VirtioLegacyHeaderOffset.msixQueueVector none) d

end VirtioLegacyPCIDevice

namespace VirtioDevice

open VirtioLegacyHeaderOffset

def access (d : VirtioDevice) (offset : Nat) (written : Option Nat) : VirtioDevice :=
  { d with pci := d.pci.access offset written }

/-- The registers are printed before the member that they are read through is set. -/
def mapHeaderIORegion (d : VirtioDevice) : Option HeaderRange → Bool × VirtioDevice
  | none => (false, d)
  | some range =>
    let pci := d.pci.read (VirtioLegacyPCIDevice.headerOffsets range.length)
    (true, { d with pci := { pci with pciVirtioHeaderIomap := true }, headerLength := range.length })

def handleOpen (d : VirtioDevice) (iomap : Option HeaderRange) : Bool × VirtioDevice :=
  if d.pci.pciVirtioHeaderIomap then (false, d)
  else if d.pci.opened then (false, d)
  else
    let mapped := mapHeaderIORegion { d with pci := { d.pci with opened := true } } iomap
    if mapped.1 then mapped
    else (false, { mapped.2 with pci := { mapped.2.pci with opened := false } })

def resetDevice (d : VirtioDevice) (deviceStatusValue : Nat) (features : BitVec 32) :
    Bool × VirtioDevice :=
  let pci := d.pci.access deviceStatus (some 0)
  let pci := pci.access deviceStatus none
  if deviceStatusValue ≠ 0 then (false, { d with pci := pci })
  else
    let pci := pci.access deviceStatus (some 1)
    let pci := pci.access deviceStatus (some 3)
    let pci := pci.access deviceFeatureBits none
    (true, { d with pci := pci, features := features })

def requestFeatures (d : VirtioDevice) (useFeatures : BitVec 32) : Bool × VirtioDevice :=
  if ~~~d.features &&& useFeatures ≠ 0 then (false, d)
  else if useFeatures.getLsbD 29 then (false, d)
  else if useFeatures.getLsbD 30 then (false, d)
  else
    let pci := { d.pci with activeFeatures := useFeatures.toNat }
    (true, { d with pci := pci.access guestFeatureBits (some useFeatures.toNat) })

def failDevice (d : VirtioDevice) : VirtioDevice := { d with pci := d.pci.failDevice }

def setupVirtqueues (d : VirtioDevice) (allocated : Bool) (setups : List QueueSetup) :
    IOReturn × VirtioDevice :=
  let setup := d.pci.setupVirtqueues allocated setups
  (setup.result, { d with pci := setup.device })

/-- Its second event source, which nothing refers to, is left out. -/
def beginHandlingInterrupts (d : VirtioDevice) (calls : InterruptCalls) : Bool × VirtioDevice :=
  if calls.intrEventSource then
    let pci := { d.pci with intrEventSource := true }
    let start := if calls.msixActive then msixEndHeader else d.deviceSpecificConfigStartHeaderOffset
    let pci := if calls.msixActive then
        ((pci.access msixConfigVector (some 0)).access msixConfigVector none).msixQueueVectors
      else pci
    let pci := { pci with workLoop := calls.workLoop }
    let pci := { pci with intrEventSource := !calls.workLoop || calls.addEventSource }
    (calls.workLoop && calls.addEventSource,
      { d with pci := pci, deviceSpecificConfigStartHeaderOffset := start })
  else (false, { d with pci := { d.pci with intrEventSource := false } })

def startDevice (d : VirtioDevice) (calls : InterruptCalls) : VirtioDevice :=
  let d := (d.beginHandlingInterrupts calls).2
  let pci := d.pci.access deviceStatus (some 7)
  { d with pci := pci.read (VirtioLegacyPCIDevice.headerOffsets d.headerLength) }

def close (d : VirtioDevice) : VirtioDevice :=
  { d with pci := d.pci.handleClose, closed := d.closed ++ [d.pci.handleClose] }

def readDeviceConfig (d : VirtioDevice) (offsets : List Nat) : VirtioDevice :=
  { d with pci := d.pci.read (offsets.map (d.deviceSpecificConfigStartHeaderOffset + ·)) }

def failAndClose (d : VirtioDevice) : VirtioDevice := d.failDevice.close

end VirtioDevice

/-- What a driver gets from outside this repository while it brings the device up. The
fields from `workLoop` on concern the network driver only. -/
structure BringUp where
  iomap : Option HeaderRange
  deviceStatusValue : Nat
  features : BitVec 32
  segMax : Nat
  allocated : Bool
  queue : Nat → QueueSetup
  interrupts : InterruptCalls
  workLoop : Bool
  prefAllowOffloading : Bool
  outputQueue : Bool
  attachInterface : Bool
  debugger : Bool
  populateReceiveBuffers : Bool
  sameInterface : Bool
  createMediumTable : Bool

namespace VirtioBlockDevice

def supportedFeatures : BitVec 32 := BitVec.ofNat 32 (2^2 + 2^5 + 2^6 + 2^10 + 2^28)
def configSegMaxOffset : Nat := 12
def configBlkSizeOffset : Nat := 20

/-- A 64-bit field is read as two halves. -/
def configFields (useFeatures : BitVec 32) : List Nat :=
  [0, 4, 8] ++ if useFeatures.getLsbD 6 then [configBlkSizeOffset] else []

def start (d : VirtioDevice) (c : BringUp) : Bool × VirtioDevice :=
  let opened := d.handleOpen c.iomap
  if opened.1 then
    let d := (opened.2.resetDevice c.deviceStatusValue c.features).2
    let useFeatures := d.features &&& supportedFeatures
    let requested := d.requestFeatures useFeatures
    if requested.1 then
      let hasSegMax := useFeatures.getLsbD 2
      let d := requested.2.readDeviceConfig (if hasSegMax then [configSegMaxOffset] else [])
      let segMax := if hasSegMax then c.segMax else 510
      let setup := d.setupVirtqueues c.allocated
        [{ c.queue 0 with interruptsEnabled := true, indirectDescPerRequest := (segMax + 2) % 2^32 }]
      if setup.1 = .success then
        (true, (setup.2.startDevice c.interrupts).readDeviceConfig (configFields useFeatures))
      else (false, setup.2.failAndClose)
    else (false, requested.2.failAndClose)
  else (false, opened.2)

end VirtioBlockDevice

namespace VirtioMemBalloonDevice

def supportedFeatures : BitVec 32 := 0
def configFields : List Nat := [0, 4]

def start (d : VirtioDevice) (c : BringUp) : Bool × VirtioDevice :=
  let opened := d.handleOpen c.iomap
  if opened.1 then
    let d := (opened.2.resetDevice c.deviceStatusValue c.features).2
    let useFeatures := d.features &&& supportedFeatures
    let requested := d.requestFeatures useFeatures
    if requested.1 then
      let setup := requested.2.setupVirtqueues c.allocated
        ([c.queue 0, c.queue 1].map fun queue =>
          { queue with interruptsEnabled := true, indirectDescPerRequest := 0 })
      if setup.1 = .success then
        (true, (setup.2.startDevice c.interrupts).readDeviceConfig configFields)
      else (false, setup.2.failAndClose)
    else (false, requested.2.failAndClose)
  else (false, opened.2)

end VirtioMemBalloonDevice

/-- The states in which the driver can be between calls, less the failed starts. -/
inductive DriverState where
  | started
  | enableFailed
  | enabled
  | enabledDebugging
  | enabledBoth
  deriving DecidableEq, Repr

structure PJVirtioNet where
  driverState : DriverState
  featureStatusField : Bool
  featureChecksumOffload : Bool
  debugger : Bool
  deriving DecidableEq, Repr

namespace PJVirtioNet

def configMacOffsets : List Nat := [0, 1, 2, 3, 4, 5]
def configStatusOffset : Nat := 6

def readStatus (featureStatusField : Bool) (d : VirtioDevice) : VirtioDevice :=
  d.readDeviceConfig (if featureStatusField then [configStatusOffset] else [])

/-- The driver that has been started, if it has, and the device. A driver without a work
loop returns with the device open. -/
def start (d : VirtioDevice) (c : BringUp) : Option PJVirtioNet × VirtioDevice :=
  let opened := d.handleOpen c.iomap
  if opened.1 then
    if c.workLoop then
      let d := (opened.2.resetDevice c.deviceStatusValue c.features).2
      let devFeatures := d.features
      let d := d.readDeviceConfig (if devFeatures.getLsbD 5 then configMacOffsets else [])
      let d := readStatus (devFeatures.getLsbD 16) d
      let d := d.failAndClose
      if c.outputQueue && c.attachInterface then
        (some ⟨.started, devFeatures.getLsbD 16, c.prefAllowOffloading && devFeatures.getLsbD 0,
          c.debugger⟩, d)
      else (none, d)
    else (none, opened.2)
  else (none, opened.2)

def supportedFeatures (featureChecksumOffload : Bool) : BitVec 32 :=
  BitVec.ofNat 32 (2^24 + 2^5 + 2^16 + if featureChecksumOffload then 2^0 + 2^11 else 0)

def enablePartial (net : PJVirtioNet) (d : VirtioDevice) (c : BringUp) : Bool × VirtioDevice :=
  let opened := d.handleOpen c.iomap
  if opened.1 then
    let reset := opened.2.resetDevice c.deviceStatusValue c.features
    if reset.1 then
      let requested := reset.2.requestFeatures
        (reset.2.features &&& supportedFeatures net.featureChecksumOffload)
      if requested.1 then
        let setup := requested.2.setupVirtqueues c.allocated
          ([c.queue 0, c.queue 1].map fun queue =>
            { queue with interruptsEnabled := false, indirectDescPerRequest := 0 })
        if setup.1 = .success then
          let d := setup.2.startDevice c.interrupts
          if c.populateReceiveBuffers then (true, d) else (false, d.failAndClose)
        else (false, setup.2.failAndClose)
      else (false, requested.2.failAndClose)
    else (false, reset.2.close)
  else (false, opened.2)

def gatedEnableDebugger (net : PJVirtioNet) (d : VirtioDevice) (c : BringUp) :
    PJVirtioNet × VirtioDevice :=
  if net.debugger then
    match net.driverState with
    | .enabled => ({ net with driverState := .enabledBoth }, d)
    | .started =>
      let enabled := net.enablePartial d c
      ({ net with driverState := if enabled.1 then .enabledDebugging else .enableFailed }, enabled.2)
    | _ => (net, d)
  else (net, d)

/-- What follows once the device is up: a failure leaves it open, and a missing output
queue also leaves it failed. -/
def enableQueues (net : PJVirtioNet) (hasDebugger : Bool) (d : VirtioDevice) (c : BringUp) :
    PJVirtioNet × VirtioDevice :=
  let failed := { net with driverState := .enableFailed }
  if c.createMediumTable then
    if c.outputQueue then
      ({ net with driverState := if hasDebugger then .enabledBoth else .enabled },
        readStatus net.featureStatusField d)
    else (failed, d.failDevice)
  else (failed, d)

/-- With an interface that is not its own the driver fails before it opens the device. -/
def gatedEnableInterface (net : PJVirtioNet) (d : VirtioDevice) (c : BringUp) :
    PJVirtioNet × VirtioDevice :=
  match net.driverState with
  | .started =>
    let failed := { net with driverState := .enableFailed }
    if c.sameInterface then
      let enabled := net.enablePartial d c
      if enabled.1 then net.enableQueues false enabled.2 c else (failed, enabled.2)
    else (failed, d)
  | .enabledDebugging => if c.sameInterface then net.enableQueues true d c else (net, d)
  | _ => (net, d)

def disablePartial (net : PJVirtioNet) (d : VirtioDevice) : PJVirtioNet × VirtioDevice :=
  ({ net with driverState := .started }, d.failAndClose)

def disableDebugger (net : PJVirtioNet) (d : VirtioDevice) : PJVirtioNet × VirtioDevice :=
  match net.driverState with
  | .enabledDebugging => net.disablePartial d
  | .enabledBoth => ({ net with driverState := .enabled }, d)
  | _ => (net, d)

def disableInterface (net : PJVirtioNet) (d : VirtioDevice) : PJVirtioNet × VirtioDevice :=
  match net.driverState with
  | .enabledBoth => ({ net with driverState := .enabledDebugging }, d)
  | .enabled => net.disablePartial d
  | _ => (net, d)

def stop (net : PJVirtioNet) (d : VirtioDevice) : VirtioDevice :=
  let disabled := net.disableInterface d
  if disabled.1.driverState = .enabledDebugging then (disabled.1.disablePartial disabled.2).2
  else disabled.2

end PJVirtioNet

/-- The driver attached to the device, once its `start` has returned true. The block and the
balloon driver have `virtio_device` set until they end their operation. -/
inductive Client where
  | block
  | balloon
  | net (driver : PJVirtioNet)
  deriving DecidableEq, Repr

def Client.running : Client → Bool
  | .block | .balloon => true
  | .net driver => driver.driverState = .enabled || driver.driverState = .enabledDebugging ||
      driver.driverState = .enabledBoth

structure ClientSystem where
  device : VirtioDevice
  client : Option Client

inductive ClientAction where
  | startBlock (c : BringUp)
  | startBalloon (c : BringUp)
  | startNet (c : BringUp)
  | endDeviceOperation
  | enableInterface (c : BringUp)
  | enableDebugger (c : BringUp)
  | disableInterface
  | disableDebugger
  | stop
  | interruptFilter
  | configChange
  | notify (queueIndex : Nat)

namespace ClientSystem

/-- A driver whose `start` returns false is detached again. -/
def attach (client : Client) (started : Bool × VirtioDevice) : ClientSystem :=
  ⟨started.2, if started.1 then some client else none⟩

def withNet (result : PJVirtioNet × VirtioDevice) : ClientSystem :=
  ⟨result.2, some (.net result.1)⟩

def configChanged (d : VirtioDevice) : Client → VirtioDevice
  | .block => d
  | .balloon => d.readDeviceConfig VirtioMemBalloonDevice.configFields
  | .net net => PJVirtioNet.readStatus net.featureStatusField d

end ClientSystem

def clientStep (a : ClientAction) (s : ClientSystem) : Option ClientSystem :=
  match a, s.client with
  | .startBlock c, none => some (.attach .block (VirtioBlockDevice.start s.device c))
  | .startBalloon c, none => some (.attach .balloon (VirtioMemBalloonDevice.start s.device c))
  | .startNet c, none =>
    let started := PJVirtioNet.start s.device c
    some ⟨started.2, started.1.map .net⟩
  | .endDeviceOperation, some .block => some ⟨s.device.failAndClose, none⟩
  | .endDeviceOperation, some .balloon => some ⟨s.device.failAndClose, none⟩
  | .enableInterface c, some (.net net) => some (.withNet (net.gatedEnableInterface s.device c))
  | .enableDebugger c, some (.net net) => some (.withNet (net.gatedEnableDebugger s.device c))
  | .disableInterface, some (.net net) => some (.withNet (net.disableInterface s.device))
  | .disableDebugger, some (.net net) => some (.withNet (net.disableDebugger s.device))
  | .stop, some (.net net) => some ⟨net.stop s.device, none⟩
  | .interruptFilter, client =>
    if s.device.pci.intrEventSource then
      some ⟨s.device.access VirtioLegacyHeaderOffset.isrStatus none, client⟩
    else none
  | .configChange, some client =>
    if s.device.pci.intrEventSource then
      some ⟨ClientSystem.configChanged s.device client, some client⟩
    else none
  | .notify queueIndex, some client =>
    if client.running then
      some ⟨s.device.access VirtioLegacyHeaderOffset.queueNotify (some queueIndex), some client⟩
    else none
  | _, _ => none

end VirtioOsx
