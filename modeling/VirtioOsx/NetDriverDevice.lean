import VirtioOsx.NetDriver
import VirtioOsx.RegisterAccess

/-! The two views of the network driver: the one with every access to the device, and the one
with the driver's own state. Whatever the clients of a device do, the state of a network
driver among them is one that the other view reaches by the same calls. -/
namespace VirtioOsx

open Runs

def DriverState.seen : DriverState → NetDriverState
  | .started => .started
  | .enableFailed => .enableFailed
  | .enabled => .enabled
  | .enabledDebugging => .enabledDebugging
  | .enabledBoth => .enabledBoth

structure Reflects (net : PJVirtioNet) (device : VirtioDevice) (d : NetDriver) : Prop where
  state : d.driverState = net.driverState.seen
  opened : d.deviceOpen = device.pci.opened
  debugger : (d.debugger && d.debuggerTransmitPacket) = net.debugger

namespace VirtioDevice

/-! Which calls leave the device open. -/

theorem startDevice_opened (device : VirtioDevice) (calls : InterruptCalls) :
    (device.startDevice calls).pci.opened = device.pci.opened := by
  obtain ⟨_,opened,_⟩ := beginHandlingInterrupts_state device calls
  exact (VirtioLegacyPCIDevice.read_accesses _ _).1.opened.trans opened

theorem close_opened (device : VirtioDevice) : device.close.pci.opened = false := rfl

end VirtioDevice

namespace PJVirtioNet

open VirtioDevice

section Stages

variable (net : PJVirtioNet) (device : VirtioDevice) (c : BringUp)

/-! The stages of `enablePartial`, each with its result and the device after it. -/

def opening : Bool × VirtioDevice := device.handleOpen c.iomap

def resetting : Bool × VirtioDevice :=
  (opening device c).2.resetDevice c.deviceStatusValue c.features

def requesting : Bool × VirtioDevice :=
  (resetting device c).2.requestFeatures
    ((resetting device c).2.features &&& supportedFeatures net.featureChecksumOffload)

def settingUp : IOReturn × VirtioDevice :=
  (net.requesting device c).2.setupVirtqueues c.allocated
    ([c.queue 0, c.queue 1].map fun queue =>
      { queue with interruptsEnabled := false, indirectDescPerRequest := 0 })

def calls : NetCalls where
  superStart := true
  virtioProvider := true
  openDevice := (opening device c).1
  workLoop := c.workLoop
  outputQueue := c.outputQueue
  attachInterface := if c.attachInterface then some 1 else none
  transmitPacket := c.debugger
  attachDebuggerClient := c.debugger
  resetDevice := (resetting device c).1
  requestFeatures := (net.requesting device c).1
  setupVirtqueues := (net.settingUp device c).1
  populateReceiveBuffers := c.populateReceiveBuffers
  createMediumTable := c.createMediumTable

theorem enablePartial_stages : net.enablePartial device c =
    if (opening device c).1 then
      if (resetting device c).1 then
        if (net.requesting device c).1 then
          if (net.settingUp device c).1 = .success then
            if c.populateReceiveBuffers then
              (true, (net.settingUp device c).2.startDevice c.interrupts)
            else (false, ((net.settingUp device c).2.startDevice c.interrupts).failAndClose)
          else (false, (net.settingUp device c).2.failAndClose)
        else (false, (net.requesting device c).2.failAndClose)
      else (false, (resetting device c).2.close)
    else (false, (opening device c).2) := rfl

variable {device c}

theorem opening_opened (granted : (opening device c).1 = true) :
    (opening device c).2.pci.opened = true ∧
      (opening device c).2.pci.pciVirtioHeaderIomap = true := by
  obtain ⟨free,unmapped,range,iomap⟩ := handleOpen_granted granted
  rw [opening,iomap,handleOpen_maps free unmapped]
  exact ⟨(VirtioLegacyPCIDevice.read_accesses _ _).1.opened,rfl⟩

/-- The device is still open when its queues have been set up. -/
theorem settingUp_opened (granted : (opening device c).1 = true) :
    (net.settingUp device c).2.pci.opened = true := by
  obtain ⟨opened,mapped⟩ := opening_opened granted
  have ⟨⟨requested,_⟩,_⟩ := requestFeatures_onlyAccesses (resetting device c).2
    ((resetting device c).2.features &&& supportedFeatures net.featureChecksumOffload)
  have ⟨⟨reset,_⟩,_⟩ := resetDevice_onlyAccesses (opening device c).2 c.deviceStatusValue c.features
  have stillMapped : (net.requesting device c).2.pci.pciVirtioHeaderIomap = true :=
    (requested.iomap.trans reset.iomap).trans mapped
  obtain ⟨_,kept,_⟩ := setupVirtqueues_spec c.allocated
    ([c.queue 0, c.queue 1].map fun queue =>
      { queue with interruptsEnabled := false, indirectDescPerRequest := 0 }) stillMapped
  exact kept.trans ((requested.opened.trans reset.opened).trans opened)

end Stages

/-- `enablePartial` has the same result in both views, and opens the device in both or in
neither. -/
theorem enablePartial_reflected (net : PJVirtioNet) (device : VirtioDevice) (c : BringUp)
    {d : NetDriver} (same : d.deviceOpen = device.pci.opened) :
    d.enablePartial (net.calls device c) = ((net.enablePartial device c).1,
      { d with deviceOpen := (net.enablePartial device c).2.pci.opened }) := by
  rw [enablePartial_stages]
  unfold NetDriver.enablePartial calls
  by_cases granted : (opening device c).1
  · by_cases reset : (resetting device c).1
    · by_cases requested : (net.requesting device c).1
      · by_cases setup : (net.settingUp device c).1 = .success
        · by_cases populated : c.populateReceiveBuffers
          · simp [granted,reset,requested,setup,populated,startDevice_opened,settingUp_opened]
          · simp [granted,reset,requested,setup,populated,failAndClose,close_opened,NetDriver.close]
        · simp [granted,reset,requested,setup,failAndClose,close_opened,NetDriver.close]
      · simp [granted,reset,requested,failAndClose,close_opened,NetDriver.close]
    · simp [granted,reset,close_opened,NetDriver.close]
  · have refused : (opening device c).2 = device :=
      handleOpen_refused (Bool.eq_false_iff.mpr granted)
    simp [granted,refused,← same]

end PJVirtioNet

open PJVirtioNet VirtioDevice

variable {net : PJVirtioNet} {device : VirtioDevice} {d : NetDriver}

theorem Reflects.enableDebugger (reflects : Reflects net device d) (c : BringUp) :
    Reflects (net.gatedEnableDebugger device c).1 (net.gatedEnableDebugger device c).2
      (d.gatedEnableDebugger (net.calls device c)).2 := by
  have ⟨state,opened,debugger⟩ := reflects
  have absent : (!d.debugger || !d.debuggerTransmitPacket) = !net.debugger := by
    rw [← debugger,Bool.not_and]
  unfold gatedEnableDebugger NetDriver.gatedEnableDebugger
  rw [absent]
  by_cases attached : net.debugger
  · rw [if_pos attached,if_neg (by simp [attached])]
    cases position : net.driverState with
    | started =>
      rw [position] at state
      simp only [state,DriverState.seen,enablePartial_reflected net device c opened]
      cases (net.enablePartial device c).1 with
      | false => exact ⟨rfl,rfl,debugger⟩
      | true => exact ⟨rfl,rfl,debugger⟩
    | enabled =>
      rw [position] at state
      simp only [state,DriverState.seen]
      exact ⟨rfl,opened,debugger⟩
    | _ =>
      rw [position] at state
      simp only [state,DriverState.seen]
      exact reflects
  · rw [if_neg attached,if_pos (by simp [attached])]
    exact reflects

def passedInterface (d : NetDriver) (c : BringUp) : Nat :=
  if c.sameInterface then d.interface else d.interface + 1

theorem Reflects.enableQueues {d : NetDriver} (net : PJVirtioNet) (device : VirtioDevice) (c : BringUp)
    (calls : NetCalls) (hasDebugger : Bool) (opened : d.deviceOpen = device.pci.opened)
    (debugger : (d.debugger && d.debuggerTransmitPacket) = net.debugger)
    (table : calls.createMediumTable = c.createMediumTable)
    (output : calls.outputQueue = c.outputQueue) :
    Reflects (net.enableQueues hasDebugger device c).1 (net.enableQueues hasDebugger device c).2
      (d.enableOutput hasDebugger calls).2 := by
  simp only [PJVirtioNet.enableQueues,NetDriver.enableOutput,table,output]
  cases c.createMediumTable with
  | false => exact ⟨rfl,opened,debugger⟩
  | true =>
    cases c.outputQueue with
    | false => exact ⟨rfl,opened,debugger⟩
    | true =>
      have read : (readStatus net.featureStatusField device).pci.opened = device.pci.opened :=
        (readStatus_onlyAccesses _ device).1.1.opened
      cases hasDebugger with
      | false => exact ⟨rfl,opened.trans read.symm,debugger⟩
      | true => exact ⟨rfl,opened.trans read.symm,debugger⟩

theorem Reflects.enableInterface (reflects : Reflects net device d) (c : BringUp) :
    Reflects (net.gatedEnableInterface device c).1 (net.gatedEnableInterface device c).2
      (d.gatedEnableInterface (passedInterface d c) (net.calls device c)).2 := by
  have ⟨state,opened,debugger⟩ := reflects
  unfold gatedEnableInterface NetDriver.gatedEnableInterface
  cases position : net.driverState with
  | started =>
    rw [position] at state
    have brought := enablePartial_reflected net device c
      (show NetDriver.deviceOpen { d with driverState := .enableFailed } = _ from opened)
    by_cases same : c.sameInterface
    · have own : passedInterface d c = d.interface := if_pos same
      simp only [same,↓reduceIte,state,DriverState.seen,reduceCtorEq,or_self,ne_eq,
        not_true_eq_false,not_false_eq_true,and_true,own,decide_false,Bool.false_eq_true,brought]
      cases (net.enablePartial device c).1 with
      | false => exact ⟨rfl,rfl,debugger⟩
      | true => exact .enableQueues net _ c (net.calls device c) false rfl debugger rfl rfl
    · have other : passedInterface d c ≠ d.interface := by simp [passedInterface,same]
      simp only [same,Bool.false_eq_true,↓reduceIte,state,DriverState.seen,reduceCtorEq,or_self,
        ne_eq,not_true_eq_false,not_false_eq_true,and_true,decide_false,other]
      exact ⟨rfl,opened,debugger⟩
  | enabledDebugging =>
    rw [position] at state
    by_cases same : c.sameInterface
    · have own : passedInterface d c = d.interface := if_pos same
      simp only [same,↓reduceIte,state,DriverState.seen,reduceCtorEq,or_self,ne_eq,
        not_false_eq_true,not_true_eq_false,and_false,own,decide_true]
      exact .enableQueues net device c (net.calls device c) true opened debugger rfl rfl
    · have other : passedInterface d c ≠ d.interface := by simp [passedInterface,same]
      simp only [same,Bool.false_eq_true,↓reduceIte,state,DriverState.seen,reduceCtorEq,or_self,
        ne_eq,not_false_eq_true,not_true_eq_false,and_false,decide_true,other]
      exact reflects
  | _ =>
    rw [position] at state
    simp only [state,DriverState.seen]
    exact reflects

theorem Reflects.closed (reflects : Reflects net device d) :
    Reflects (net.disablePartial device).1 (net.disablePartial device).2 d.disablePartial :=
  ⟨rfl,rfl,reflects.debugger⟩

theorem Reflects.disableDebugger (reflects : Reflects net device d) :
    Reflects (net.disableDebugger device).1 (net.disableDebugger device).2 d.disableDebugger.2 := by
  have ⟨state,opened,debugger⟩ := reflects
  unfold PJVirtioNet.disableDebugger NetDriver.disableDebugger
  cases position : net.driverState with
  | enabledDebugging =>
    rw [position] at state
    simp only [state,DriverState.seen]
    exact reflects.closed
  | enabledBoth =>
    rw [position] at state
    simp only [state,DriverState.seen]
    exact ⟨rfl,opened,debugger⟩
  | _ =>
    rw [position] at state
    simp only [state,DriverState.seen]
    exact reflects

theorem Reflects.disableInterface (reflects : Reflects net device d) :
    Reflects (net.disableInterface device).1 (net.disableInterface device).2
      d.disableInterface.2 := by
  have ⟨state,opened,debugger⟩ := reflects
  unfold PJVirtioNet.disableInterface NetDriver.disableInterface
  cases position : net.driverState with
  | enabled =>
    rw [position] at state
    simp only [state,DriverState.seen]
    exact reflects.closed
  | enabledBoth =>
    rw [position] at state
    simp only [state,DriverState.seen]
    exact ⟨rfl,opened,debugger⟩
  | _ =>
    rw [position] at state
    simp only [state,DriverState.seen]
    exact reflects

theorem start_cases {c : BringUp} (started : (PJVirtioNet.start device c).1 = some net) :
    ((opening device c).1 = true ∧ c.workLoop = true ∧ c.outputQueue = true ∧
      c.attachInterface = true) ∧
    net.driverState = .started ∧ net.debugger = c.debugger ∧
      (PJVirtioNet.start device c).2.pci.opened = false := by
  by_cases granted : (device.handleOpen c.iomap).1
  · by_cases loop : c.workLoop
    · by_cases attached : (c.outputQueue && c.attachInterface) = true
      · simp only [PJVirtioNet.start,granted,loop,attached,if_true] at started ⊢
        obtain rfl := Option.some.inj started
        rw [Bool.and_eq_true] at attached
        exact ⟨⟨granted,trivial,attached⟩,rfl,rfl,close_opened _⟩
      · simp [PJVirtioNet.start,granted,loop,attached] at started
    · simp [PJVirtioNet.start,granted,loop] at started
  · simp [PJVirtioNet.start,granted] at started

theorem reflects_start {c : BringUp} (started : (PJVirtioNet.start device c).1 = some net) :
    Reflects net (PJVirtioNet.start device c).2 (NetDriver.init.start (net.calls device c)).2 := by
  obtain ⟨⟨granted,loop,output,attached⟩,state,debugger,closed⟩ := start_cases started
  have begun : (NetDriver.init.start (net.calls device c)).2 =
      ⟨.started, 1, c.debugger, c.debugger, false⟩ := by
    simp [NetDriver.start,NetDriver.init,NetDriver.startWithIOEnabled,NetDriver.close,calls,granted,
      loop,output,attached]
  rw [begun]
  exact ⟨by rw [state]; rfl,closed.symm,by rw [debugger]; exact Bool.and_self _⟩

/-- A network driver among the clients is in a state that its calls have brought about. -/
def Reflected (s : ClientSystem) : Prop :=
  ∀ net, s.client = some (.net net) →
    ∃ calls d, Run netStep (fun _ _ => True) .init calls d ∧ Reflects net s.device d

theorem Reflected.call (run : Run netStep (fun _ _ => True) .init made d) (call : NetCall)
    (reflects : Reflects net device (d.after call)) : Reflected ⟨device, some (.net net)⟩ := by
  rintro _ ⟨⟩
  exact ⟨made ++ [call],d.after call,run.snoc trivial rfl,reflects⟩

/-- Accesses to the device are nothing that the driver's state knows of. -/
theorem Reflected.accesses (reflected : Reflected ⟨device, client⟩)
    (same : device'.pci.opened = device.pci.opened) : Reflected ⟨device', client⟩ := by
  intro net attached
  obtain ⟨made,d,run,reflects⟩ := reflected net attached
  exact ⟨made,d,run,reflects.state,reflects.opened.trans same.symm,reflects.debugger⟩

theorem Reflected.other (different : ∀ net, client ≠ some (.net net)) :
    Reflected ⟨device, client⟩ :=
  fun net attached => absurd attached (different net)

/-- What the device does to a driver is not a call of its. -/
theorem Reflected.serviced (reflected : Reflected ⟨device, some client⟩)
    (service : a = .interruptFilter ∨ a = .configChange ∨ ∃ queueIndex, a = .notify queueIndex)
    (taken : clientStep a ⟨device, some client⟩ = some s') : Reflected s' := by
  rcases service with rfl | rfl | ⟨queueIndex,rfl⟩
  · simp only [clientStep] at taken
    split at taken
    · obtain rfl := Option.some.inj taken
      exact reflected.accesses rfl
    · cases taken
  · simp only [clientStep] at taken
    split at taken
    · obtain rfl := Option.some.inj taken
      exact reflected.accesses (ClientSystem.configChanged_onlyAccesses device client).1.1.opened
    · cases taken
  · simp only [clientStep] at taken
    split at taken
    · obtain rfl := Option.some.inj taken
      exact reflected.accesses rfl
    · cases taken

theorem Reflected.attaches (taken : clientStep a ⟨device, none⟩ = some s') : Reflected s' := by
  cases a with
  | startNet c =>
    obtain rfl := Option.some.inj taken
    intro net attached
    obtain ⟨driver,started,same⟩ := Option.map_eq_some_iff.mp attached
    obtain rfl := Client.net.inj same
    exact ⟨[.start (driver.calls device c)],_,.cons trivial rfl .nil,reflects_start started⟩
  | startBlock c =>
    obtain rfl := Option.some.inj taken
    refine .other fun net => ?_
    split <;> simp
  | startBalloon c =>
    obtain rfl := Option.some.inj taken
    refine .other fun net => ?_
    split <;> simp
  | interruptFilter =>
    simp only [clientStep] at taken
    split at taken
    · obtain rfl := Option.some.inj taken
      exact .other fun net => by simp
    · cases taken
  | _ => cases taken

theorem Reflected.keeps (taken : clientStep a s = some s') (reflected : Reflected s) :
    Reflected s' := by
  obtain ⟨device,client⟩ := s
  cases client with
  | none => exact .attaches taken
  | some client =>
    by_cases service : a = .interruptFilter ∨ a = .configChange ∨ ∃ queueIndex, a = .notify queueIndex
    · exact reflected.serviced service taken
    cases client with
    | net net =>
      obtain ⟨made,d,run,reflects⟩ := reflected net rfl
      cases a with
      | enableInterface c =>
        obtain rfl := Option.some.inj taken
        exact .call run (.enableInterface (passedInterface d c) (net.calls device c))
          (reflects.enableInterface c)
      | enableDebugger c =>
        obtain rfl := Option.some.inj taken
        exact .call run (.enableDebugger (net.calls device c)) (reflects.enableDebugger c)
      | disableInterface =>
        obtain rfl := Option.some.inj taken
        exact .call run .disableInterface reflects.disableInterface
      | disableDebugger =>
        obtain rfl := Option.some.inj taken
        exact .call run .disableDebugger reflects.disableDebugger
      | stop =>
        obtain rfl := Option.some.inj taken
        exact .other fun net => by simp
      | interruptFilter => exact absurd (.inl rfl) service
      | configChange => exact absurd (.inr (.inl rfl)) service
      | notify queueIndex => exact absurd (.inr (.inr ⟨queueIndex,rfl⟩)) service
      | _ => cases taken
    | _ =>
      cases a with
      | endDeviceOperation =>
        obtain rfl := Option.some.inj taken
        exact .other fun net => by simp
      | interruptFilter => exact absurd (.inl rfl) service
      | configChange => exact absurd (.inr (.inl rfl)) service
      | notify queueIndex => exact absurd (.inr (.inr ⟨queueIndex,rfl⟩)) service
      | _ => cases taken

/-- Whatever happens to a device and its clients, a network driver among them is where its own
calls have brought it, and holds the device open exactly if that view says so. -/
theorem net_driver_reflected (run : Run clientStep allowed ⟨device, none⟩ actions s) : Reflected s :=
  Run.keeps Reflected (fun _ taken reflected => reflected.keeps taken) run
    (.other fun net => by simp)

end VirtioOsx
