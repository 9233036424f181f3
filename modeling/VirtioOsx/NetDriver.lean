import VirtioOsx.Lib.Runs
import VirtioOsx.Virtqueue

/-! The state that the network driver keeps of itself, and whether it holds its device open.
The calls of the driver that can fail come in with their results; what the driver writes to
the device is not part of this. -/
namespace VirtioOsx

open Runs

inductive NetDriverState where
  | startFailed
  | startFailedUnsupportedDevice
  | startFailedOutOfMemory
  | enableFailed
  | enableFailedOutOfMemory
  | initial
  | started
  | enabled
  | enabledDebugging
  | enabledBoth
  | stopped
  deriving DecidableEq, Repr

namespace IOReturn

def error : IOReturn := .other 0xe00002bc

def invalid : IOReturn := .other 0xe0000001

end IOReturn

/-- What the calls inside the driver's functions return. `attachInterface` gives the
interface it has created. -/
structure NetCalls where
  superStart : Bool
  virtioProvider : Bool
  openDevice : Bool
  workLoop : Bool
  outputQueue : Bool
  attachInterface : Option Nat
  transmitPacket : Bool
  attachDebuggerClient : Bool
  resetDevice : Bool
  requestFeatures : Bool
  setupVirtqueues : IOReturn
  populateReceiveBuffers : Bool
  createMediumTable : Bool
  deriving DecidableEq, Repr

/-- `deviceOpen` says whether the driver is the client that holds the device open, and an
`interface` of 0 is a null pointer. -/
structure NetDriver where
  driverState : NetDriverState
  interface : Nat
  debugger : Bool
  debuggerTransmitPacket : Bool
  deviceOpen : Bool
  deriving DecidableEq, Repr

namespace NetDriver

def init : NetDriver := ⟨.initial, 0, false, false, false⟩

def close (d : NetDriver) : NetDriver := { d with deviceOpen := false }

/-- The features and the link status are found out before the device is closed again. -/
def startWithIOEnabled (d : NetDriver) (c : NetCalls) : Bool × NetDriver :=
  let d := d.close
  if c.outputQueue then
    match c.attachInterface with
    | none => (false, { d with interface := 0 })
    | some interface =>
      let packet := d.debuggerTransmitPacket || c.transmitPacket
      (true, { d with
        interface := interface
        driverState := .started
        debuggerTransmitPacket := packet
        debugger := d.debugger || packet && c.attachDebuggerClient })
  else (false, d)

/-- Without a work loop `start` returns with the device open. -/
def start (d : NetDriver) (c : NetCalls) : Bool × NetDriver :=
  if d.driverState ≠ .initial ∧ d.driverState ≠ .stopped then (false, d)
  else
    let failed := { d with driverState := .startFailed }
    if !c.superStart then (false, failed)
    else if !c.virtioProvider then (false, { d with driverState := .startFailedUnsupportedDevice })
    else if !c.openDevice then (false, failed)
    else
      let opened := { failed with deviceOpen := true }
      if !c.workLoop then (false, opened) else opened.startWithIOEnabled c

def enablePartial (d : NetDriver) (c : NetCalls) : Bool × NetDriver :=
  if !c.openDevice then (false, d)
  else
    let d := { d with deviceOpen := true }
    if !c.resetDevice then (false, d.close)
    else if !c.requestFeatures then (false, d.close)
    else if c.setupVirtqueues ≠ .success then (false, d.close)
    else if !c.populateReceiveBuffers then (false, d.close)
    else (true, d)

def gatedEnableDebugger (d : NetDriver) (c : NetCalls) : IOReturn × NetDriver :=
  if !d.debugger || !d.debuggerTransmitPacket then (.error, d)
  else if d.driverState = .enabled then (.success, { d with driverState := .enabledBoth })
  else if d.driverState = .enabledBoth ∨ d.driverState = .enabledDebugging then (.success, d)
  else if d.driverState ≠ .started then (.invalid, d)
  else
    let (ok, d) := d.enablePartial c
    if ok then (.success, { d with driverState := .enabledDebugging })
    else (.error, { d with driverState := .enableFailed })

/-- What follows once the device is up. Its failures leave the device open. -/
def enableOutput (d : NetDriver) (hasDebugger : Bool) (c : NetCalls) : IOReturn × NetDriver :=
  let d := { d with driverState := .enableFailed }
  if !c.createMediumTable then (.noMemory, d)
  else if !c.outputQueue then (.error, d)
  else (.success, { d with driverState := if hasDebugger then .enabledBoth else .enabled })

/-- The state is set to a failure before the interface is compared. -/
def gatedEnableInterface (d : NetDriver) (interface : Nat) (c : NetCalls) : IOReturn × NetDriver :=
  if d.driverState = .enabledBoth ∨ d.driverState = .enabled then (.success, d)
  else if d.driverState ≠ .started ∧ d.driverState ≠ .enabledDebugging then (.invalid, d)
  else
    let hasDebugger : Bool := d.driverState = .enabledDebugging
    let d := if hasDebugger then d else { d with driverState := .enableFailed }
    if interface ≠ d.interface then (.badArgument, d)
    else if hasDebugger then d.enableOutput hasDebugger c
    else
      let (ok, d) := d.enablePartial c
      if ok then d.enableOutput hasDebugger c else (.error, { d with driverState := .enableFailed })

def disablePartial (d : NetDriver) : NetDriver := { d.close with driverState := .started }

def disableDebugger (d : NetDriver) : IOReturn × NetDriver :=
  if d.driverState = .enabledDebugging then (.success, d.disablePartial)
  else if d.driverState = .enabledBoth then (.success, { d with driverState := .enabled })
  else (.invalid, d)

def disableInterface (d : NetDriver) : IOReturn × NetDriver :=
  if d.driverState = .enabledBoth then (.success, { d with driverState := .enabledDebugging })
  else if d.driverState = .enabled then (.success, d.disablePartial)
  else (.invalid, d)

end NetDriver

inductive NetCall where
  | start (c : NetCalls)
  | enableDebugger (c : NetCalls)
  | enableInterface (interface : Nat) (c : NetCalls)
  | disableDebugger
  | disableInterface
  deriving DecidableEq, Repr

def NetDriver.after (d : NetDriver) : NetCall → NetDriver
  | .start c => (d.start c).2
  | .enableDebugger c => (d.gatedEnableDebugger c).2
  | .enableInterface interface c => (d.gatedEnableInterface interface c).2
  | .disableDebugger => d.disableDebugger.2
  | .disableInterface => d.disableInterface.2

def netStep (call : NetCall) (d : NetDriver) : Option NetDriver := some (d.after call)

namespace NetDriverState

def serving : NetDriverState → Bool
  | .enabled | .enabledDebugging | .enabledBoth => true
  | _ => false

end NetDriverState

def NetCalls.enablesPartially (c : NetCalls) : Bool :=
  c.openDevice && c.resetDevice && c.requestFeatures && c.setupVirtqueues == .success &&
    c.populateReceiveBuffers

namespace NetDriver

/-- The driver holds the device open exactly in the states in which it serves a client. -/
def OpenAgrees (d : NetDriver) : Prop := d.deviceOpen = d.driverState.serving

def RejectionKeepsState (d : NetDriver) (call : NetCall) : Prop :=
  ∀ interface c, call = .enableInterface interface c →
    (d.gatedEnableInterface interface c).1 = .badArgument →
      (d.gatedEnableInterface interface c).2.driverState = d.driverState

/-- A `start` that opens the device finds a work loop; a driver that is only started is
enabled with its own interface; and once the device is up for it, the medium table and the
output queue are there. -/
def Completes (d : NetDriver) : NetCall → Prop
  | .start c =>
    d.driverState = .initial ∨ d.driverState = .stopped →
      c.superStart ∧ c.virtioProvider ∧ c.openDevice → c.workLoop
  | .enableInterface interface c =>
    (d.driverState = .started → interface = d.interface) ∧
    (interface = d.interface →
      d.driverState = .enabledDebugging ∨ d.driverState = .started ∧ c.enablesPartially →
        c.createMediumTable ∧ c.outputQueue)
  | _ => True

/-- A device that has been closed, or could not be opened, is as it was before. -/
theorem enablePartial_eq (d : NetDriver) (c : NetCalls) (shut : d.deviceOpen = false) :
    d.enablePartial c =
      if c.enablesPartially then (true, { d with deviceOpen := true }) else (false, d) := by
  have closed : close { d with deviceOpen := true } = d := by
    rw [close,← shut]
  unfold enablePartial NetCalls.enablesPartially
  by_cases opened : c.openDevice
  · by_cases reset : c.resetDevice
    · by_cases requested : c.requestFeatures
      · by_cases setup : c.setupVirtqueues = .success
        · by_cases populated : c.populateReceiveBuffers
          · simp [opened,reset,requested,setup,populated]
          · simp [opened,reset,requested,setup,populated,closed]
        · simp [opened,reset,requested,setup,closed]
      · simp [opened,reset,requested,closed]
    · simp [opened,reset,closed]
  · simp [opened]

theorem startWithIOEnabled_agrees (d : NetDriver) (c : NetCalls) (state : d.driverState = .startFailed) :
    OpenAgrees (d.startWithIOEnabled c).2 := by
  unfold startWithIOEnabled
  by_cases output : c.outputQueue
  · simp only [output,if_true]
    cases c.attachInterface with
    | none => simp [OpenAgrees,close,state,NetDriverState.serving]
    | some interface => rfl
  · simp [output,OpenAgrees,close,state,NetDriverState.serving]

theorem start_agrees {d : NetDriver} (agrees : OpenAgrees d) (c : NetCalls) :
    OpenAgrees (d.start c).2 ↔ d.Completes (.start c) := by
  unfold start Completes
  by_cases fresh : d.driverState = .initial ∨ d.driverState = .stopped
  · have ready : ¬(d.driverState ≠ .initial ∧ d.driverState ≠ .stopped) := by
      rcases fresh with same | same <;> simp [same]
    have shut : d.deviceOpen = false := by
      rw [agrees]
      rcases fresh with same | same <;> rw [same] <;> rfl
    rw [if_neg ready]
    by_cases provided : c.superStart ∧ c.virtioProvider ∧ c.openDevice
    · by_cases loop : c.workLoop
      · simp [fresh,provided,loop,startWithIOEnabled_agrees]
      · simp [fresh,provided,loop,OpenAgrees,NetDriverState.serving]
    · have kept : OpenAgrees { d with driverState := .startFailed } := shut
      have other : OpenAgrees { d with driverState := .startFailedUnsupportedDevice } := shut
      simp only [provided,false_implies,implies_true,iff_true]
      by_cases begun : c.superStart
      · by_cases typed : c.virtioProvider
        · have closed : c.openDevice = false := by simpa [begun,typed] using provided
          simpa [begun,typed,closed] using kept
        · simpa [begun,typed] using other
      · simpa [begun] using kept
  · have settled : d.driverState ≠ .initial ∧ d.driverState ≠ .stopped := not_or.mp fresh
    rw [if_pos settled]
    simpa [fresh] using agrees

theorem gatedEnableDebugger_agrees {d : NetDriver} (agrees : OpenAgrees d) (c : NetCalls) :
    OpenAgrees (d.gatedEnableDebugger c).2 := by
  unfold gatedEnableDebugger
  split
  · exact agrees
  split
  · rename_i enabled
    exact agrees.trans (by rw [enabled]; rfl)
  split
  · exact agrees
  split
  · exact agrees
  · rename_i started
    have started : d.driverState = .started := not_not.mp started
    have shut : d.deviceOpen = false := agrees.trans (by rw [started]; rfl)
    rw [enablePartial_eq d c shut]
    by_cases partially : c.enablesPartially
    · simp [partially,OpenAgrees,NetDriverState.serving]
    · simp [partially,OpenAgrees,NetDriverState.serving,shut]

theorem disableDebugger_agrees {d : NetDriver} (agrees : OpenAgrees d) :
    OpenAgrees d.disableDebugger.2 := by
  unfold disableDebugger
  split
  · rfl
  split
  · rename_i both
    exact agrees.trans (by rw [both]; rfl)
  · exact agrees

theorem disableInterface_agrees {d : NetDriver} (agrees : OpenAgrees d) :
    OpenAgrees d.disableInterface.2 := by
  unfold disableInterface
  split
  · rename_i both
    exact agrees.trans (by rw [both]; rfl)
  split
  · rfl
  · exact agrees

/-- With the device up, only a driver that gets through to its end is in order. -/
theorem enableOutput_agrees {d : NetDriver} (up : d.deviceOpen = true) (hasDebugger : Bool)
    (c : NetCalls) :
    OpenAgrees (d.enableOutput hasDebugger c).2 ↔ c.createMediumTable ∧ c.outputQueue := by
  unfold enableOutput
  by_cases table : c.createMediumTable
  · by_cases output : c.outputQueue
    · cases hasDebugger <;> simp [table,output,OpenAgrees,NetDriverState.serving,up]
    · simp [table,output,OpenAgrees,NetDriverState.serving,up]
  · simp [table,OpenAgrees,NetDriverState.serving,up]

theorem enableOutput_accepted (d : NetDriver) (hasDebugger : Bool) (c : NetCalls) :
    (d.enableOutput hasDebugger c).1 ≠ .badArgument := by
  unfold enableOutput
  split
  · simp
  split
  · simp [IOReturn.error]
  · simp

/-- In a driver that is only started, the state is gone as soon as the interface is wrong. -/
theorem gatedEnableInterface_started {d : NetDriver} (started : d.driverState = .started)
    (shut : d.deviceOpen = false) (interface : Nat) (c : NetCalls) :
    d.gatedEnableInterface interface c =
      if interface ≠ d.interface then (.badArgument, { d with driverState := .enableFailed })
      else if c.enablesPartially then enableOutput { d with deviceOpen := true } false c
      else (.error, { d with driverState := .enableFailed }) := by
  obtain ⟨_,own,debugger,packet,_⟩ := d
  subst started shut
  have partially := enablePartial_eq ⟨.enableFailed, own, debugger, packet, false⟩ c rfl
  by_cases same : interface = own
  · by_cases enabled : c.enablesPartially
    · simp [gatedEnableInterface,same,partially,enabled,enableOutput]
    · simp [gatedEnableInterface,same,partially,enabled]
  · simp [gatedEnableInterface,same]

theorem gatedEnableInterface_debugging {d : NetDriver} (debugging : d.driverState = .enabledDebugging)
    (interface : Nat) (c : NetCalls) :
    d.gatedEnableInterface interface c =
      if interface ≠ d.interface then (.badArgument, d) else d.enableOutput true c := by
  unfold gatedEnableInterface
  simp [debugging]

theorem gatedEnableInterface_agrees {d : NetDriver} (agrees : OpenAgrees d) (interface : Nat)
    (c : NetCalls) :
    OpenAgrees (d.gatedEnableInterface interface c).2 ∧
      ((d.gatedEnableInterface interface c).1 = .badArgument →
        (d.gatedEnableInterface interface c).2.driverState = d.driverState) ↔
    d.Completes (.enableInterface interface c) := by
  unfold Completes
  by_cases started : d.driverState = .started
  · have shut : d.deviceOpen = false := agrees.trans (by rw [started]; rfl)
    rw [gatedEnableInterface_started started shut]
    by_cases own : interface = d.interface
    · by_cases partially : c.enablesPartially
      · have up : NetDriver.deviceOpen { d with deviceOpen := true } = true := rfl
        have output := enableOutput_agrees up false c
        have accepted := enableOutput_accepted { d with deviceOpen := true } false c
        rw [if_neg (not_not.mpr own),if_pos partially,output]
        simp only [accepted,false_implies,and_true]
        simp [own,partially,started]
      · simp [own,partially,started,OpenAgrees,NetDriverState.serving,shut,IOReturn.error]
    · simp [own,started]
  by_cases debugging : d.driverState = .enabledDebugging
  · have up : d.deviceOpen = true := agrees.trans (by rw [debugging]; rfl)
    rw [gatedEnableInterface_debugging debugging]
    by_cases own : interface = d.interface
    · have output := enableOutput_agrees up true c
      have accepted := enableOutput_accepted d true c
      simp [own,debugging,output,accepted]
    · simp [own,debugging,agrees]
  · have unchanged : (d.gatedEnableInterface interface c).2 = d := by
      unfold gatedEnableInterface
      simp only [ne_eq,started,debugging,not_false_eq_true,and_self,if_true]
      split <;> rfl
    simp [unchanged,agrees,started,debugging]

theorem after_agrees {d : NetDriver} (agrees : OpenAgrees d) (call : NetCall) :
    OpenAgrees (d.after call) ∧ d.RejectionKeepsState call ↔ d.Completes call := by
  cases call with
  | start c => simpa [after,RejectionKeepsState] using start_agrees agrees c
  | enableDebugger c =>
    simpa [after,RejectionKeepsState,Completes] using gatedEnableDebugger_agrees agrees c
  | enableInterface interface c =>
    simpa [after,RejectionKeepsState] using gatedEnableInterface_agrees agrees interface c
  | disableDebugger =>
    simpa [after,RejectionKeepsState,Completes] using disableDebugger_agrees agrees
  | disableInterface =>
    simpa [after,RejectionKeepsState,Completes] using disableInterface_agrees agrees

end NetDriver

open NetDriver

/-- Along every run of calls that complete, the driver's state tells whether it holds the
device open; and a call keeps that up, and an interface that is turned down without effect,
exactly if it completes. -/
theorem net_state_agrees (run : Run netStep Completes .init calls d) :
    OpenAgrees d ∧
    ∀ call, OpenAgrees (d.after call) ∧ d.RejectionKeepsState call ↔ d.Completes call := by
  have agrees : OpenAgrees d := by
    refine Run.keeps OpenAgrees (fun completes taken agrees => ?_) run rfl
    obtain rfl := Option.some.inj taken
    exact ((after_agrees agrees _).mpr completes).1
  exact ⟨agrees,after_agrees agrees⟩

def netSuccess : NetCalls :=
  ⟨true, true, true, true, true, some 7, true, true, true, true, .success, true, true⟩

instance (d : NetDriver) : (call : NetCall) → Decidable (d.Completes call)
  | .start _ => inferInstanceAs (Decidable (_ → _ → _))
  | .enableInterface _ _ => inferInstanceAs (Decidable (_ ∧ (_ → _ → _)))
  | .enableDebugger _ | .disableDebugger | .disableInterface => isTrue trivial

/-- The debugger comes first, a foreign interface is turned down, and the driver's own joins
and outlives the debugger. -/
theorem net_state_agrees_both :
    ∃ d, Run netStep Completes .init
        [.start netSuccess, .enableDebugger netSuccess, .enableInterface 3 netSuccess,
          .enableInterface 7 netSuccess, .disableDebugger] d ∧
      d.driverState = .enabled ∧ d.deviceOpen = true ∧ OpenAgrees d := by
  have played : play netStep (fun d call => decide (d.Completes call))
      [.start netSuccess, .enableDebugger netSuccess, .enableInterface 3 netSuccess,
        .enableInterface 7 netSuccess, .disableDebugger] .init =
      some ⟨.enabled, 7, true, true, true⟩ := by decide
  have run := run_of_play (fun d call => of_decide_eq_true) played
  exact ⟨_,run,rfl,rfl,(net_state_agrees run).1⟩

/-- A medium table that cannot be made leaves the device open, and a driver that was started
does not survive an interface that is not its own. -/
theorem net_state_disagrees :
    (∃ d, Run netStep (fun _ _ => True) .init
        [.start netSuccess, .enableInterface 7 { netSuccess with createMediumTable := false }] d ∧
      d.driverState = .enableFailed ∧ d.deviceOpen = true ∧ ¬OpenAgrees d) ∧
    ∃ d, Run netStep (fun _ _ => True) .init [.start netSuccess] d ∧
      d.driverState = .started ∧
      (d.gatedEnableInterface 3 netSuccess).1 = .badArgument ∧
      (d.gatedEnableInterface 3 netSuccess).2.driverState = .enableFailed := by
  refine ⟨⟨_,.cons trivial rfl (.cons trivial rfl .nil),rfl,rfl,?_⟩,
    _,.cons trivial rfl .nil,rfl,rfl,rfl⟩
  intro agrees
  cases agrees

end VirtioOsx
