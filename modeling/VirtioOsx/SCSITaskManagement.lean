import VirtioOsx.PublicationRuns
import VirtioOsx.QueueCapacity
import VirtioOsx.SCSIController

/-! The task management functions of the SCSI controller, on top of its control queue. There
are as many control buffers of each kind as the queue has entries, and the controller does
not look whether it got one. -/
namespace VirtioOsx

open Runs
open Pool

/-- The requests of the family. A call that completes one has the same arguments, and the
response. -/
inductive ManagementRequest where
  | abortTask (theT theL theQ : Nat)
  | abortTaskSet (theT theL : Nat)
  | clearACA (theT theL : Nat)
  | clearTaskSet (theT theL : Nat)
  | targetReset (theT : Nat)
  | logicalUnitReset (theT theL : Nat)
  deriving DecidableEq, Repr

structure ManagementArgs where
  theT : Nat
  theL : Nat
  theQ : Nat
  processTaskCommand : Nat
  deriving DecidableEq, Repr

namespace ManagementArgs

def tmfAbortTask : Nat := 0
def tmfAbortTaskSet : Nat := 1
def tmfClearACA : Nat := 2
def tmfClearTaskSet : Nat := 3
def tmfITNexusReset : Nat := 4
def tmfLogicalUnitReset : Nat := 5

end ManagementArgs

open ManagementArgs

def ManagementRequest.args : ManagementRequest → ManagementArgs
  | .abortTask theT theL theQ => ⟨theT, theL, theQ, tmfAbortTask⟩
  | .abortTaskSet theT theL => ⟨theT, theL, 0, tmfAbortTaskSet⟩
  | .clearACA theT theL => ⟨theT, theL, 0, tmfClearACA⟩
  | .clearTaskSet theT theL => ⟨theT, theL, 0, tmfClearTaskSet⟩
  | .targetReset theT => ⟨theT, 0, 0, tmfITNexusReset⟩
  | .logicalUnitReset theT theL => ⟨theT, theL, 0, tmfLogicalUnitReset⟩

/-- The call that completes a request, by the switch over the commands. -/
def ManagementArgs.completes (args : ManagementArgs) : Option ManagementRequest :=
  if args.processTaskCommand = tmfAbortTask then some (.abortTask args.theT args.theL args.theQ)
  else if args.processTaskCommand = tmfAbortTaskSet then some (.abortTaskSet args.theT args.theL)
  else if args.processTaskCommand = tmfClearACA then some (.clearACA args.theT args.theL)
  else if args.processTaskCommand = tmfClearTaskSet then some (.clearTaskSet args.theT args.theL)
  else if args.processTaskCommand = tmfITNexusReset then some (.targetReset args.theT)
  else if args.processTaskCommand = tmfLogicalUnitReset then
    some (.logicalUnitReset args.theT args.theL)
  else none

theorem ManagementRequest.completes_args (r : ManagementRequest) : r.args.completes = some r := by
  cases r <;> rfl

structure ManagementAnswer where
  request : ManagementRequest
  response : SCSIServiceResponse
  deriving DecidableEq, Repr

structure CtrlTmfDevReadable where
  type : Nat
  subtype : Nat
  lun : List Nat
  id : Nat
  deriving DecidableEq, Repr

def CtrlTmfDevReadable.size : Nat := 24
def CtrlTmfDevReadable.typeTmf : Nat := 0
def ctrlTmfDevWriteableSize : Nat := 1

/-- `virtio_scsi_management_task`, at its address. -/
structure ManagementTask where
  address : Nat
  readable : Nat
  writable : Option Nat
  args : ManagementArgs
  deriving DecidableEq, Repr

def processTaskManagementCompleted : Nat := 1
def controllerTarget : Nat := 1

def ManagementTask.completion (task : ManagementTask) : VirtioCompletion :=
  ⟨processTaskManagementCompleted, controllerTarget, task.address⟩

structure ManagementCalls where
  readableChoice : Nat
  writableChoice : Nat
  readable : DmaCalls
  writable : DmaCalls
  table : DmaCalls

def ManagementTask.submitCall (task : ManagementTask) (calls : ManagementCalls) : SubmitCall :=
  ⟨some ⟨task.readable, CtrlTmfDevReadable.size⟩,
    task.writable.map (⟨·, ctrlTmfDevWriteableSize⟩), task.completion, calls.readable, calls.writable,
    calls.table⟩

/-- The control queue and the controller's side of it: `ctrlTmf` are the contents of the
readable buffers, `tasks` the tasks that are allocated. `submitted` and `answers` record the
requests that were accepted and the calls that complete requests. -/
structure ControlSystem where
  machine : Machine
  ctrlReadablePool : List Nat
  ctrlWritablePool : List Nat
  ctrlTmf : Nat → CtrlTmfDevReadable
  tasks : List ManagementTask
  nextAddress : Nat
  submitted : List ManagementRequest
  answers : List ManagementAnswer

namespace ControlSystem

/-- The pools as `InitializeController` fills them, the buffers being created in turn. -/
def start (queue : VirtioVirtqueue) : ControlSystem where
  machine := .start queue
  ctrlReadablePool := (List.range queue.numEntries).map (2 * ·)
  ctrlWritablePool := (List.range queue.numEntries).map (2 * · + 1)
  ctrlTmf _ := ⟨0, 0, [], 0⟩
  tasks := []
  nextAddress := 0
  submitted := []
  answers := []

/-- The end of `processTaskManagementFunctionInGate`, with the buffers taken from the pools. A
task that cannot be submitted has to have both to return them. -/
def submitManagementTask (s : ControlSystem) (task : ManagementTask) (calls : ManagementCalls) :
    Option (SCSIServiceResponse × ControlSystem) :=
  (submitBuffers s.machine.queue (task.submitCall calls)).bind fun ret =>
  (s.machine.submit (task.submitCall calls)).bind fun machine =>
  if ret.result = .success then
    some (.requestInProcess, { s with machine := machine, tasks := task :: s.tasks })
  else task.writable.map fun writable =>
    (.serviceDeliveryOrTargetFailure, { s with
      machine := machine
      ctrlReadablePool := returnItemToPool task.readable s.ctrlReadablePool
      ctrlWritablePool := returnItemToPool writable s.ctrlWritablePool })

/-- There is no result if the readable buffer is null: its contents are written at once. A
writable one that is null is submitted as it is. -/
def processTaskManagementFunctionInGate (s : ControlSystem) (args : ManagementArgs)
    (calls : ManagementCalls) : Option (SCSIServiceResponse × ControlSystem) :=
  (itemFromPool calls.readableChoice s.ctrlReadablePool).bind fun (readable, readablePool) =>
  let drawn := itemFromPool calls.writableChoice s.ctrlWritablePool
  let ctrlTmf : CtrlTmfDevReadable := ⟨CtrlTmfDevReadable.typeTmf, args.processTaskCommand,
    lunBytesFromTargetLun args.theT args.theL, args.theQ⟩
  submitManagementTask { s with
      ctrlReadablePool := readablePool
      ctrlWritablePool := (drawn.map Prod.snd).getD s.ctrlWritablePool
      ctrlTmf := Function.update s.ctrlTmf readable ctrlTmf
      nextAddress := s.nextAddress + 1 }
    ⟨s.nextAddress, readable, drawn.map Prod.fst, args⟩ calls

def functionComplete : Nat := 0
def functionSucceeded : Nat := 10
def functionRejected : Nat := 11

def managementResponse (deviceReset : Bool) (response : Nat) : SCSIServiceResponse :=
  if deviceReset then .serviceDeliveryOrTargetFailure
  else if response = functionComplete ∨ response = functionSucceeded then .functionComplete
  else if response = functionRejected then .functionRejected
  else .serviceDeliveryOrTargetFailure

/-- The task that the reference of the completion points to has to be allocated, and its
response is read from the writable buffer. -/
def taskManagementFunctionCompleted (s : ControlSystem) (address : Nat) (deviceReset : Bool)
    (response : Nat) : Option ControlSystem :=
  (s.tasks.find? fun task => task.address = address).bind fun task =>
  task.writable.map fun writable => { s with
    ctrlReadablePool := returnItemToPool task.readable s.ctrlReadablePool
    ctrlWritablePool := returnItemToPool writable s.ctrlWritablePool
    answers := s.answers ++
      (task.args.completes.map (⟨·, managementResponse deviceReset response⟩)).toList
    tasks := s.tasks.erase task }

end ControlSystem

/-- `advance` is a step of the processing of completions, with the response in the buffer of the
request that it completes. -/
inductive ControlAction where
  | request (r : ManagementRequest) (calls : ManagementCalls)
  | queue (a : Action)
  | advance (response : Nat)

def controlStep (a : ControlAction) (s : ControlSystem) : Option ControlSystem :=
  match a with
  | .request r calls => (s.processTaskManagementFunctionInGate r.args calls).map
      fun (response, s) => if response = .requestInProcess then
        { s with submitted := s.submitted ++ [r] } else s
  | .queue (.submit _) => none
  | .queue .advance => none
  | .queue a => (step a s.machine).map fun machine => { s with machine := machine }
  | .advance response => s.machine.advance.bind fun machine =>
      match machine.log.drop s.machine.log.length with
      | [] => some { s with machine := machine }
      | invocation :: _ => ControlSystem.taskManagementFunctionCompleted { s with machine := machine }
          invocation.completion.ref invocation.deviceReset response

theorem inflight_submit (inv : MachineInv n lost m) (faithful : Faithful m (.submit call))
    (taken : m.submit call = some m') :
    (m'.inflight.map Request.completion).Perm
      (m.inflight.map Request.completion ++ acceptedBy m (.submit call)) := by
  have all := completions_submit inv faithful taken
  have log : m'.log = m.log := by
    obtain ⟨_,⟨_,_,_,rfl⟩ | ⟨_,_,_,rfl⟩⟩ := Machine.submit_cases taken <;> rfl
  rw [Machine.completions,Machine.completions,log,List.append_assoc] at all
  exact (List.perm_append_left_iff _).mp all

/-- A step of the processing completes one of the requests in flight, or none. -/
theorem inflight_advance (inv : MachineInv n lost m) (taken : m.advance = some m') :
    (m'.log.drop m.log.length = [] ∧
      (m'.inflight.map Request.completion).Perm (m.inflight.map Request.completion)) ∨
    ∃ invocation, m'.log.drop m.log.length = [invocation] ∧
      (m.inflight.map Request.completion).Perm
        (invocation.completion :: m'.inflight.map Request.completion) := by
  obtain ⟨quiet,call,result,busy,moved,rfl⟩ := Machine.advance_cases taken
  obtain ⟨result',progress⟩ := inv.processed quiet busy
  obtain rfl : result = result' := Option.some.inj (moved.symm.trans progress.taken)
  have log : (m.processed call result).log = m.log ++ result.invoked.toList := rfl
  have conserved := progress.conserved
  rw [Machine.completions,Machine.completions,log,List.map_append,List.append_assoc,
    List.perm_append_left_iff] at conserved
  rw [log,List.drop_left]
  cases invoked : result.invoked with
  | none =>
    rw [invoked] at conserved
    exact .inl ⟨rfl,conserved.symm⟩
  | some invocation =>
    rw [invoked] at conserved
    exact .inr ⟨invocation,rfl,conserved⟩

namespace ControlSystem

variable {s s' : ControlSystem} {machine : Machine} {readable writable : Nat}

def outstanding (s : ControlSystem) : List ManagementRequest :=
  s.tasks.filterMap fun task => task.args.completes

def writables (s : ControlSystem) : List Nat := s.tasks.filterMap ManagementTask.writable

/-- Each control buffer is in its pool or with one task, the tasks are those of the requests in
flight, and each accepted request is answered or has its task. -/
structure ControlInv (n : Nat) (s : ControlSystem) : Prop where
  machine : ∃ lost, MachineInv n lost s.machine
  paired : Paired s.machine
  inflight : (s.machine.inflight.map Request.completion).Perm
    (s.tasks.map ManagementTask.completion)
  addresses : (s.tasks.map ManagementTask.address).Nodup
  allocated : ∀ task ∈ s.tasks, task.address < s.nextAddress
  whole : ∀ task ∈ s.tasks, ∃ writable, task.writable = some writable
  known : ∀ task ∈ s.tasks, ∃ r, task.args.completes = some r
  readable : Pooled ((List.range n).map (2 * ·)) s.ctrlReadablePool
    (s.tasks.map ManagementTask.readable)
  writable : Pooled ((List.range n).map (2 * · + 1)) s.ctrlWritablePool s.writables
  answered : s.submitted.Perm (s.answers.map ManagementAnswer.request ++ s.outstanding)

def taskOf (s : ControlSystem) (args : ManagementArgs) (readable writable : Nat) : ManagementTask :=
  ⟨s.nextAddress, readable, some writable, args⟩

/-- The submission meets none of the defects of the queue: it is not one that corrupts the
unused list, nor one that reports success for a table that is not mapped as a whole. -/
def SoundRequest (s : ControlSystem) (r : ManagementRequest) (calls : ManagementCalls) : Prop :=
  ∀ readable writable,
    Faithful s.machine (.submit ((s.taskOf r.args readable writable).submitCall calls))

def Roomy (s : ControlSystem) : Prop :=
  s.machine.queue.indirectDescriptors = true → s.tasks.length < s.machine.queue.numEntries

def Manageable (s : ControlSystem) : ControlAction → Prop
  | .request r calls => s.SoundRequest r calls ∧ s.Roomy
  | _ => True

theorem length_filterMap_of_isSome {tasks : List ManagementTask} {field : ManagementTask → Option α}
    (every : ∀ task ∈ tasks, ∃ value, field task = some value) :
    (tasks.filterMap field).length = tasks.length := by
  induction tasks with
  | nil => rfl
  | cons task rest ih =>
    obtain ⟨value,held⟩ := every task List.mem_cons_self
    rw [List.filterMap_cons_some held,List.length_cons,List.length_cons,
      ih fun other member => every other (List.mem_cons_of_mem task member)]

theorem ControlInv.writables_length (inv : ControlInv n s) : s.writables.length = s.tasks.length :=
  length_filterMap_of_isSome inv.whole

/-- The pools run dry exactly when an indirect queue is full of requests. -/
theorem ControlInv.roomy_iff (inv : ControlInv n s) : s.Roomy ↔ s.tasks.length < n := by
  obtain ⟨lost,machine⟩ := inv.machine
  have count := inv.inflight.length_eq
  have positive := machine.accepted.pos
  simp only [List.length_map] at count
  rw [Roomy,machine.size]
  cases mode : s.machine.queue.indirectDescriptors with
  | true => simp
  | false =>
    have half := inv.paired.inflight_le machine mode
    simp only [Bool.false_eq_true,false_implies,true_iff]
    omega

theorem ControlInv.pools_length (inv : ControlInv n s) :
    s.ctrlReadablePool.length + s.tasks.length = n ∧
      s.ctrlWritablePool.length + s.tasks.length = n := by
  have readable := inv.readable.length
  have writable := inv.writable.length
  rw [inv.writables_length] at writable
  simp only [List.length_map,List.length_range] at readable writable
  exact ⟨readable,writable⟩

def prepared (s : ControlSystem) (args : ManagementArgs) (readable writable : Nat)
    (machine : Machine) : ControlSystem :=
  { s with
    machine := machine
    ctrlReadablePool := s.ctrlReadablePool.erase readable
    ctrlWritablePool := s.ctrlWritablePool.erase writable
    ctrlTmf := Function.update s.ctrlTmf readable ⟨CtrlTmfDevReadable.typeTmf,
      args.processTaskCommand, lunBytesFromTargetLun args.theT args.theL, args.theQ⟩
    nextAddress := s.nextAddress + 1 }

def concluded (s : ControlSystem) (args : ManagementArgs) (readable writable : Nat)
    (machine : Machine) (result : IOReturn) : SCSIServiceResponse × ControlSystem :=
  if result = .success then
    (.requestInProcess, { s.prepared args readable writable machine with
      tasks := s.taskOf args readable writable :: s.tasks })
  else
    (.serviceDeliveryOrTargetFailure, { s.prepared args readable writable machine with
      ctrlReadablePool := (s.ctrlReadablePool.erase readable).insert readable
      ctrlWritablePool := (s.ctrlWritablePool.erase writable).insert writable })

theorem submits (inv : MachineInv n lost m) (faithful : Faithful m (.submit call))
    (may : m.maySubmit = true) :
    ∃ ret m', submitBuffers m.queue call = some ret ∧ m.submit call = some m' := by
  obtain ⟨sound,covered⟩ := faithful call rfl
  obtain ⟨ret,returned,_⟩ := submitBuffers_agrees inv sound covered
  rcases submitBuffers_cases returned with ⟨head,queue,built,_⟩ | left
  · exact ⟨ret,_,returned,by rw [Machine.submit,if_pos may,built]⟩
  · exact ⟨ret,_,returned,by rw [Machine.submit,if_pos may,left]⟩

/-- With both pools filled the request is carried through. -/
theorem ControlInv.concludes (inv : ControlInv n s) (sound : s.SoundRequest r calls)
    (roomy : s.Roomy) (may : s.machine.maySubmit = true) :
    ∃ readable ∈ s.ctrlReadablePool, ∃ writable ∈ s.ctrlWritablePool, ∃ ret machine,
      submitBuffers s.machine.queue ((s.taskOf r.args readable writable).submitCall calls) =
        some ret ∧
      s.machine.submit ((s.taskOf r.args readable writable).submitCall calls) = some machine ∧
      s.processTaskManagementFunctionInGate r.args calls =
        some (s.concluded r.args readable writable machine ret.result) := by
  obtain ⟨lost,machineInv⟩ := inv.machine
  have room := inv.roomy_iff.mp roomy
  obtain ⟨readableLength,writableLength⟩ := inv.pools_length
  have draws : ∀ choice, ∀ pool : List Nat, pool.length + s.tasks.length = n →
      ∃ item, item ∈ pool ∧ itemFromPool choice pool = some (item, pool.erase item) := by
    intro choice pool filled
    cases drawn : itemFromPool choice pool with
    | none =>
      rw [draw_eq_none_iff.mp drawn,List.length_nil] at filled
      omega
    | some outcome =>
      obtain ⟨item,rest⟩ := outcome
      obtain ⟨member,rfl⟩ := draw_cases drawn
      exact ⟨item,member,rfl⟩
  obtain ⟨readable,readableMember,readableDrawn⟩ := draws calls.readableChoice _ readableLength
  obtain ⟨writable,writableMember,writableDrawn⟩ := draws calls.writableChoice _ writableLength
  obtain ⟨ret,machine,returned,submitted⟩ := submits machineInv (sound readable writable) may
  refine ⟨readable,readableMember,writable,writableMember,ret,machine,returned,submitted,?_⟩
  rw [processTaskManagementFunctionInGate,readableDrawn,writableDrawn]
  simp only [Option.bind_some,Option.map_some,Option.getD_some,submitManagementTask]
  rw [taskOf] at returned submitted
  rw [returned,submitted]
  simp only [Option.bind_some,concluded]
  split
  · rfl
  · rfl

theorem both_taskOf (s : ControlSystem) (args : ManagementArgs) (readable writable : Nat)
    (calls : ManagementCalls) :
    BothBuffers (.submit ((s.taskOf args readable writable).submitCall calls)) := by
  rintro call ⟨⟩
  rfl

theorem accepted_of_returned (returned : submitBuffers m.queue call = some ret) :
    acceptedBy m (.submit call) = if ret.result = .success then [call.completion] else [] := by
  simp only [acceptedBy,returned,Option.map_some,Option.some.injEq]

theorem ControlInv.submission (inv : ControlInv n s) (sound : s.SoundRequest r calls)
    (returned : submitBuffers s.machine.queue
      ((s.taskOf r.args readable writable).submitCall calls) = some ret)
    (submitted : s.machine.submit ((s.taskOf r.args readable writable).submitCall calls) =
      some machine) :
    (∃ lost, MachineInv n lost machine) ∧ Paired machine ∧
      (machine.inflight.map Request.completion).Perm (s.tasks.map ManagementTask.completion ++
        if ret.result = .success then [(s.taskOf r.args readable writable).completion] else []) := by
  obtain ⟨lost,machineInv⟩ := inv.machine
  have faithful := sound readable writable
  have taken : step (.submit ((s.taskOf r.args readable writable).submitCall calls)) s.machine =
      some machine := submitted
  obtain ⟨more,kept,_⟩ := machineInv.keeps taken (.inl faithful.sound)
  refine ⟨⟨_,kept⟩,?_,?_⟩
  · exact inv.paired.keeps machineInv faithful.sound (both_taskOf s r.args readable writable calls)
      taken
  · have inflight := inflight_submit machineInv faithful submitted
    rw [accepted_of_returned returned] at inflight
    exact inflight.trans (inv.inflight.append_right _)

theorem ControlInv.accepts (inv : ControlInv n s) (readableMember : readable ∈ s.ctrlReadablePool)
    (writableMember : writable ∈ s.ctrlWritablePool) (machineInv : ∃ lost, MachineInv n lost machine)
    (paired : Paired machine)
    (inflight : (machine.inflight.map Request.completion).Perm
      (s.tasks.map ManagementTask.completion ++ [(s.taskOf r.args readable writable).completion])) :
    ControlInv n { s.prepared r.args readable writable machine with
      tasks := s.taskOf r.args readable writable :: s.tasks
      submitted := s.submitted ++ [r] } where
  machine := machineInv
  paired := paired
  inflight := inflight.trans (List.perm_append_singleton _ _)
  addresses := by
    refine List.nodup_cons.mpr ⟨fun used => ?_,inv.addresses⟩
    obtain ⟨task,member,same⟩ := List.mem_map.mp used
    have before : task.address < s.nextAddress := inv.allocated task member
    have same : task.address = s.nextAddress := same
    omega
  allocated := by
    intro task member
    rcases List.mem_cons.mp member with rfl | older
    · exact Nat.lt_succ_self s.nextAddress
    · exact Nat.lt_succ_of_lt (inv.allocated task older)
  whole := by
    intro task member
    rcases List.mem_cons.mp member with rfl | older
    · exact ⟨writable,rfl⟩
    · exact inv.whole task older
  known := by
    intro task member
    rcases List.mem_cons.mp member with rfl | older
    · exact ⟨r,r.completes_args⟩
    · exact inv.known task older
  readable := inv.readable.drawn readableMember
  writable := inv.writable.drawn writableMember
  answered := by
    have added : (s.taskOf r.args readable writable :: s.tasks).filterMap
        (fun task => task.args.completes) = r :: s.outstanding :=
      List.filterMap_cons_some r.completes_args
    have longer := (inv.answered.append_right [r]).trans (List.perm_append_singleton r _)
    refine longer.trans (List.perm_middle.symm.trans (List.Perm.append_left _ ?_))
    exact List.Perm.of_eq added.symm

theorem ControlInv.refuses (inv : ControlInv n s) (readableMember : readable ∈ s.ctrlReadablePool)
    (writableMember : writable ∈ s.ctrlWritablePool) (machineInv : ∃ lost, MachineInv n lost machine)
    (paired : Paired machine)
    (inflight : (machine.inflight.map Request.completion).Perm
      (s.tasks.map ManagementTask.completion)) :
    ControlInv n { s.prepared args readable writable machine with
      ctrlReadablePool := (s.ctrlReadablePool.erase readable).insert readable
      ctrlWritablePool := (s.ctrlWritablePool.erase writable).insert writable } where
  machine := machineInv
  paired := paired
  inflight := inflight
  addresses := inv.addresses
  allocated := fun task member => Nat.lt_succ_of_lt (inv.allocated task member)
  whole := inv.whole
  known := inv.known
  readable := (inv.readable.drawn readableMember).returned
  writable := (inv.writable.drawn writableMember).returned
  answered := inv.answered

theorem maySubmit_of_processed
    (taken : s.processTaskManagementFunctionInGate args calls = some outcome) :
    s.machine.maySubmit = true := by
  obtain ⟨_,_,taken⟩ := Option.bind_eq_some_iff.mp taken
  obtain ⟨_,_,taken⟩ := Option.bind_eq_some_iff.mp taken
  obtain ⟨_,submitted,_⟩ := Option.bind_eq_some_iff.mp taken
  by_contra busy
  rw [Machine.submit,if_neg busy] at submitted
  cases submitted

theorem ControlInv.requests (inv : ControlInv n s) (sound : s.SoundRequest r calls) (roomy : s.Roomy)
    (taken : controlStep (.request r calls) s = some s') : ControlInv n s' := by
  obtain ⟨outcome,processed,rfl⟩ := Option.map_eq_some_iff.mp taken
  obtain ⟨readable,readableMember,writable,writableMember,ret,machine,returned,submitted,concludes⟩ :=
    inv.concludes sound roomy (maySubmit_of_processed processed)
  obtain rfl := Option.some.inj (processed.symm.trans concludes)
  obtain ⟨machineInv,paired,inflight⟩ := inv.submission sound returned submitted
  by_cases success : ret.result = .success
  · rw [if_pos success] at inflight
    rw [concluded,if_pos success]
    exact inv.accepts readableMember writableMember machineInv paired inflight
  · rw [if_neg success,List.append_nil] at inflight
    rw [concluded,if_neg success]
    exact inv.refuses readableMember writableMember machineInv paired inflight

theorem ControlInv.find_task (inv : ControlInv n s) (member : task ∈ s.tasks) :
    (s.tasks.find? fun other => other.address = task.address) = some task := by
  cases found : s.tasks.find? fun other => other.address = task.address with
  | none =>
    have missing := List.find?_eq_none.mp found task member
    simp at missing
  | some other =>
    have same : other.address = task.address := by simpa using List.find?_some found
    rw [List.inj_on_of_nodup_map inv.addresses (List.mem_of_find?_eq_some found) member same]

theorem ControlInv.answers_task (inv : ControlInv n s) (member : task ∈ s.tasks)
    (held : task.writable = some writable) (completes : task.args.completes = some r)
    (machine : Machine) (deviceReset : Bool) (response : Nat) :
    taskManagementFunctionCompleted { s with machine := machine } task.address deviceReset response =
      some { s with
        machine := machine
        ctrlReadablePool := s.ctrlReadablePool.insert task.readable
        ctrlWritablePool := s.ctrlWritablePool.insert writable
        answers := s.answers ++ [⟨r, managementResponse deviceReset response⟩]
        tasks := s.tasks.erase task } := by
  rw [taskManagementFunctionCompleted,inv.find_task member,Option.bind_some,held,Option.map_some,
    completes]
  rfl

/-- A task that is completed gives its buffers back and answers its request. -/
theorem ControlInv.completed (inv : ControlInv n s) (member : task ∈ s.tasks)
    (machineInv : ∃ lost, MachineInv n lost machine) (paired : Paired machine)
    (inflight : (s.machine.inflight.map Request.completion).Perm
      (task.completion :: machine.inflight.map Request.completion))
    (deviceReset : Bool) (response : Nat) :
    ∃ s', taskManagementFunctionCompleted { s with machine := machine } task.address deviceReset
      response = some s' ∧ ControlInv n s' := by
  obtain ⟨writable,held⟩ := inv.whole task member
  obtain ⟨r,completes⟩ := inv.known task member
  have split : s.tasks.Perm (task :: s.tasks.erase task) := List.perm_cons_erase member
  have kept : ∀ other ∈ s.tasks.erase task, other ∈ s.tasks :=
    fun other stays => List.mem_of_mem_erase stays
  refine ⟨_,inv.answers_task member held completes machine deviceReset response,?_⟩
  refine ⟨machineInv,paired,?_,?_,?_,?_,?_,?_,?_,?_⟩
  · have all := inflight.symm.trans (inv.inflight.trans (split.map _))
    exact (List.perm_cons _).mp all
  · have distinct := (split.map ManagementTask.address).nodup_iff.mp inv.addresses
    exact (List.nodup_cons.mp distinct).2
  · exact fun other stays => inv.allocated other (kept other stays)
  · exact fun other stays => inv.whole other (kept other stays)
  · exact fun other stays => inv.known other (kept other stays)
  · exact (inv.readable.congr (.refl _) (split.map _).symm).returned
  · have parts := split.filterMap ManagementTask.writable
    rw [List.filterMap_cons_some held] at parts
    exact (inv.writable.congr (.refl _) parts.symm).returned
  · have parts := split.filterMap fun other => other.args.completes
    simp only [List.filterMap_cons,completes] at parts
    rw [List.map_append,List.append_assoc]
    exact inv.answered.trans (parts.append_left _)

theorem ControlInv.carries (inv : ControlInv n s) (machineInv : ∃ lost, MachineInv n lost machine)
    (paired : Paired machine)
    (same : (machine.inflight.map Request.completion).Perm
      (s.machine.inflight.map Request.completion)) :
    ControlInv n { s with machine := machine } where
  machine := machineInv
  paired := paired
  inflight := same.trans inv.inflight
  addresses := inv.addresses
  allocated := inv.allocated
  whole := inv.whole
  known := inv.known
  readable := inv.readable
  writable := inv.writable
  answered := inv.answered

/-- A step of the processing of completions that finds a request answers it. -/
theorem ControlInv.advances (inv : ControlInv n s) (response : Nat)
    (moved : s.machine.advance = some machine) :
    ∃ s', controlStep (.advance response) s = some s' ∧ ControlInv n s' := by
  obtain ⟨lost,machineInv⟩ := inv.machine
  have taken : step .advance s.machine = some machine := moved
  have sound : Sound s.machine .advance := by rintro call ⟨⟩
  obtain ⟨more,kept,_⟩ := machineInv.keeps taken (.inl sound)
  have paired : Paired machine :=
    inv.paired.keeps machineInv sound (by rintro call ⟨⟩) taken
  rw [controlStep,moved,Option.bind_some]
  rcases inflight_advance machineInv moved with ⟨silent,same⟩ | ⟨invocation,invoked,found⟩
  · rw [silent]
    exact ⟨_,rfl,inv.carries ⟨_,kept⟩ paired same⟩
  · have member : invocation.completion ∈ s.tasks.map ManagementTask.completion :=
      inv.inflight.mem_iff.mp (found.mem_iff.mpr List.mem_cons_self)
    obtain ⟨task,member,same⟩ := List.mem_map.mp member
    rw [invoked]
    have ref : invocation.completion.ref = task.address := by rw [← same]; rfl
    rw [← same] at found
    simp only [ref]
    exact inv.completed member ⟨_,kept⟩ paired found invocation.deviceReset response

theorem ControlInv.moves (inv : ControlInv n s) (noSubmit : ∀ call, a ≠ .submit call)
    (noAdvance : a ≠ .advance) (taken : step a s.machine = some machine) :
    ControlInv n { s with machine := machine } := by
  obtain ⟨lost,machineInv⟩ := inv.machine
  have sound : Sound s.machine a := fun call same => absurd same (noSubmit call)
  obtain ⟨more,kept,_⟩ := machineInv.keeps taken (.inl sound)
  have paired : Paired machine := inv.paired.keeps machineInv sound
    (fun call same => absurd same (noSubmit call)) taken
  have untouched := machineInv.untouched taken noSubmit noAdvance
  exact inv.carries ⟨_,kept⟩ paired (untouched.inflight.symm.map _)

theorem ControlInv.keeps (manageable : s.Manageable a) (taken : controlStep a s = some s')
    (inv : ControlInv n s) : ControlInv n s' := by
  cases a with
  | request r calls => exact inv.requests manageable.1 manageable.2 taken
  | advance response =>
    have moving := taken
    obtain ⟨machine,moved,_⟩ := Option.bind_eq_some_iff.mp moving
    obtain ⟨next,reached,kept⟩ := inv.advances response moved
    rwa [← Option.some.inj (taken.symm.trans reached)] at kept
  | queue a =>
    cases a with
    | submit call => cases taken
    | advance => cases taken
    | _ =>
      obtain ⟨machine,moved,rfl⟩ := Option.map_eq_some_iff.mp taken
      exact inv.moves (by rintro call ⟨⟩) (by rintro ⟨⟩) moved

theorem controlInv_start (size : n < 65536)
    (built : setupVirtqueue n activeFeatures interruptsEnabled indirectDescPerRequest calls =
      .ok queue) : ControlInv n (.start queue) := by
  have machineInv := machineInv_setup size built
  have entries : queue.numEntries = n := machineInv.size
  refine ⟨⟨[],machineInv⟩,?_,.nil,.nil,?_,?_,?_,?_,?_,.nil⟩
  · intro _ r member
    cases member
  · intro task member
    cases member
  · intro task member
    cases member
  · intro task member
    cases member
  · rw [start,entries]
    exact .full (List.nodup_range.map (by intro a b; simp))
  · rw [start,entries]
    exact .full (List.nodup_range.map (by intro a b; simp))

structure Submits (s : ControlSystem) (r : ManagementRequest) (task : ManagementTask)
    (s' : ControlSystem) : Prop where
  tasks : s'.tasks = task :: s.tasks
  args : task.args = r.args
  readable : task.readable ∉ s.tasks.map ManagementTask.readable
  writable : ∃ writable, task.writable = some writable ∧ writable ∉ s.writables
  written : s'.ctrlTmf task.readable = ⟨CtrlTmfDevReadable.typeTmf, r.args.processTaskCommand,
    lunBytesFromTargetLun r.args.theT r.args.theL, r.args.theQ⟩
  others : ∀ other ∈ s.tasks, s'.ctrlTmf other.readable = s.ctrlTmf other.readable

structure Declines (s s' : ControlSystem) : Prop where
  tasks : s'.tasks = s.tasks
  readable : s'.ctrlReadablePool.Perm s.ctrlReadablePool
  writable : s'.ctrlWritablePool.Perm s.ctrlWritablePool

def Handles (s : ControlSystem) (r : ManagementRequest) (calls : ManagementCalls) : Prop :=
  (∃ task s', s.processTaskManagementFunctionInGate r.args calls = some (.requestInProcess, s') ∧
    Submits s r task s') ∨
  ∃ s', s.processTaskManagementFunctionInGate r.args calls =
      some (.serviceDeliveryOrTargetFailure, s') ∧ Declines s s'

theorem insert_erase_perm {pool : List Nat} (distinct : pool.Nodup) (member : item ∈ pool) :
    ((pool.erase item).insert item).Perm pool := by
  rw [List.insert_of_not_mem distinct.not_mem_erase]
  exact (List.perm_cons_erase member).symm

theorem ControlInv.handles (inv : ControlInv n s) (sound : s.SoundRequest r calls)
    (roomy : s.Roomy) (may : s.machine.maySubmit = true) : s.Handles r calls := by
  obtain ⟨readable,readableMember,writable,writableMember,ret,machine,_,_,concludes⟩ :=
    inv.concludes sound roomy may
  rw [concluded] at concludes
  have apart := inv.readable.not_held readableMember
  split at concludes
  · refine .inl ⟨_,_,concludes,rfl,rfl,apart,⟨writable,rfl,inv.writable.not_held writableMember⟩,?_,?_⟩
    · exact Function.update_self readable _ s.ctrlTmf
    · intro other member
      refine Function.update_of_ne ?_ _ s.ctrlTmf
      rintro rfl
      exact apart (List.mem_map_of_mem member)
  · have readableDistinct := (List.nodup_append.mp inv.readable.nodup).1
    have writableDistinct := (List.nodup_append.mp inv.writable.nodup).1
    exact .inr ⟨_,concludes,rfl,insert_erase_perm readableDistinct readableMember,
      insert_erase_perm writableDistinct writableMember⟩

/-- A full queue has left no buffers, and the null one is used. -/
theorem ControlInv.overwhelmed (inv : ControlInv n s) (full : ¬s.Roomy) (args : ManagementArgs)
    (calls : ManagementCalls) : s.processTaskManagementFunctionInGate args calls = none := by
  rw [inv.roomy_iff] at full
  obtain ⟨length,_⟩ := inv.pools_length
  have empty : s.ctrlReadablePool = [] := List.length_eq_zero_iff.mp (by omega)
  rw [processTaskManagementFunctionInGate,empty]
  rfl

theorem ControlInv.handles_iff (inv : ControlInv n s) (sound : s.SoundRequest r calls)
    (may : s.machine.maySubmit = true) : s.Handles r calls ↔ s.Roomy := by
  refine ⟨fun handled => ?_,fun roomy => inv.handles sound roomy may⟩
  by_contra full
  have none := inv.overwhelmed full r.args calls
  rcases handled with ⟨_,_,processed,_⟩ | ⟨_,processed,_⟩
  · rw [none] at processed
    cases processed
  · rw [none] at processed
    cases processed

/-- The tasks are those of the requests in the queue, each accepted request is answered once or
has its task, and the processing of completions is not held up. -/
structure Managed (s : ControlSystem) : Prop where
  inflight : (s.machine.inflight.map Request.completion).Perm
    (s.tasks.map ManagementTask.completion)
  outstanding : s.outstanding.length = s.tasks.length
  answered : s.submitted.Perm (s.answers.map ManagementAnswer.request ++ s.outstanding)
  proceeds : ∀ response machine, s.machine.advance = some machine →
    ∃ s', controlStep (.advance response) s = some s'

theorem ControlInv.managed (inv : ControlInv n s) : Managed s := by
  refine ⟨inv.inflight,?_,inv.answered,fun response machine moved => ?_⟩
  · exact length_filterMap_of_isSome inv.known
  · obtain ⟨s',taken,_⟩ := inv.advances response moved
    exact ⟨s',taken⟩

end ControlSystem

open ControlSystem

theorem management_requests_handled (size : n < 65536)
    (built : setupVirtqueue n activeFeatures interruptsEnabled 2 setup = .ok queue)
    (run : Run controlStep Manageable (.start queue) actions s) :
    Managed s ∧ ∀ r calls, s.machine.maySubmit = true → s.SoundRequest r calls →
      (s.Handles r calls ↔ s.Roomy) := by
  have inv : ControlInv n s := Run.keeps (ControlInv n)
    (fun manageable taken inv => inv.keeps manageable taken) run (controlInv_start size built)
  exact ⟨inv.managed,fun r calls may sound => inv.handles_iff sound may⟩

def mappedRequest (choice : Nat) : ManagementCalls :=
  ⟨choice, choice, (ScatterList.mk [⟨8192, 24⟩] (by decide)).dma,
    (ScatterList.mk [⟨12288, 1⟩] (by decide)).dma, (ScatterList.mk [⟨65536, 32⟩] (by decide)).dma⟩

theorem indirectCount_mapped (s : ControlSystem) (args : ManagementArgs)
    (readable writable choice more : Nat) :
    indirectCount (more + 2)
      ((s.taskOf args readable writable).submitCall (mappedRequest choice)) = 2 := by
  have readableSome : ((s.taskOf args readable writable).submitCall
      (mappedRequest choice)).readableBuffer.isSome = true := rfl
  have writableSome : ((s.taskOf args readable writable).submitCall
      (mappedRequest choice)).writableBuffer.isSome = true := rfl
  rw [indirectCount,indirectWritable,if_pos writableSome,writableOutcome,indirectReadable,
    if_pos readableSome,readableOutcome,SubmitCall.minDescsRequired,if_pos readableSome,
    if_pos writableSome]
  simp [ManagementTask.submitCall,mappedRequest,ScatterList.dma,ScatterList.genIOVMSegments]

theorem mappedRequest_sound {s : ControlSystem} (indirect : s.machine.queue.indirectDescriptors = true)
    (r : ManagementRequest) (choice : Nat) : s.SoundRequest r (mappedRequest choice) := by
  rintro readable writable call ⟨⟩
  refine ⟨fun corrupting => ?_,fun uncovered => ?_⟩
  · rw [corrupting.1] at indirect
    cases indirect
  · obtain ⟨_,_,uncovered⟩ := uncovered
    obtain ⟨more,slots⟩ := Nat.exists_eq_add_of_le' uncovered.fits
    have count : indirectCount _ ((s.taskOf r.args readable writable).submitCall
        (mappedRequest choice)) = 2 :=
      slots ▸ indirectCount_mapped s r.args readable writable choice more
    rcases uncovered.uncovered with none | short
    · exact Nat.lt_irrefl 1 none
    · exact short (by rw [count]; rfl)

def checkManageable (s : ControlSystem) : ControlAction → Bool
  | .request _ _ => s.machine.queue.indirectDescriptors &&
      decide (s.tasks.length < s.machine.queue.numEntries)
  | _ => true

def MappedRequests (s : ControlSystem) (a : ControlAction) : Prop :=
  s.machine.queue.indirectDescriptors = true →
    ∀ r calls, a = .request r calls → s.SoundRequest r calls

theorem mappedRequests_request (s : ControlSystem) (r : ManagementRequest) (choice : Nat) :
    MappedRequests s (.request r (mappedRequest choice)) := by
  rintro indirect _ _ ⟨⟩
  exact mappedRequest_sound indirect r choice

theorem run_of_checkManageable (mapped : ∀ a ∈ actions, ∀ s, MappedRequests s a)
    (played : play controlStep checkManageable actions s = some final) :
    Run controlStep Manageable s actions final := by
  have run : Run controlStep (fun s a => checkManageable s a = true) s actions final :=
    run_of_play (fun _ _ checked => checked) played
  refine (run.and (run.of_actions mapped)).mono ?_
  rintro s a ⟨checked,mapped⟩
  cases a with
  | request r calls =>
    rw [checkManageable,Bool.and_eq_true] at checked
    exact ⟨mapped checked.1 r calls rfl,fun _ => of_decide_eq_true checked.2⟩
  | queue => trivial
  | advance => trivial

def published (r : ManagementRequest) (choice : Nat) : List ControlAction :=
  [.request r (mappedRequest choice), .queue .publish, .queue .publish, .queue .publish]

/-- Two requests, the second of which the device answers first. -/
def managementRun : List ControlAction :=
  published (.abortTask 0 1 7) 0 ++ published (.targetReset 3) 1 ++
    [.queue .kick, .queue .fetch, .queue .fetch, .queue (.complete 1 1), .queue (.process 8)] ++
    List.replicate 7 (.advance functionSucceeded)

theorem managementRun_mapped : ∀ a ∈ managementRun, ∀ s, MappedRequests s a := by
  simp only [managementRun,published,List.mem_append,List.mem_cons,List.not_mem_nil,or_false,
    List.mem_replicate]
  rintro a member s
  rcases member with ((((rfl | rfl | rfl | rfl) | rfl | rfl | rfl | rfl) |
    rfl | rfl | rfl | rfl | rfl) | ⟨_,rfl⟩)
  · exact mappedRequests_request s _ 0
  rotate_left 3
  · exact mappedRequests_request s _ 1
  all_goals rintro _ _ _ ⟨⟩

theorem management_requests_handled_managementRun :
    ∃ s, Run controlStep Manageable (.start (initialQueue 2 true true (readyCalls 2 32)))
        managementRun s ∧
      s.answers = [⟨.targetReset 3, .functionComplete⟩] ∧ s.outstanding = [.abortTask 0 1 7] ∧
      Managed s ∧ s.Handles (.clearACA 1 2) (mappedRequest 0) := by
  have played : (play controlStep checkManageable managementRun
      (.start (initialQueue 2 true true (readyCalls 2 32)))).map
        (fun s => (s.answers,s.outstanding,s.machine.maySubmit,s.tasks.length,
          s.machine.queue.numEntries,s.machine.queue.indirectDescriptors)) =
      some ([⟨.targetReset 3, .functionComplete⟩],[.abortTask 0 1 7],true,1,2,true) := by
    decide +kernel
  obtain ⟨s,played,seen⟩ := Option.map_eq_some_iff.mp played
  simp only [Prod.mk.injEq] at seen
  obtain ⟨answers,outstanding,may,tasks,entries,indirect⟩ := seen
  have run := run_of_checkManageable managementRun_mapped played
  have roomy : s.Roomy := fun _ => by rw [tasks,entries]; decide
  obtain ⟨managed,handled⟩ := management_requests_handled (n := 2) (by decide)
    (show setupVirtqueue 2 ringIndirectDesc true 2 (readyCalls 2 32) = .ok _ from rfl) run
  exact ⟨s,run,answers,outstanding,managed,
    (handled _ _ may (mappedRequest_sound indirect _ 0)).mpr roomy⟩

/-- Two requests fill an indirect queue of two entries and the pools are empty: the third one
writes to a null buffer. -/
theorem management_request_null_buffer :
    setupVirtqueue 2 ringIndirectDesc true 2 (readyCalls 2 32) =
      .ok (initialQueue 2 true true (readyCalls 2 32)) ∧
    ∃ s, Run controlStep (fun _ _ => True) (.start (initialQueue 2 true true (readyCalls 2 32)))
        (published (.abortTask 0 1 7) 0 ++ published (.targetReset 3) 1) s ∧
      s.machine.maySubmit = true ∧ itemFromPool 0 s.ctrlReadablePool = none ∧
      itemFromPool 0 s.ctrlWritablePool = none ∧
      s.processTaskManagementFunctionInGate (ManagementRequest.args (.clearACA 1 2))
        (mappedRequest 0) = none ∧
      ¬s.Handles (.clearACA 1 2) (mappedRequest 0) := by
  have played : (play controlStep (fun _ _ => true)
      (published (.abortTask 0 1 7) 0 ++ published (.targetReset 3) 1)
      (.start (initialQueue 2 true true (readyCalls 2 32)))).map
        (fun s => (s.machine.maySubmit,s.ctrlReadablePool,s.ctrlWritablePool)) =
      some (true,[],[]) := by decide +kernel
  obtain ⟨s,played,seen⟩ := Option.map_eq_some_iff.mp played
  simp only [Prod.mk.injEq] at seen
  obtain ⟨may,readable,writable⟩ := seen
  have stuck : s.processTaskManagementFunctionInGate (ManagementRequest.args (.clearACA 1 2))
      (mappedRequest 0) = none := by
    rw [processTaskManagementFunctionInGate,readable]
    rfl
  refine ⟨rfl,s,run_of_play (fun _ _ _ => trivial) played,may,by rw [readable]; rfl,
    by rw [writable]; rfl,stuck,?_⟩
  rintro (⟨_,_,processed,_⟩ | ⟨_,processed,_⟩)
  · rw [stuck] at processed
    cases processed
  · rw [stuck] at processed
    cases processed

end VirtioOsx
