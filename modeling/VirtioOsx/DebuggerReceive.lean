import VirtioOsx.CompletionCount

/-! The network driver's receive function for the kernel debugger, with the device at work
while it polls. The completion of every buffer in the receive queue is
`receiveQueueCompletion`, and its reference is the packet. -/
namespace VirtioOsx

open Runs

/-- Positions in `receivePacket`: the top of its loop, inside
`pollCompletedRequestsInVirtqueue`, and inside the completion action that this invokes,
before the copy, before the resubmission and while its chain is published. The two
exits of the loop come last. -/
inductive ReceivePosition where
  | check
  | polling
  | completion (invocation : Invocation)
  | resubmission (completion : VirtioCompletion)
  | publication
  | received
  | timedOut
  deriving DecidableEq, Repr

/-- `pkt` is the memory of the debugger, which is not null, and `dmaMd` the descriptor of each
packet. The last two fields record how many bytes each completion has copied and what
became of the packets. -/
structure DebuggerReceive where
  machine : Machine
  dmaMd : Nat → IOMemoryDescriptor
  pkt : List UInt8
  pktSize : Nat
  debuggerReceiveSize : Nat
  timeoutUs : Nat
  waited : Nat
  position : ReceivePosition
  copied : List Nat
  resubmitted : List (Nat × IOReturn)

def receivePacket (machine : Machine) (dmaMd : Nat → IOMemoryDescriptor) (pkt : List UInt8)
    (pktSize timeout : Nat) : DebuggerReceive :=
  ⟨machine, dmaMd, pkt, pktSize, pktSize, timeout * 1000, 0, .check, [], []⟩

structure ReceiveCalls where
  mbufCopydata : Nat → Nat × List UInt8
  readable : DmaCalls
  writable : DmaCalls
  table : DmaCalls

def virtioNetHdrSize : Nat := 10

/-- A difference of 64 bits, the smaller of it and the size, and 32 bits of that. -/
def copyLen (numBytesWritten debuggerReceiveSize : Nat) : Nat :=
  min ((numBytesWritten + 2 ^ 64 - virtioNetHdrSize) % 2 ^ 64) debuggerReceiveSize % 2 ^ 32

namespace DebuggerReceive

def receiveQueueCompletion (calls : ReceiveCalls) (invocation : Invocation)
    (d : DebuggerReceive) : DebuggerReceive :=
  let copyLen := copyLen invocation.writtenBytes d.debuggerReceiveSize
  let (e, bytes) := calls.mbufCopydata copyLen
  { d with
    pkt := bytes ++ d.pkt.drop bytes.length
    debuggerReceiveSize := if e ≠ 0 then 0 else copyLen
    position := .resubmission invocation.completion
    copied := d.copied ++ [bytes.length] }

/-- The packet goes back with the completion it came with, and the result of the submission
is not looked at. -/
def resubmit (calls : ReceiveCalls) (completion : VirtioCompletion) (d : DebuggerReceive) :
    Option DebuggerReceive :=
  let call : SubmitCall := ⟨none, some (d.dmaMd completion.ref), completion, calls.readable,
    calls.writable, calls.table⟩
  (d.machine.submit call).map fun machine => { d with
    machine := machine
    position := if machine.submitting.isSome then .publication else .polling
    resubmitted := d.resubmitted ++
      [(completion.ref, match buildChain d.machine.queue call with
        | .returned result _ => result
        | _ => .success)] }

def polled (handledRequests : Nat) (d : DebuggerReceive) : DebuggerReceive :=
  if handledRequests > 0 then
    { d with pktSize := d.debuggerReceiveSize, debuggerReceiveSize := 0, position := .received }
  else if d.waited ≥ d.timeoutUs then
    { d with pktSize := 0, debuggerReceiveSize := 0, position := .timedOut }
  else { d with waited := d.waited + 20, position := .check }

def poll (call : ProcessCall) (result : ProcessResult) (d : DebuggerReceive) : DebuggerReceive :=
  let d := { d with machine := d.machine.processed call result }
  match result.invoked, result.position with
  | some invocation, _ => { d with position := .completion invocation }
  | none, some _ => d
  | none, none => d.polled call.totalHandled

def driver (calls : ReceiveCalls) (d : DebuggerReceive) : Option DebuggerReceive :=
  match d.position with
  | .check => (d.machine.process 1).map fun machine =>
      { d with machine := machine, position := .polling }
  | .polling => d.machine.processing.bind fun call =>
      (processCompletedRequestsInVirtqueue d.machine.queue call).map fun result =>
        d.poll call result
  | .completion invocation => some (d.receiveQueueCompletion calls invocation)
  | .resubmission completion => d.resubmit calls completion
  | .publication => d.machine.publish.map fun machine => { d with
      machine := machine
      position := if machine.submitting.isSome then .publication else .polling }
  | .received | .timedOut => none

end DebuggerReceive

def Action.byDevice : Action → Bool
  | .fetch | .complete _ _ | .suppress | .enable | .recheck | .kick => true
  | _ => false

inductive ReceiveAction where
  | driver (calls : ReceiveCalls)
  | device (a : Action)

def receiveStep : ReceiveAction → DebuggerReceive → Option DebuggerReceive
  | .driver calls, d => d.driver calls
  | .device a, d =>
    if a.byDevice then (step a d.machine).map fun machine => { d with machine := machine } else none

/-- What a call is to report for a packet of `writtenBytes`, with a buffer of `size`. -/
def receivedSize (writtenBytes size : Nat) : Nat :=
  if writtenBytes ≥ virtioNetHdrSize then min (writtenBytes - virtioNetHdrSize) size else 0

/-- The call has taken one packet, copied and reported it and put it back, or has taken none
in its time. -/
structure ReceiveAgrees (start final : DebuggerReceive) : Prop where
  consumed : ∀ invocations, final.machine.log = start.machine.log ++ invocations →
    invocations ≠ [] → ∃ invocation, invocations = [invocation] ∧
      final.pktSize = receivedSize invocation.writtenBytes start.pktSize ∧
      final.copied = [receivedSize invocation.writtenBytes start.pktSize] ∧
      final.resubmitted = [(invocation.completion.ref, .success)]
  timedOut : final.position = .timedOut →
    final.pktSize = 0 ∧ final.machine.log = start.machine.log ∧ final.pkt = start.pkt

def DebuggerReceive.ended (d : DebuggerReceive) : Prop :=
  d.position = .received ∨ d.position = .timedOut

/-- Elements of the used ring that the driver has not looked at, as it counts them. -/
def VirtioVirtqueue.numAdded (queue : VirtioVirtqueue) : Nat :=
  uint16Sub queue.usedRing.headIndex queue.usedRingLastHeadIndex

def ProcessPosition.reads : ProcessPosition → Bool
  | .poll | .recheck _ => true
  | _ => false

def NothingFound (d : DebuggerReceive) (a : ReceiveAction) : Prop :=
  ∀ calls call, a = .driver calls → d.position = .polling → d.machine.processing = some call →
    call.position.reads → d.machine.queue.numAdded = 0

theorem processed_cases (moved : processCompletedRequestsInVirtqueue queue ⟨1,0,position⟩ =
      some result) :
    (position.reads ∧ queue.numAdded = 0 ∧ result.invoked = none ∧
      (result.position = none ∨ result.position = some (.unmask queue.usedRingLastHeadIndex)) ∧
      result.queue = queue) ∨
    (∃ next, (position = .poll ∧ next = queue.usedRingLastHeadIndex ∨ position = .recheck next) ∧
      queue.numAdded ≠ 0 ∧ result = ⟨queue, some (.batch queue.usedRing.headIndex next), none⟩) ∨
    (∃ next, position = .unmask next ∧ result.invoked = none ∧
      result.position = some (.recheck next) ∧
      result.queue.usedRingLastHeadIndex = queue.usedRingLastHeadIndex) ∨
    (∃ current next invocation, position = .batch current next ∧ next ≠ current ∧
      result.invoked = some invocation ∧ result.position = some (.action current next)) ∨
    (∃ next, position = .batch next next ∧ result.invoked = none ∧
      result.position = some .poll) ∨
    ∃ current next, position = .action current next ∧ result.invoked = none ∧
      result.position = some (.batch current ((next + 1) % 65536)) := by
  have unlimited : (⟨1,0,position⟩ : ProcessCall).limitReached = false := rfl
  cases position with
  | poll =>
    simp only [processCompletedRequestsInVirtqueue,unlimited,Bool.false_eq_true,or_false] at moved
    split at moved
    · obtain rfl := Option.some.inj moved
      exact .inl ⟨rfl,by assumption,rfl,.inr rfl,rfl⟩
    · obtain rfl := Option.some.inj moved
      exact .inr (.inl ⟨_,.inl ⟨rfl,rfl⟩,by assumption,rfl⟩)
  | unmask next =>
    simp only [processCompletedRequestsInVirtqueue] at moved
    obtain rfl := Option.some.inj moved
    refine .inr (.inr (.inl ⟨next,rfl,rfl,rfl,?_⟩))
    dsimp only
    split
    · rfl
    · rfl
  | recheck next =>
    simp only [processCompletedRequestsInVirtqueue,unlimited,Bool.false_eq_true,or_false] at moved
    split at moved
    · obtain rfl := Option.some.inj moved
      exact .inl ⟨rfl,by assumption,rfl,.inl rfl,rfl⟩
    · obtain rfl := Option.some.inj moved
      exact .inr (.inl ⟨_,.inr rfl,by assumption,rfl⟩)
  | batch current next =>
    simp only [processCompletedRequestsInVirtqueue] at moved
    split at moved
    · rename_i more
      obtain ⟨queue',_,rfl⟩ := Option.map_eq_some_iff.mp moved
      exact .inr (.inr (.inr (.inl ⟨current,next,_,rfl,more.1,rfl,rfl⟩)))
    · rename_i more
      obtain rfl : next = current := by simpa using more
      obtain rfl := Option.some.inj moved
      exact .inr (.inr (.inr (.inr (.inl ⟨next,rfl,rfl,rfl⟩))))
  | action current next =>
    simp only [processCompletedRequestsInVirtqueue] at moved
    obtain rfl := Option.some.inj moved
    exact .inr (.inr (.inr (.inr (.inr ⟨current,next,rfl,rfl,rfl⟩))))

/-- The device changes nothing of what the driver keeps for itself. -/
theorem Action.byDevice_frame (device : a.byDevice = true) (taken : step a m = some m') :
    m'.processing = m.processing ∧ m'.log = m.log ∧
      m'.queue.usedRingLastHeadIndex = m.queue.usedRingLastHeadIndex := by
  cases a with
  | fetch =>
    obtain ⟨_,_,_,rfl⟩ := Machine.fetch_cases taken
    exact ⟨rfl,rfl,rfl⟩
  | complete position writtenBytes =>
    obtain ⟨_,_,rfl⟩ := Option.map_eq_some_iff.mp taken
    exact ⟨rfl,rfl,rfl⟩
  | suppress | enable | recheck | kick =>
    simp only [step,Machine.suppress,Machine.enable,Machine.recheck,Machine.kick] at taken
    split at taken
    · obtain rfl := Option.some.inj taken
      exact ⟨rfl,rfl,rfl⟩
    · cases taken
  | submit | publish | process | advance => cases device

def ReceivePosition.inside : ReceivePosition → Bool
  | .completion _ | .resubmission _ | .publication => true
  | _ => false

/-- What a step does: one of the device, the start of a poll, a part of a poll, or a part of
the completion action. -/
theorem receiveStep_cases (taken : receiveStep a d = some d') :
    (∃ action machine, a = .device action ∧ action.byDevice = true ∧
      step action d.machine = some machine ∧ d' = { d with machine := machine }) ∨
    (d.position = .check ∧ d' = { d with
      machine := { d.machine with processing := some ⟨1, 0, .poll⟩ }
      position := .polling }) ∨
    (∃ calls call result, a = .driver calls ∧ d.position = .polling ∧
      d.machine.processing = some call ∧
      processCompletedRequestsInVirtqueue d.machine.queue call = some result ∧
      d' = d.poll call result) ∨
    (d.position.inside = true ∧ (d'.position.inside = true ∨ d'.position = .polling) ∧
      d'.machine.processing = d.machine.processing ∧ d'.machine.log = d.machine.log) := by
  cases a with
  | device action =>
    simp only [receiveStep] at taken
    split at taken
    · rename_i device
      obtain ⟨machine,moved,rfl⟩ := Option.map_eq_some_iff.mp taken
      exact .inl ⟨action,machine,rfl,device,moved,rfl⟩
    · cases taken
  | driver calls =>
    refine .inr ?_
    simp only [receiveStep,DebuggerReceive.driver] at taken
    cases place : d.position with
    | check =>
      simp only [place] at taken
      obtain ⟨machine,moved,rfl⟩ := Option.map_eq_some_iff.mp taken
      obtain ⟨_,_,rfl⟩ := Machine.process_cases moved
      exact .inl ⟨rfl,rfl⟩
    | polling =>
      simp only [place] at taken
      obtain ⟨call,busy,taken⟩ := Option.bind_eq_some_iff.mp taken
      obtain ⟨result,moved,rfl⟩ := Option.map_eq_some_iff.mp taken
      exact .inr (.inl ⟨calls,call,result,rfl,rfl,busy,moved,rfl⟩)
    | completion invocation =>
      simp only [place] at taken
      obtain rfl := Option.some.inj taken
      exact .inr (.inr ⟨rfl,.inl rfl,rfl,rfl⟩)
    | resubmission completion =>
      simp only [place] at taken
      obtain ⟨machine,moved,rfl⟩ := Option.map_eq_some_iff.mp taken
      refine .inr (.inr ⟨rfl,?_,?_⟩)
      · dsimp only
        split
        · exact .inl rfl
        · exact .inr rfl
      · rcases (Machine.submit_cases moved).2 with ⟨_,_,_,rfl⟩ | ⟨_,_,_,rfl⟩
        · exact ⟨rfl,rfl⟩
        · exact ⟨rfl,rfl⟩
    | publication =>
      simp only [place] at taken
      obtain ⟨machine,moved,rfl⟩ := Option.map_eq_some_iff.mp taken
      refine .inr (.inr ⟨rfl,?_,?_⟩)
      · dsimp only
        split
        · exact .inl rfl
        · exact .inr rfl
      · rcases Machine.publish_cases moved with ⟨_,_,rfl⟩ | ⟨_,_,rfl⟩ | ⟨_,rfl⟩
        · exact ⟨rfl,rfl⟩
        · exact ⟨rfl,rfl⟩
        · exact ⟨rfl,rfl⟩
    | received | timedOut =>
      simp only [place] at taken
      cases taken

structure Receiving (d : DebuggerReceive) : Prop where
  polling : d.position = .polling → ∃ position, d.machine.processing = some ⟨1, 0, position⟩ ∧
    ∀ next, position = .unmask next ∨ position = .recheck next →
      next = d.machine.queue.usedRingLastHeadIndex
  inside : d.position.inside = true →
    ∃ current next, d.machine.processing = some ⟨1, 0, .action current next⟩
  unreceived : d.position ≠ .received
  reported : d.position = .timedOut → d.pktSize = 0

theorem DebuggerReceive.poll_on {d : DebuggerReceive} (invoked : result.invoked = none)
    (place : result.position = some next) :
    d.poll call result = { d with machine := d.machine.processed call result } := by
  simp [DebuggerReceive.poll,invoked,place]

theorem DebuggerReceive.poll_invoked {d : DebuggerReceive}
    (invoked : result.invoked = some invocation) :
    d.poll call result = { d with
      machine := d.machine.processed call result
      position := .completion invocation } := by
  simp [DebuggerReceive.poll,invoked]

/-- The loop of `receivePacket` never takes its first exit. -/
theorem DebuggerReceive.poll_returned (d : DebuggerReceive) (call : ProcessCall)
    (unhandled : call.totalHandled = 0) (invoked : result.invoked = none)
    (place : result.position = none) :
    (d.poll call result).machine = d.machine.processed call result ∧
      (d.poll call result).pkt = d.pkt ∧
      ((d.poll call result).position = .check ∨
        (d.poll call result).position = .timedOut ∧ (d.poll call result).pktSize = 0) := by
  simp only [DebuggerReceive.poll,invoked,place,DebuggerReceive.polled,unhandled,
    if_neg (Nat.lt_irrefl 0)]
  split
  · exact ⟨rfl,rfl,.inr ⟨rfl,rfl⟩⟩
  · exact ⟨rfl,rfl,.inl rfl⟩

theorem Machine.processed_position {m : Machine} (place : result.position = some position') :
    (m.processed ⟨1,0,position⟩ result).processing = some ⟨1,0,position'⟩ := by
  simp [Machine.processed,place]

/-- One part of a poll. -/
theorem Receiving.poll (receiving : Receiving d) (place : d.position = .polling)
    (busy : d.machine.processing = some call)
    (moved : processCompletedRequestsInVirtqueue d.machine.queue call = some result) :
    Receiving (d.poll call result) := by
  obtain ⟨position,busy',remembered⟩ := receiving.polling place
  obtain rfl := Option.some.inj (busy.symm.trans busy')
  have goesOn {next : ProcessPosition} (invoked : result.invoked = none)
      (place' : result.position = some next)
      (remembers : ∀ i, next = .unmask i ∨ next = .recheck i →
        i = result.queue.usedRingLastHeadIndex) : Receiving (d.poll ⟨1,0,position⟩ result) := by
    rw [DebuggerReceive.poll_on invoked place']
    exact ⟨fun _ => ⟨next,Machine.processed_position place',remembers⟩,by simp [place,
      ReceivePosition.inside],receiving.unreceived,receiving.reported⟩
  rcases processed_cases moved with ⟨_,_,invoked,ends,same⟩ | ⟨next,_,_,rfl⟩ |
    ⟨next,rfl,invoked,next',last⟩ | ⟨current,next,invocation,_,_,invoked,next'⟩ |
    ⟨next,_,invoked,next'⟩ | ⟨current,next,_,invoked,next'⟩
  · rcases ends with ends | ends
    · obtain ⟨_,_,exit | ⟨exit,reported⟩⟩ := d.poll_returned ⟨1,0,position⟩ rfl invoked ends
      · constructor <;> simp [exit,ReceivePosition.inside]
      · constructor <;> simp [exit,reported,ReceivePosition.inside]
    · exact goesOn invoked ends (by simp [same])
  · exact goesOn rfl rfl (by simp)
  · exact goesOn invoked next' (by simp [last,remembered])
  · rw [DebuggerReceive.poll_invoked invoked]
    exact ⟨nofun,fun _ => ⟨current,next,Machine.processed_position next'⟩,nofun,nofun⟩
  · exact goesOn invoked next' (by simp)
  · exact goesOn invoked next' (by simp)

theorem Receiving.step (receiving : Receiving d) (taken : receiveStep a d = some d') :
    Receiving d' := by
  rcases receiveStep_cases taken with ⟨action,machine,_,device,moved,rfl⟩ | ⟨_,rfl⟩ |
    ⟨_,call,result,_,place,busy,moved,rfl⟩ | ⟨inside,next,processing,_⟩
  · obtain ⟨processing,_,last⟩ := Action.byDevice_frame device moved
    refine ⟨fun place => ?_,fun inside => ?_,receiving.unreceived,receiving.reported⟩
    · dsimp only
      rw [processing,last]
      exact receiving.polling place
    · dsimp only
      rw [processing]
      exact receiving.inside inside
  · exact ⟨fun _ => ⟨_,rfl,by simp⟩,nofun,nofun,nofun⟩
  · exact receiving.poll place busy moved
  · obtain ⟨current,after,busy⟩ := receiving.inside inside
    rw [← processing] at busy
    refine ⟨fun _ => ⟨_,busy,by simp⟩,fun _ => ⟨current,after,busy⟩,?_,?_⟩
    · rcases next with next | next
      · exact fun received => by simp [received,ReceivePosition.inside] at next
      · simp [next]
    · rcases next with next | next
      · exact fun timedOut => by simp [timedOut,ReceivePosition.inside] at next
      · simp [next]

def Found (m : Machine) (d : DebuggerReceive) : Prop :=
  m.log.length < d.machine.log.length ∨
    m.log.length = d.machine.log.length ∧ d.position = .polling ∧
      ∃ current next, d.machine.processing = some ⟨1, 0, .batch current next⟩ ∧ next ≠ current

theorem DebuggerReceive.poll_log (d : DebuggerReceive) (call : ProcessCall)
    (result : ProcessResult) :
    (d.poll call result).machine.log = d.machine.log ++ result.invoked.toList := by
  simp only [DebuggerReceive.poll]
  split
  · simp [Machine.processed]
  · simp [Machine.processed]
  · simp only [DebuggerReceive.polled]
    split
    · rfl
    · split
      · rfl
      · rfl

theorem receiveStep_log (taken : receiveStep a d = some d') :
    ∃ invocations, d'.machine.log = d.machine.log ++ invocations := by
  rcases receiveStep_cases taken with ⟨action,machine,_,device,moved,rfl⟩ | ⟨_,rfl⟩ |
    ⟨_,call,result,_,_,_,_,rfl⟩ | ⟨_,_,_,same⟩
  · exact ⟨[],by simp [(Action.byDevice_frame device moved).2.1]⟩
  · exact ⟨[],by simp⟩
  · exact ⟨_,d.poll_log call result⟩
  · exact ⟨[],by simp [same]⟩

theorem Found.step (found : Found m d) (taken : receiveStep a d = some d') : Found m d' := by
  obtain ⟨invocations,log⟩ := receiveStep_log taken
  have longer := congrArg List.length log
  rw [List.length_append] at longer
  rcases found with more | ⟨same,place,current,next,busy,differ⟩
  · exact .inl (by omega)
  · rcases receiveStep_cases taken with ⟨action,machine,_,device,moved,rfl⟩ | ⟨start,_⟩ |
      ⟨_,call,result,_,_,busy',moved,rfl⟩ | ⟨inside,_⟩
    · obtain ⟨processing,log,_⟩ := Action.byDevice_frame device moved
      exact .inr ⟨by simp [log,same],place,current,next,by simp [processing,busy],differ⟩
    · rw [place] at start
      cases start
    · obtain rfl := Option.some.inj (busy.symm.trans busy')
      rcases processed_cases moved with ⟨reads,_⟩ | ⟨_,⟨at_,_⟩ | at_,_⟩ | ⟨_,at_,_⟩ |
        ⟨_,_,invocation,_,_,invoked,_⟩ | ⟨_,at_,_⟩ | ⟨_,_,at_,_⟩
      · cases reads
      · cases at_
      · cases at_
      · cases at_
      · refine .inl ?_
        rw [d.poll_log,invoked,List.length_append,same]
        exact Nat.lt_succ_self _
      · cases at_
        exact absurd rfl differ
      · cases at_
    · rw [place] at inside
      cases inside

theorem uint16Sub_self (i : Nat) : uint16Sub i i = 0 := by simp [uint16Sub]

theorem Found.begins (receiving : Receiving d) (longer : m.log.length ≤ d.machine.log.length)
    (taken : receiveStep a d = some d') (seen : ¬NothingFound d a) : Found m d' := by
  simp only [NothingFound,not_forall] at seen
  obtain ⟨calls,call,rfl,place,busy,reads,new⟩ := seen
  obtain ⟨position,busy',remembered⟩ := receiving.polling place
  obtain rfl := Option.some.inj (busy.symm.trans busy')
  rcases receiveStep_cases taken with ⟨_,_,other,_⟩ | ⟨start,_⟩ |
    ⟨_,call,result,_,_,busy',moved,rfl⟩ | ⟨inside,_⟩
  · cases other
  · rw [place] at start
    cases start
  · obtain rfl := Option.some.inj (busy.symm.trans busy')
    rcases processed_cases moved with ⟨_,nothing,_⟩ | ⟨next,from_,_,rfl⟩ | ⟨_,rfl,_⟩ |
      ⟨_,_,_,rfl,_⟩ | ⟨_,rfl,_⟩ | ⟨_,_,rfl,_⟩
    · exact absurd nothing new
    · have last : next = d.machine.queue.usedRingLastHeadIndex := by
        rcases from_ with ⟨_,last⟩ | from_
        · exact last
        · exact remembered next (.inr from_)
      have differ : next ≠ d.machine.queue.usedRing.headIndex := by
        intro same
        apply new
        rw [VirtioVirtqueue.numAdded,← same,← last,uint16Sub_self]
      rw [DebuggerReceive.poll_on rfl rfl]
      rcases Nat.lt_or_eq_of_le longer with more | same
      · exact .inl (by simpa [Machine.processed] using more)
      · exact .inr ⟨by simpa [Machine.processed] using same,place,_,next,rfl,differ⟩
    all_goals cases reads
  · rw [place] at inside
    cases inside

theorem found_or_nothing (receiving : Receiving d) (longer : m.log.length ≤ d.machine.log.length)
    (run : Run receiveStep (fun _ _ => True) d actions final) :
    Run receiveStep NothingFound d actions final ∨ Found m final := by
  induction run with
  | nil => exact .inl .nil
  | @cons d a next rest final _ taken later ih =>
    by_cases nothing : NothingFound d a
    · obtain ⟨invocations,log⟩ := receiveStep_log taken
      have longer' : m.log.length ≤ next.machine.log.length := by
        rw [log,List.length_append]
        omega
      rcases ih (receiving.step taken) longer' with run | found
      · exact .inl (.cons nothing taken run)
      · exact .inr found
    · have found := Found.begins receiving longer taken nothing
      exact .inr (later.keeps (Found m) (fun _ taken found => found.step taken) found)

structure Undisturbed (start d : DebuggerReceive) : Prop where
  log : d.machine.log = start.machine.log
  pkt : d.pkt = start.pkt
  outside : d.position.inside = false
  waiting : d.position = .polling →
    ∃ position, d.machine.processing = some ⟨1, 0, position⟩ ∧
      (position.reads = true ∨ ∃ next, position = .unmask next)

theorem Undisturbed.poll (calm : Undisturbed start d) (place : d.position = .polling)
    (busy : d.machine.processing = some call)
    (nothing : call.position.reads = true → d.machine.queue.numAdded = 0)
    (moved : processCompletedRequestsInVirtqueue d.machine.queue call = some result) :
    Undisturbed start (d.poll call result) := by
  obtain ⟨position,busy',waits⟩ := calm.waiting place
  obtain rfl := Option.some.inj (busy.symm.trans busy')
  have silent (invoked : result.invoked = none) :
      (d.poll ⟨1,0,position⟩ result).machine.log = start.machine.log := by
    rw [d.poll_log,invoked,calm.log]
    exact List.append_nil _
  have goesOn {next : ProcessPosition} (invoked : result.invoked = none)
      (place' : result.position = some next)
      (waits : next.reads = true ∨ ∃ i, next = .unmask i) :
      Undisturbed start (d.poll ⟨1,0,position⟩ result) := by
    have log := silent invoked
    rw [DebuggerReceive.poll_on invoked place'] at log ⊢
    exact ⟨log,calm.pkt,calm.outside,
      fun _ => ⟨next,Machine.processed_position place',waits⟩⟩
  rcases processed_cases moved with ⟨_,_,invoked,ends | ends,_⟩ | ⟨next,from_,new,_⟩ |
    ⟨next,rfl,invoked,next',_⟩ | ⟨_,_,_,rfl,_⟩ | ⟨_,rfl,_⟩ | ⟨_,_,rfl,_⟩
  · obtain ⟨_,pkt,exit⟩ := d.poll_returned ⟨1,0,position⟩ rfl invoked ends
    refine ⟨silent invoked,pkt.trans calm.pkt,?_,?_⟩
    · rcases exit with exit | ⟨exit,_⟩
      · rw [exit]
        rfl
      · rw [exit]
        rfl
    · rcases exit with exit | ⟨exit,_⟩
      · simp [exit]
      · simp [exit]
  · exact goesOn invoked ends (.inr ⟨_,rfl⟩)
  · have reads : position.reads = true := by
      rcases from_ with ⟨rfl,_⟩ | rfl
      · rfl
      · rfl
    exact absurd (nothing reads) new
  · exact goesOn invoked next' (.inl rfl)
  all_goals simp [ProcessPosition.reads] at waits

theorem Undisturbed.step (calm : Undisturbed start d) (nothing : NothingFound d a)
    (taken : receiveStep a d = some d') : Undisturbed start d' := by
  rcases receiveStep_cases taken with ⟨action,machine,_,device,moved,rfl⟩ | ⟨_,rfl⟩ |
    ⟨calls,call,result,driver,place,busy,moved,rfl⟩ | ⟨inside,_⟩
  · obtain ⟨processing,log,_⟩ := Action.byDevice_frame device moved
    refine ⟨log.trans calm.log,calm.pkt,calm.outside,fun place => ?_⟩
    dsimp only
    rw [processing]
    exact calm.waiting place
  · exact ⟨calm.log,calm.pkt,rfl,fun _ => ⟨.poll,rfl,.inl rfl⟩⟩
  · exact calm.poll place busy (nothing calls call driver place busy) moved
  · rw [calm.outside] at inside
    cases inside

def VirtioVirtqueue.unmasked (queue : VirtioVirtqueue) : VirtioVirtqueue :=
  if queue.interruptsRequested then
    { queue with availableRing := { queue.availableRing with flags := 0 } } else queue

theorem VirtioVirtqueue.numAdded_unmasked (queue : VirtioVirtqueue) :
    queue.unmasked.numAdded = queue.numAdded := by
  rw [VirtioVirtqueue.unmasked]
  split
  · rfl
  · rfl

def DebuggerReceive.pollingAt (d : DebuggerReceive) (queue : VirtioVirtqueue)
    (position : ProcessPosition) : DebuggerReceive :=
  { d with
    machine := { d.machine with queue := queue, processing := some ⟨1, 0, position⟩ }
    position := .polling }

theorem DebuggerReceive.pollingAt_on (d : DebuggerReceive) (calls : ReceiveCalls)
    (moved : processCompletedRequestsInVirtqueue queue ⟨1,0,place⟩ =
      some ⟨queue',some place',none⟩) :
    receiveStep (.driver calls) (d.pollingAt queue place) = some (d.pollingAt queue' place') := by
  simp [receiveStep,DebuggerReceive.driver,DebuggerReceive.pollingAt,moved,
    DebuggerReceive.poll,Machine.processed]

theorem DebuggerReceive.pollingAt_returned (d : DebuggerReceive) (calls : ReceiveCalls)
    (moved : processCompletedRequestsInVirtqueue queue ⟨1,0,place⟩ = some ⟨queue',none,none⟩) :
    receiveStep (.driver calls) (d.pollingAt queue place) = some (polled 0 { d with
      machine := { d.machine with queue := queue', processing := none }
      position := .polling }) := by
  simp [receiveStep,DebuggerReceive.driver,DebuggerReceive.pollingAt,moved,
    DebuggerReceive.poll,Machine.processed]

/-- One poll of an empty ring, from the top of the loop to the decision whether to wait. -/
theorem DebuggerReceive.polls_empty {d : DebuggerReceive} (place : d.position = .check)
    (quiet : d.machine.submitting = none) (idle : d.machine.processing = none)
    (empty : d.machine.queue.numAdded = 0) (calls : ReceiveCalls) :
    Run receiveStep NothingFound d (List.replicate 4 (.driver calls)) (polled 0 { d with
      machine := { d.machine with queue := d.machine.queue.unmasked, processing := none }
      position := .polling }) := by
  have empty' : d.machine.queue.unmasked.numAdded = 0 :=
    (VirtioVirtqueue.numAdded_unmasked d.machine.queue).trans empty
  have start : receiveStep (.driver calls) d = some (d.pollingAt d.machine.queue .poll) := by
    simp [receiveStep,DebuggerReceive.driver,place,Machine.process,quiet,idle,
      DebuggerReceive.pollingAt]
  have poll : processCompletedRequestsInVirtqueue d.machine.queue ⟨1,0,.poll⟩ =
      some ⟨d.machine.queue,some (.unmask d.machine.queue.usedRingLastHeadIndex),none⟩ := by
    have empty : uint16Sub _ _ = 0 := empty
    simp [processCompletedRequestsInVirtqueue,empty]
  have recheck (i : Nat) :
      processCompletedRequestsInVirtqueue d.machine.queue.unmasked ⟨1,0,.recheck i⟩ =
        some ⟨d.machine.queue.unmasked,none,none⟩ := by
    have empty : uint16Sub _ _ = 0 := empty'
    simp [processCompletedRequestsInVirtqueue,empty]
  have nothing {queue : VirtioVirtqueue} {position : ProcessPosition} (empty : queue.numAdded = 0) :
      NothingFound (d.pollingAt queue position) (.driver calls) := fun _ _ _ _ _ _ => empty
  refine .cons (fun _ _ _ polling => ?_) start (.cons (nothing empty) (d.pollingAt_on calls poll)
    (.cons (nothing empty) (d.pollingAt_on calls rfl)
      (.cons (nothing empty') (d.pollingAt_returned calls (recheck _)) .nil)))
  rw [place] at polling
  cases polling

/-- Without anything to find, the call returns when its time is over. -/
theorem receivePacket_returns {d : DebuggerReceive} (place : d.position = .check)
    (quiet : d.machine.submitting = none) (idle : d.machine.processing = none)
    (empty : d.machine.queue.numAdded = 0) (calls : ReceiveCalls) :
    ∃ k final, Run receiveStep NothingFound d (List.replicate k (.driver calls)) final ∧
      final.ended := by
  generalize left : d.timeoutUs - d.waited = time
  induction time using Nat.strongRecOn generalizing d with
  | ind time ih =>
    have round := d.polls_empty place quiet idle empty calls
    rw [DebuggerReceive.polled,if_neg (Nat.lt_irrefl 0)] at round
    split at round
    · exact ⟨4,_,round,.inr rfl⟩
    · rename_i early
      have less : d.timeoutUs - (d.waited + 20) < time := by
        dsimp only at early
        omega
      have empty' : d.machine.queue.unmasked.numAdded = 0 :=
        (VirtioVirtqueue.numAdded_unmasked d.machine.queue).trans empty
      obtain ⟨k,final,later,ended⟩ := ih _ less (d := { d with
        machine := { d.machine with queue := d.machine.queue.unmasked, processing := none }
        waited := d.waited + 20
        position := .check }) rfl quiet rfl empty' rfl
      refine ⟨4 + k,final,?_,ended⟩
      rw [List.replicate_add]
      exact round.append later

/-- The poll's result is always zero, so that the call ends by timing out whatever it has
found. What it reports is right exactly if it has found nothing in the used ring whenever
it looked. -/
theorem receive_agrees_iff (machine : Machine) (dmaMd : Nat → IOMemoryDescriptor)
    (pkt : List UInt8) (pktSize timeout : Nat) (actions : List ReceiveAction)
    (final : DebuggerReceive)
    (run : Run receiveStep (fun _ _ => True) (receivePacket machine dmaMd pkt pktSize timeout)
      actions final)
    (ended : final.ended) :
    final.position = .timedOut ∧ final.pktSize = 0 ∧
    (ReceiveAgrees (receivePacket machine dmaMd pkt pktSize timeout) final ↔
      Run receiveStep NothingFound (receivePacket machine dmaMd pkt pktSize timeout)
        actions final) := by
  have receiving : Receiving (receivePacket machine dmaMd pkt pktSize timeout) :=
    ⟨nofun,nofun,nofun,nofun⟩
  have last := run.keeps Receiving (fun _ taken receiving => receiving.step taken) receiving
  have timedOut : final.position = .timedOut := ended.resolve_left last.unreceived
  refine ⟨timedOut,last.reported timedOut,fun agrees => ?_,fun quiet => ?_⟩
  · refine (found_or_nothing receiving le_rfl run).resolve_right fun found => ?_
    rcases found with more | ⟨_,polling,_⟩
    · have log := congrArg List.length (agrees.timedOut timedOut).2.1
      omega
    · rw [timedOut] at polling
      cases polling
  · have calm := quiet.keeps (Undisturbed (receivePacket machine dmaMd pkt pktSize timeout))
      (fun nothing taken calm => calm.step nothing taken) ⟨rfl,rfl,rfl,nofun⟩
    refine ⟨fun invocations log some => ?_,fun _ => ⟨last.reported timedOut,calm.log,calm.pkt⟩⟩
    have none : invocations = [] := by simpa [log] using calm.log
    exact absurd none some

/-- Room for a header and a frame of 1514 bytes. -/
def frameSegments : ScatterList := ⟨[⟨4096, 1524⟩], by simp⟩

def receiveBuffer : SubmitCall :=
  ⟨none, some ⟨3, 1524⟩, ⟨1, 2, 3⟩, frameSegments.dma, frameSegments.dma, frameSegments.dma⟩

def packetReturned : List Action :=
  [.submit receiveBuffer, .publish, .publish, .publish, .kick, .fetch, .complete 0 74]

def copies : ReceiveCalls :=
  ⟨fun len => (0, List.replicate len 1), frameSegments.dma, frameSegments.dma, frameSegments.dma⟩

def checkNothingFound (d : DebuggerReceive) : ReceiveAction → Bool
  | .driver _ => d.position != .polling || d.machine.processing.all fun call =>
      !call.position.reads || d.machine.queue.numAdded == 0
  | .device _ => true

theorem nothing_of_check (d : DebuggerReceive) (a : ReceiveAction)
    (checked : checkNothingFound d a = true) : NothingFound d a := by
  rintro calls call rfl polling processing reads
  simpa [checkNothingFound,polling,processing,reads] using checked

/-- In one millisecond of polling the device is notified of the buffer, takes it, and wants no
further notification, but has no packet for it. -/
def quietMillisecond : List ReceiveAction :=
  [.driver copies, .device .kick, .driver copies, .device .fetch, .driver copies,
    .device .suppress] ++ List.replicate 201 (.driver copies)

theorem receive_agrees_iff_quiet :
    ∃ m final, Run step Sound (Machine.start (initialQueue 4 true false (readyCalls 4 64)))
        (packetReturned.take 4) m ∧
      Run receiveStep NothingFound (receivePacket m (fun i => ⟨i, 1524⟩) [0, 0] 2 1)
        quietMillisecond final ∧
      final.ended ∧ final.waited = 1000 ∧ final.machine.owned.length = 1 ∧
      ReceiveAgrees (receivePacket m (fun i => ⟨i, 1524⟩) [0, 0] 2 1) final := by
  have played : ((play step checkSuccessful (packetReturned.take 4)
      (Machine.start (initialQueue 4 true false (readyCalls 4 64)))).bind fun m =>
        (play receiveStep checkNothingFound quietMillisecond
          (receivePacket m (fun i => ⟨i, 1524⟩) [0, 0] 2 1)).map fun final =>
            decide (final.position = .timedOut ∧ final.waited = 1000 ∧
              final.machine.owned.length = 1)) = some true := by decide +kernel
  obtain ⟨m,waiting,played⟩ := Option.bind_eq_some_iff.mp played
  obtain ⟨final,received,seen⟩ := Option.map_eq_some_iff.mp played
  obtain ⟨timedOut,waited,owned⟩ := of_decide_eq_true seen
  have run := run_of_play (fun m a checked => (successful_of_check m a checked).sound) waiting
  have quiet := run_of_play nothing_of_check received
  refine ⟨m,final,run,quiet,.inr timedOut,waited,owned,?_⟩
  exact (receive_agrees_iff _ _ _ _ _ _ _ (quiet.mono fun _ => trivial) (.inr timedOut)).2.2.mpr
    quiet

/-- With one packet of 64 bytes to be found and no time to wait, the call copies the packet to
the buffer of the debugger and gives it back to the device, but reports that there is none. -/
theorem receive_loses_packet :
    ∃ m final, Run step Sound (Machine.start (initialQueue 4 true false (readyCalls 4 64)))
      packetReturned m ∧
      Run receiveStep (fun _ _ => True) (receivePacket m (fun i => ⟨i, 1524⟩) [] 1500 0)
        (List.replicate 13 (.driver copies)) final ∧
      final.position = .timedOut ∧ final.pktSize = 0 ∧ final.copied = [64] ∧
      final.resubmitted = [(3, .success)] ∧ m.log.length = 0 ∧ final.machine.log.length = 1 ∧
      ¬ReceiveAgrees (receivePacket m (fun i => ⟨i, 1524⟩) [] 1500 0) final := by
  have played : ((play step checkSuccessful packetReturned
      (Machine.start (initialQueue 4 true false (readyCalls 4 64)))).bind fun m =>
        (play receiveStep (fun _ _ => true) (List.replicate 13 (.driver copies))
          (receivePacket m (fun i => ⟨i, 1524⟩) [] 1500 0)).map fun final =>
            decide (final.position = .timedOut ∧ final.pktSize = 0 ∧ final.copied = [64] ∧
              final.resubmitted = [(3, .success)] ∧ m.log.length = 0 ∧
              final.machine.log.length = 1)) = some true := by decide +kernel
  obtain ⟨m,filled,played⟩ := Option.bind_eq_some_iff.mp played
  obtain ⟨final,received,seen⟩ := Option.map_eq_some_iff.mp played
  obtain ⟨timedOut,reported,copied,resubmitted,log,log'⟩ := of_decide_eq_true seen
  have run := run_of_play (fun m a checked => (successful_of_check m a checked).sound) filled
  have run' : Run receiveStep (fun _ _ => True) (receivePacket m (fun i => ⟨i, 1524⟩) [] 1500 0)
      (List.replicate 13 (.driver copies)) final :=
    run_of_play (fun _ _ _ => trivial) received
  refine ⟨m,final,run,run',timedOut,reported,copied,resubmitted,log,log',fun agrees => ?_⟩
  have same := congrArg List.length (agrees.timedOut timedOut).2.1
  rw [log'] at same
  rw [show (receivePacket m (fun i => ⟨i, 1524⟩) [] 1500 0).machine = m from rfl,log] at same
  cases same

end VirtioOsx
