import VirtioOsx.BlockData
import VirtioOsx.BlockSystemRuns
import VirtioOsx.WireBuffers

/-! What the device finds when it follows the head of a block request: the bytes of the header,
of the client's data and of the status, in the order of the protocol, from the time the queue
takes the request until the driver has got it back. -/
namespace VirtioOsx

open Runs

/-- The physical memory of the objects' headers and status bytes, and of the clients' buffers. -/
structure WiredMemory where
  header : Nat → PhysicalMemory
  status : Nat → PhysicalMemory
  buffer : IOMemoryDescriptor → PhysicalMemory
  headerLength : ∀ request, (header request).length = 16
  statusLength : ∀ request, (status request).length = 1
  bufferLength : ∀ b : IOMemoryDescriptor, b.length < 2^64 → (buffer b).length = b.length

namespace WiredMemory

variable {mem : WiredMemory}

def memory (mem : WiredMemory) (request : Nat) : BlockMemory → PhysicalMemory
  | .header => mem.header request
  | .status => mem.status request
  | .buffer md => mem.buffer md

def subranges (mem : WiredMemory) (request : Nat) (list : List SSDCMemoryDescriptorSubrange) :
    List Subrange :=
  list.flatMap fun s => (mem.memory request s.md).part s.offset s.length

/-- The descriptors that `submit_fn` passes for the device to read and to write. -/
def toDevice (mem : WiredMemory) (request : Nat) (r : VirtioBlockDeviceRequest) : List Subrange :=
  mem.subranges request (if r.submitFn = some .write then r.subranges else [⟨.header, 0, 16⟩])

def fromDevice (mem : WiredMemory) (request : Nat) (r : VirtioBlockDeviceRequest) : List Subrange :=
  mem.subranges request (if r.submitFn = some .read then r.subranges else [⟨.status, 0, 1⟩])

def headerBytes (mem : WiredMemory) (request : Nat) : List Nat := (mem.header request).bytes 0 16

def statusBytes (mem : WiredMemory) (request : Nat) : List Nat := (mem.status request).bytes 0 1

def bufferBytes (mem : WiredMemory) (b : IOMemoryDescriptor) (length : Nat) : List Nat :=
  (mem.buffer b).bytes 0 length

end WiredMemory

inductive OnWire (mem : WiredMemory) (d : VirtioBlockDevice) (request : Nat) :
    List Nat → List Nat → Prop where
  | flush : (d.requests request).submitFn = some .flush →
      (d.requests request).header = ⟨.flush, 0, 0⟩ →
      OnWire mem d request (mem.headerBytes request) (mem.statusBytes request)
  | read (args : ReadWriteArgs) : args.direction = .input →
      d.Filled args .read [⟨.buffer args.buffer, 0, d.requestLength args⟩, ⟨.status, 0, 1⟩]
        (d.requests request) →
      OnWire mem d request (mem.headerBytes request)
        (mem.bufferBytes args.buffer (d.requestLength args) ++ mem.statusBytes request)
  | write (args : ReadWriteArgs) : args.direction = .output →
      d.Filled args .write [⟨.header, 0, 16⟩, ⟨.buffer args.buffer, 0, d.requestLength args⟩]
        (d.requests request) →
      OnWire mem d request
        (mem.headerBytes request ++ mem.bufferBytes args.buffer (d.requestLength args))
        (mem.statusBytes request)

theorem OnWire.same {mem : WiredMemory} {d d' : VirtioBlockDevice}
    (wire : OnWire mem d request outgoing incoming) (geometry : d.SameGeometry d')
    (same : VirtioBlockDevice.SameData (d.requests request) (d'.requests request)) :
    OnWire mem d' request outgoing incoming := by
  have length (args : ReadWriteArgs) : d'.requestLength args = d.requestLength args := by
    rw [VirtioBlockDevice.requestLength,VirtioBlockDevice.requestLength,geometry.blockSize]
  cases wire with
  | flush kind header => exact .flush (same.submitFn.trans kind) (same.header.trans header)
  | read args way filled =>
    rw [← length]
    refine .read args way ?_
    rw [length]
    exact filled.same geometry same
  | write args way filled =>
    rw [← length]
    refine .write args way ?_
    rw [length]
    exact filled.same geometry same

def Measured (r : VirtioBlockDeviceRequest) : Prop :=
  ∀ s ∈ r.subranges, ∀ b : IOMemoryDescriptor, s.md = .buffer b → b.length < 2^64

structure Passed (mem : WiredMemory) (d : VirtioBlockDevice) (request : Nat) (call : SubmitCall) :
    Prop where
  bytes : OnWire mem d request (byteAddresses (mem.toDevice request (d.requests request)))
    (byteAddresses (mem.fromDevice request (d.requests request)))
  measures : call.Measures (mem.toDevice request (d.requests request))
    (mem.fromDevice request (d.requests request))

namespace WiredMemory

variable {mem : WiredMemory}

theorem subranges_nil : totalLength (mem.subranges request []) = 0 ∧
    byteAddresses (mem.subranges request []) = [] := ⟨rfl,rfl⟩

theorem header_first (request : Nat) (list : List SSDCMemoryDescriptorSubrange) :
    totalLength (mem.subranges request (⟨.header, 0, 16⟩ :: list)) =
        16 + totalLength (mem.subranges request list) ∧
      byteAddresses (mem.subranges request (⟨.header, 0, 16⟩ :: list)) =
        mem.headerBytes request ++ byteAddresses (mem.subranges request list) :=
  PhysicalMemory.part_append (by simp [memory,mem.headerLength]) _

theorem status_last (request : Nat) :
    totalLength (mem.subranges request [⟨.status, 0, 1⟩]) = 1 ∧
      byteAddresses (mem.subranges request [⟨.status, 0, 1⟩]) = mem.statusBytes request := by
  have inside : 0 + 1 ≤ (mem.status request).length := by simp [mem.statusLength]
  obtain ⟨length,bytes⟩ := PhysicalMemory.part_append inside []
  exact ⟨length,bytes.trans (List.append_nil _)⟩

theorem buffer_first (request : Nat) (b : IOMemoryDescriptor) (length : Nat)
    (list : List SSDCMemoryDescriptorSubrange) (fits : length ≤ b.length)
    (small : b.length < 2^64) :
    totalLength (mem.subranges request (⟨.buffer b, 0, length⟩ :: list)) =
        length + totalLength (mem.subranges request list) ∧
      byteAddresses (mem.subranges request (⟨.buffer b, 0, length⟩ :: list)) =
        mem.bufferBytes b length ++ byteAddresses (mem.subranges request list) :=
  PhysicalMemory.part_append (by simpa [memory,mem.bufferLength b small] using fits) _

end WiredMemory

theorem VirtioBlockDevice.HoldsCall.passed {d : VirtioBlockDevice}
    (holds : d.HoldsCall (d.requests request)) (mem : WiredMemory)
    (measured : Measured (d.requests request))
    (submitted : d.submitCall request dma = some call) : Passed mem d request call := by
  obtain ⟨headerLength,headerBytes⟩ := mem.header_first request []
  obtain ⟨statusLength,statusBytes⟩ := mem.status_last request
  rw [WiredMemory.subranges_nil.1] at headerLength
  rw [WiredMemory.subranges_nil.2,List.append_nil] at headerBytes
  cases holds with
  | flush kind header _ =>
    simp only [submitCall,kind,Option.map_some,Option.some.injEq] at submitted
    subst submitted
    have sent : mem.toDevice request (d.requests request) =
        mem.subranges request [⟨.header,0,16⟩] := by
      simp [WiredMemory.toDevice,kind]
    have got : mem.fromDevice request (d.requests request) =
        mem.subranges request [⟨.status,0,1⟩] := by
      simp [WiredMemory.fromDevice,kind]
    refine ⟨?_,⟨_,describedBuffer_some _ (Nat.succ_pos 15),?_⟩,
      _,describedBuffer_some _ Nat.one_pos,?_⟩
    · rw [sent,got,headerBytes,statusBytes]
      exact .flush kind header
    · rw [sent,headerLength]
      rfl
    · rw [got,statusLength]
      rfl
  | read args way filled =>
    have small := measured ⟨.buffer args.buffer,0,d.requestLength args⟩ (by simp [filled.subranges])
      args.buffer rfl
    obtain ⟨length,bytes⟩ := mem.buffer_first request args.buffer
      (d.requestLength args) [⟨.status,0,1⟩] filled.admitted.buffer small
    simp only [submitCall,filled.submitFn,Option.map_some,Option.some.injEq] at submitted
    subst submitted
    have sent : mem.toDevice request (d.requests request) =
        mem.subranges request [⟨.header,0,16⟩] := by
      simp [WiredMemory.toDevice,filled.submitFn]
    have got : mem.fromDevice request (d.requests request) =
        mem.subranges request [⟨.buffer args.buffer,0,d.requestLength args⟩,⟨.status,0,1⟩] := by
      simp [WiredMemory.fromDevice,filled.submitFn,filled.subranges]
    refine ⟨?_,⟨_,describedBuffer_some _ (Nat.succ_pos 15),?_⟩,
      _,describedBuffer_some _ (by simp [subrangeMd,filled.subranges]),?_⟩
    · rw [sent,got,headerBytes,bytes,statusBytes]
      exact .read args way filled
    · rw [sent,headerLength]
      rfl
    · rw [got,length,statusLength]
      simp [subrangeMd,filled.subranges]
  | write args way filled =>
    have small := measured ⟨.buffer args.buffer,0,d.requestLength args⟩ (by simp [filled.subranges])
      args.buffer rfl
    obtain ⟨length,bytes⟩ := mem.buffer_first request args.buffer
      (d.requestLength args) [] filled.admitted.buffer small
    obtain ⟨whole,written⟩ := mem.header_first request
      [⟨.buffer args.buffer,0,d.requestLength args⟩]
    rw [WiredMemory.subranges_nil.1] at length
    rw [WiredMemory.subranges_nil.2,List.append_nil] at bytes
    simp only [submitCall,filled.submitFn,Option.map_some,Option.some.injEq] at submitted
    subst submitted
    have sent : mem.toDevice request (d.requests request) =
        mem.subranges request [⟨.header,0,16⟩,⟨.buffer args.buffer,0,d.requestLength args⟩] := by
      simp [WiredMemory.toDevice,filled.submitFn,filled.subranges]
    have got : mem.fromDevice request (d.requests request) =
        mem.subranges request [⟨.status,0,1⟩] := by
      simp [WiredMemory.fromDevice,filled.submitFn]
    refine ⟨?_,⟨_,describedBuffer_some _ (by simp [subrangeMd,filled.subranges]),?_⟩,
      _,describedBuffer_some _ Nat.one_pos,?_⟩
    · rw [sent,got,written,bytes,statusBytes]
      exact .write args way filled
    · rw [sent,whole,length]
      simp [subrangeMd,filled.subranges]
    · rw [got,statusLength]
      rfl

namespace BlockSystem

variable {s s' : BlockSystem} {mem : WiredMemory}

def submitter (s : BlockSystem) : BlockSystemAction → VirtioBlockDevice
  | .readWrite args _ => (s.device.doAsyncReadWriteOnWorkLoop args .success).device
  | .synchronizeCache _ => (s.device.doSynchronizeCacheOnWorkLoop .success).device
  | _ => s.device

/-- The commands of a submission map the descriptors of its object. -/
structure Maps (mem : WiredMemory) (s : BlockSystem) (a : BlockSystemAction) (call : SubmitCall) :
    Prop where
  mapped : call.MapsTo s.machine.queue
    (mem.toDevice call.completion.ref ((s.submitter a).requests call.completion.ref))
    (mem.fromDevice call.completion.ref ((s.submitter a).requests call.completion.ref))
  measured : Measured ((s.submitter a).requests call.completion.ref)

def Wired (mem : WiredMemory) (s : BlockSystem) (a : BlockSystemAction) : Prop :=
  s.Reliable a ∧ ∀ call, s.submission a = some call → Maps mem s a call

structure Carried (s s' : BlockSystem) : Prop where
  stocked : s'.device.Stocked
  geometry : s.device.SameGeometry s'.device
  same : ∀ request ∈ s.device.inFlight, request ∈ s'.device.inFlight →
    VirtioBlockDevice.SameData (s.device.requests request) (s'.device.requests request)

theorem Carried.of_device (stocked : s.device.Stocked) (device : s'.device = s.device) :
    Carried s s' := by
  refine ⟨device ▸ stocked,device ▸ ⟨rfl,rfl,rfl⟩,fun request _ _ => ?_⟩
  rw [device]
  exact .refl _

theorem Carried.of_outstanding (stocked : s.device.Stocked)
    (geometry : s.device.SameGeometry s'.device)
    (outstanding : ∀ request, request ∈ s'.device.outstanding ↔ request ∈ s.device.outstanding)
    (objects : ∀ request, VirtioBlockDevice.SameData (s.device.requests request)
      (s'.device.requests request)) : Carried s s' := by
  refine ⟨?_,geometry,fun request _ _ => objects request⟩
  refine stocked.settled geometry (fun request member => (outstanding request).mp member)
    (fun request _ => objects request) (fun request away => ?_)
  rw [(objects request).subranges]
  exact stocked.idle request fun member => away ((outstanding request).mpr member)

theorem leave_carried (loop : RetryLoop) (d : VirtioBlockDevice) :
    d.SameGeometry (loop.leave d) ∧ (∀ request, request ∈ (loop.leave d).outstanding ↔
      request ∈ d.outstanding) ∧ ∀ request, VirtioBlockDevice.SameData (d.requests request)
        ((loop.leave d).requests request) := by
  cases loop with
  | block => exact ⟨⟨rfl,rfl,rfl⟩,fun _ => .rfl,fun _ => .refl _⟩
  | flush flushed =>
    simp only [RetryLoop.leave,VirtioBlockDevice.wakeup]
    split
    · refine ⟨⟨rfl,rfl,rfl⟩,fun _ => .rfl,fun request => ?_⟩
      by_cases here : request = flushed
      · subst here
        simp only [VirtioBlockDevice.modifyRequest,Function.update_self]
        exact ⟨rfl,rfl,rfl,rfl,rfl⟩
      · simp only [VirtioBlockDevice.modifyRequest,Function.update_of_ne here]
        exact .refl _
    · exact ⟨⟨rfl,rfl,rfl⟩,fun _ => .rfl,fun _ => .refl _⟩

theorem iterated_carried (d : VirtioBlockDevice) (result : IOReturn)
    (pending : d.pendingRequests = next :: rest) :
    d.SameGeometry (iterated d result next rest) ∧
      (∀ request, request ∈ (iterated d result next rest).outstanding ↔
        request ∈ d.outstanding) ∧ (iterated d result next rest).requests = d.requests := by
  by_cases success : result = .success
  · subst success
    rw [iterated_success]
    refine ⟨⟨rfl,rfl,rfl⟩,fun request => ?_,rfl⟩
    simp only [VirtioBlockDevice.outstanding,VirtioBlockDevice.handOver,pending,List.mem_append,
      List.mem_cons,List.not_mem_nil,or_false]
    tauto
  · rw [iterated_failure _ success]
    refine ⟨⟨rfl,rfl,rfl⟩,fun request => ?_,rfl⟩
    simp [VirtioBlockDevice.outstanding,pending]

theorem carried_retry (stocked : s.device.Stocked) (taken : s.retry dma = some s') :
    Carried s s' := by
  obtain ⟨loop,_,⟨_,rfl⟩ | ⟨next,rest,_,result,_,pending,_,_,_,outcome⟩⟩ := retry_cases taken
  · obtain ⟨geometry,outstanding,objects⟩ := leave_carried loop s.device
    exact .of_outstanding stocked geometry outstanding objects
  · obtain ⟨geometry,outstanding,objects⟩ := iterated_carried s.device result pending
    rcases outcome with ⟨rfl,rfl⟩ | ⟨_,rfl⟩
    · refine .of_outstanding stocked geometry outstanding fun request => ?_
      rw [objects]
      exact .refl _
    · obtain ⟨geometry',outstanding',objects'⟩ :=
        leave_carried loop (iterated s.device result next rest)
      refine .of_outstanding stocked ⟨?_,?_,?_⟩
        (fun request => (outstanding' request).trans (outstanding request)) fun request => ?_
      · exact geometry'.1.trans geometry.1
      · exact geometry'.2.trans geometry.2
      · exact geometry'.3.trans geometry.3
      · rw [← objects]
        exact objects' request

theorem carried_advance (consistent : s.Consistent) (inv : MachineInv n lost s.machine)
    (stocked : s.device.Stocked) (core : s.loop = none → s.device.Core k leaked)
    (taken : s.advance = some s') : Carried s s' := by
  obtain ⟨outside,m',_,⟨_,rfl⟩ | ⟨e,_,member,rfl⟩⟩ := advance_cases consistent inv taken
  · exact .of_device stocked rfl
  · obtain ⟨d',loop,reached,back,_⟩ := completed_cases (s := { s with machine := m' }) member
    dsimp only at reached
    rw [reached]
    obtain ⟨r,objects,_,_,empty⟩ := back.object
    have core := core outside
    have none : r.subranges = [] := by
      rcases empty with none | ⟨kind,same⟩
      · exact none
      · rw [same]
        exact (stocked.busy _ (List.mem_append_right _ member)).flush_empty kind
    have geometry : s.device.SameGeometry d' :=
      ⟨back.blockSize,back.sectorsPerBlock,back.capacityInBytes⟩
    have left : d'.outstanding = s.device.pendingRequests ++
        s.device.inFlight.erase e.fetched.request.completion.ref := by
      rw [VirtioBlockDevice.outstanding,back.pending,back.flying]
    refine ⟨stocked.emptied core member geometry left objects none,geometry,
      fun request _ still => ?_⟩
    have other := (core.given_back member request).mp
      (List.mem_append_right _ (back.flying ▸ still))
    rw [objects,Function.update_of_ne other.2]
    exact .refl _

theorem perform_device {called : IOReturn → VirtioBlockDevice}
    (taken : s.perform called a = some s') : ∃ submit, s'.device = called submit := by
  unfold perform at taken
  split at taken
  case isFalse => cases taken
  split at taken
  · obtain rfl := Option.some.inj taken
    exact ⟨_,rfl⟩
  · obtain ⟨call,_,rest⟩ := Option.bind_eq_some_iff.mp taken
    obtain ⟨sent,_,rfl⟩ := Option.map_eq_some_iff.mp rest
    exact ⟨_,rfl⟩

end BlockSystem

namespace VirtioBlockDevice

variable {d d' : VirtioBlockDevice}

theorem CallOutcome.geometry (outcome : CallOutcome d submit leaks result d') :
    SameGeometry d d' := by
  cases outcome with
  | refused => exact ⟨rfl,rfl,rfl⟩
  | leaked => exact ⟨rfl,rfl,rfl⟩
  | handed => exact ⟨rfl,rfl,rfl⟩
  | deferred => exact ⟨rfl,rfl,rfl⟩
  | failed => exact ⟨rfl,rfl,rfl⟩

end VirtioBlockDevice

namespace BlockSystem

variable {s s' : BlockSystem} {mem : WiredMemory}

theorem carried_called {called : VirtioBlockDevice}
    (outcome : s.device.CallOutcome submit leaks result called) (core : s.device.Core n leaked)
    (device : s'.device = called) (stocked : called.Stocked) : Carried s s' := by
  subst device
  refine ⟨stocked,outcome.geometry,fun request member _ => ?_⟩
  rw [outcome.objects core (by simp [VirtioBlockDevice.used,member])]
  exact .refl _

theorem Refines.carried (refines : Refines n origin s d) (stocked : s.device.Stocked)
    (taken : blockSystemStep a s = some s') : Carried s s' := by
  obtain ⟨lost,inv⟩ := refines.inv
  obtain ⟨missing,core⟩ := refines.core
  have consistent := refines.consistent
  have idle (outside : s.loop = none) : s.device.Core (n + 32) missing := by
    have here : s.device = d := by simpa [Follows,outside] using refines.follows
    exact here ▸ core
  cases a with
  | readWrite args dma =>
    have core := idle (perform_idle taken)
    obtain ⟨submit,device⟩ := perform_device taken
    exact carried_called (VirtioBlockDevice.doAsyncReadWrite_outcome args submit s.device) core
      device (stocked.doAsyncReadWrite core args submit)
  | synchronizeCache dma =>
    have core := idle (perform_idle taken)
    obtain ⟨submit,device⟩ := perform_device taken
    exact carried_called (VirtioBlockDevice.doSynchronizeCache_outcome submit s.device) core
      device (stocked.doSynchronizeCache core submit)
  | resume request =>
    simp only [blockSystemStep,resume] at taken
    split at taken
    · obtain ⟨d',resumed,rfl⟩ := Option.map_eq_some_iff.mp taken
      obtain ⟨_,rfl⟩ := VirtioBlockDevice.resume_cases resumed
      exact .of_outstanding stocked ⟨rfl,rfl,rfl⟩ (fun _ => .rfl) fun _ => .refl _
    · cases taken
  | drain =>
    simp only [blockSystemStep,drain] at taken
    split at taken
    · obtain rfl := Option.some.inj taken
      exact .of_outstanding stocked ⟨rfl,rfl,rfl⟩ (fun _ => .rfl) fun _ => .refl _
    · cases taken
  | retry dma => exact carried_retry stocked taken
  | advance => exact carried_advance consistent inv stocked idle taken
  | writeStatus request status => exact .of_device stocked (consistent.writeStatus taken).2.1
  | complete position writtenBytes =>
    exact .of_device stocked (consistent.complete inv taken).2.1
  | transport a => exact .of_device stocked (consistent.transport inv taken).2.1

theorem submission_submitCall (asked : s.submission a = some call) :
    ∃ dma, (s.submitter a).submitCall call.completion.ref dma = some call := by
  have named {d : VirtioBlockDevice} {request : Nat} {dma : SubmitDma}
      (found : d.submitCall request dma = some call) :
      d.submitCall call.completion.ref dma = some call := by
    have completion := submitCall_completion found
    rw [completion]
    exact found
  cases a with
  | readWrite args dma =>
    obtain ⟨request,_,found⟩ := Option.bind_eq_some_iff.mp asked
    exact ⟨dma,named found⟩
  | synchronizeCache dma =>
    obtain ⟨request,_,found⟩ := Option.bind_eq_some_iff.mp asked
    exact ⟨dma,named found⟩
  | retry dma =>
    obtain ⟨request,_,found⟩ := Option.bind_eq_some_iff.mp asked
    exact ⟨dma,named found⟩
  | resume | drain | advance | writeStatus | complete | transport => cases asked

theorem perform_accepted {called : IOReturn → VirtioBlockDevice}
    (reliable : s.Reliable a) (taken : s.perform called a = some s')
    (accepted : s'.machine.submitting = some (.slot r)) : s'.device = called .success := by
  unfold perform at taken
  split at taken
  case isFalse => cases taken
  rename_i may
  simp only [mayCall,Bool.and_eq_true] at may
  split at taken
  · obtain rfl := Option.some.inj taken
    have quiet := Machine.maySubmit_idle may.1
    rw [quiet] at accepted
    cases accepted
  · obtain ⟨call,asked,rest⟩ := Option.bind_eq_some_iff.mp taken
    obtain ⟨sent,passed,rfl⟩ := Option.map_eq_some_iff.mp rest
    obtain ⟨success,_⟩ | ⟨_,quiet,_⟩ := (Machine.transmit_cases (reliable call asked).2 passed).outcome
    · exact congrArg called success
    · rw [quiet] at accepted
      cases accepted

/-- An object that has been submitted is as it was when it was. -/
theorem accepted_objects (reliable : s.Reliable a) (taken : blockSystemStep a s = some s')
    (asked : s.submission a = some call) (moved : step (.submit call) s.machine = some s'.machine)
    (accepted : s'.machine.submitting = some (.slot r)) :
    s'.device.requests = (s.submitter a).requests := by
  cases a with
  | readWrite args dma =>
    rw [perform_accepted reliable taken accepted]
    rfl
  | synchronizeCache dma =>
    rw [perform_accepted reliable taken accepted]
    rfl
  | retry dma =>
    obtain ⟨loop,_,⟨_,rfl⟩ | ⟨next,rest,call,result,machine,pending,asked,_,sent,outcome⟩⟩ :=
      retry_cases taken
    · have quiet := (Machine.submit_cases moved).1
      rw [quiet] at accepted
      cases accepted
    · rcases outcome with ⟨rfl,rfl⟩ | ⟨failed,rfl⟩
      · exact (iterated_carried s.device .success pending).2.2
      · obtain ⟨success,_⟩ | ⟨_,quiet,_⟩ :=
          (Machine.transmit_cases (reliable call asked).2 sent).outcome
        · exact absurd success failed
        · rw [quiet] at accepted
          cases accepted
  | resume | drain | advance | writeStatus | complete | transport => cases asked

theorem Maps.found (maps : Maps mem s a call) (inv : MachineInv n lost s.machine)
    (asked : s.submission a = some call) (moved : step (.submit call) s.machine = some s'.machine)
    (accepted : s'.machine.submitting = some (.slot r))
    (completion : r.completion = call.completion)
    (objects : s'.device.requests = (s.submitter a).requests)
    (holds : s'.device.HoldsCall (s'.device.requests r.completion.ref)) :
    ∃ outgoing incoming, FoundOnWire s'.machine.queue r outgoing incoming ∧
      OnWire mem s'.device r.completion.ref outgoing incoming := by
  obtain ⟨dma,submitted⟩ := submission_submitCall asked
  have again : s'.device.submitCall call.completion.ref dma = some call := by
    rw [← submitted]
    simp only [VirtioBlockDevice.submitCall,VirtioBlockDevice.subrangeMd,
      VirtioBlockDevice.completionOf,objects]
  obtain ⟨mapped,measured⟩ := maps
  rw [← objects] at mapped measured
  rw [completion] at holds ⊢
  have passed := holds.passed mem measured again
  exact ⟨_,_,inv.accepted_found mapped passed.measures moved accepted,passed.bytes⟩

/-- Every request in flight is found as its object describes it. -/
def OnTheWire (mem : WiredMemory) (s : BlockSystem) : Prop :=
  ∀ r ∈ s.machine.inflight, ∃ outgoing incoming,
    FoundOnWire s.machine.queue r outgoing incoming ∧
    OnWire mem s.device r.completion.ref outgoing incoming

theorem OnTheWire.keeps (wire : OnTheWire mem s) (refines : Refines n origin s d)
    (stocked : s.device.Stocked) (wired : Wired mem s a) (taken : blockSystemStep a s = some s') :
    OnTheWire mem s' := by
  obtain ⟨reliable,maps⟩ := wired
  obtain ⟨lost,inv⟩ := refines.inv
  have carried := refines.carried stocked taken
  have answered := refines.answered reliable taken
  intro r member
  have owned := (answered.consistent.owner member).1
  have old (before : r ∈ s.machine.inflight)
      (kept : Kept r s.machine.queue s'.machine.queue) :
      ∃ outgoing incoming, FoundOnWire s'.machine.queue r outgoing incoming ∧
        OnWire mem s'.device r.completion.ref outgoing incoming := by
    obtain ⟨outgoing,incoming,found,bytes⟩ := wire r before
    have owner := (refines.consistent.owner before).1
    exact ⟨outgoing,incoming,found.kept kept,
      bytes.same carried.geometry (carried.same _ owner owned)⟩
  cases answered.queue with
  | stays same =>
    rw [same] at member
    refine old member ?_
    rw [same]
    exact ⟨rfl,fun _ _ => rfl,fun _ _ => rfl⟩
  | steps b sound moved asked =>
    rcases inv.entered moved member with before | ⟨call,rfl,accepted,completion⟩
    · exact old before (inv.kept sound moved before member)
    · have asked := asked call rfl
      have objects := accepted_objects reliable taken asked moved accepted
      have holds := carried.stocked.busy r.completion.ref (List.mem_append_right _ owned)
      exact (maps call asked).found inv asked moved accepted completion objects holds

end BlockSystem

end VirtioOsx
