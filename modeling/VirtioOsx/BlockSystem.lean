import VirtioOsx.BlockRequests
import VirtioOsx.QueueClient

/-! The block device on a virtqueue. Its submissions are those of the queue, and its requests
are completed by the actions that the queue's processing invokes, so that calls, the
publication of requests, what the device does with them and the retries of pending requests
are steps of one machine. -/
namespace VirtioOsx

open Runs

/-- The function pointers of `blockRequestCompleted` and `flushRequestCompleted`. -/
def blockCompleted : Nat := 0
def flushCompleted : Nat := 1

namespace VirtioBlockDevice

/-- `my_completion` in the three submit functions. -/
def completionOf (d : VirtioBlockDevice) (request : Nat) : VirtioCompletion :=
  ⟨if (d.requests request).submitFn = some .flush then flushCompleted else blockCompleted, 0,
    request⟩

def headerMd (request : Nat) : IOMemoryDescriptor := ⟨3 * request, 16⟩
def statusMd (request : Nat) : IOMemoryDescriptor := ⟨3 * request + 1, 1⟩
def subrangeMd (d : VirtioBlockDevice) (request : Nat) : IOMemoryDescriptor :=
  ⟨3 * request + 2, ((d.requests request).subranges.map SSDCMemoryDescriptorSubrange.length).sum⟩

/-- What `submit_fn` passes to the transport; absent for an object without one. -/
def submitCall (d : VirtioBlockDevice) (request : Nat) (dma : SubmitDma) : Option SubmitCall :=
  (d.requests request).submitFn.map fun type =>
    let readable := match type with
      | .write => d.subrangeMd request
      | _ => headerMd request
    let writable := match type with
      | .read => d.subrangeMd request
      | _ => statusMd request
    ⟨some readable, some writable, d.completionOf request, dma.readable, dma.writable, dma.table⟩

end VirtioBlockDevice

/-- The loop of `handlePendingRequests`, with what its caller does after it: the return of
`blockRequestCompleted`, or the wakeup at the end of `flushRequestCompleted`. -/
inductive RetryLoop where
  | block
  | flush (request : Nat)
  deriving DecidableEq, Repr

def RetryLoop.leave (loop : RetryLoop) (d : VirtioBlockDevice) : VirtioBlockDevice :=
  match loop with
  | .block => d
  | .flush request => d.wakeup request

/-- `loop` is set while the driver is in `handlePendingRequests`. `statuses` is the memory of
the status bytes, by object. `answers` only records the status bytes as they were when the
device returned the requests, with the serial numbers of their calls. -/
structure BlockSystem where
  machine : Machine
  device : VirtioBlockDevice
  loop : Option RetryLoop
  statuses : Nat → Nat
  answers : List (Nat × Nat)

inductive BlockSystemAction where
  | readWrite (args : ReadWriteArgs) (dma : SubmitDma)
  | synchronizeCache (dma : SubmitDma)
  | resume (request : Nat)
  | drain
  | retry (dma : SubmitDma)
  | advance
  | writeStatus (request status : Nat)
  | complete (position writtenBytes : Nat)
  | transport (a : Action)

namespace BlockSystem

def start (queue : VirtioVirtqueue) (blockSize capacityInBytes : Nat) : BlockSystem :=
  ⟨.start queue, .started queue.numEntries blockSize capacityInBytes, none, fun _ => 0, []⟩

/-- A call may run unless the driver is in a submission or retries pending requests. -/
def mayCall (s : BlockSystem) : Bool := s.machine.maySubmit && s.loop.isNone

/-- The object that a call submits, if it gets that far: the one that would be in flight if
the transport took it. -/
def attempted (s : BlockSystem) (called : IOReturn → VirtioBlockDevice) : Option Nat :=
  (called .success).inFlight[s.device.inFlight.length]?

def submission (s : BlockSystem) : BlockSystemAction → Option SubmitCall
  | .readWrite args dma =>
    let called submit := (s.device.doAsyncReadWriteOnWorkLoop args submit).device
    (s.attempted called).bind fun request => (called .success).submitCall request dma
  | .synchronizeCache dma =>
    let called submit := (s.device.doSynchronizeCacheOnWorkLoop submit).device
    (s.attempted called).bind fun request => (called .success).submitCall request dma
  | .retry dma =>
    s.device.pendingRequests.head?.bind fun request => s.device.submitCall request dma
  | _ => none

def perform (called : IOReturn → VirtioBlockDevice) (a : BlockSystemAction) (s : BlockSystem) :
    Option BlockSystem :=
  if s.mayCall then
    match s.attempted called with
    | none => some { s with device := called .noSpace }
    | some _ => (s.submission a).bind fun call =>
      (s.machine.transmit call).map fun sent =>
        { s with machine := sent.2, device := called sent.1 }
  else none

def resume (request : Nat) (s : BlockSystem) : Option BlockSystem :=
  if s.mayCall then (s.device.resume request).map fun d => { s with device := d } else none

/-- The client's action has returned to `blockRequestCompleted`. -/
def drain (s : BlockSystem) : Option BlockSystem :=
  if s.mayCall ∧ 0 < s.device.drainsDue then
    some { s with
      device := { s.device with drainsDue := s.device.drainsDue - 1 }
      loop := some .block }
  else none

def iterated (d : VirtioBlockDevice) (result : IOReturn) (next : Nat) (rest : List Nat) :
    VirtioBlockDevice :=
  { d.retryPending (fun _ => result) 0 [next] with
    pendingRequests := (d.retryPending (fun _ => result) 0 [next]).pendingRequests ++ rest }

/-- An iteration of the loop, or its end when no request is pending. -/
def retry (dma : SubmitDma) (s : BlockSystem) : Option BlockSystem :=
  match s.loop, s.device.pendingRequests with
  | none, _ => none
  | some loop, [] =>
    if s.machine.maySubmit then some { s with device := loop.leave s.device, loop := none }
    else none
  | some loop, next :: rest =>
    (s.submission (.retry dma)).bind fun call =>
      (s.machine.transmit call).map fun sent =>
        let d := iterated s.device sent.1 next rest
        if sent.1 = .success then { s with machine := sent.2, device := d }
        else { s with machine := sent.2, device := loop.leave d, loop := none }

/-- The function that a completion points to, up to the client's action or the loop. -/
def completed (s : BlockSystem) (completion : VirtioCompletion) : BlockSystem :=
  let request := completion.ref
  let d := s.device.giveBack request (s.statuses request % 256)
  if completion.action = flushCompleted then
    let result := requestResult (d.requests request).status false
    { s with
      device := d.modifyRequest request fun r => { r with completion := .sync result }
      loop := some (.flush request) }
  else
    { s with device := { d.callStorageCompletion request false with drainsDue := d.drainsDue + 1 } }

/-- A step of the processing call. It goes on only when the completion it has called has
returned. -/
def advance (s : BlockSystem) : Option BlockSystem :=
  if s.loop.isNone && s.device.drainsDue == 0 then
    s.machine.advance.map fun machine =>
      match machine.log[s.machine.log.length]? with
      | none => { s with machine := machine }
      | some invocation => completed { s with machine := machine } invocation.completion
  else none

def writeStatus (request status : Nat) (s : BlockSystem) : Option BlockSystem :=
  if s.machine.owned.any fun f => f.request.completion.ref == request then
    some { s with statuses := Function.update s.statuses request status }
  else none

def complete (position writtenBytes : Nat) (s : BlockSystem) : Option BlockSystem :=
  s.machine.owned[position]?.bind fun f =>
    (s.machine.complete position writtenBytes).map fun machine =>
      let request := f.request.completion.ref
      { s with
        machine := machine
        answers := s.answers ++ [(s.device.serial request, s.statuses request % 256)] }

def transport (a : Action) (s : BlockSystem) : Option BlockSystem :=
  (s.machine.transport a).map fun machine => { s with machine := machine }

end BlockSystem

def blockSystemStep (a : BlockSystemAction) (s : BlockSystem) : Option BlockSystem :=
  match a with
  | .readWrite args dma =>
    s.perform (fun submit => (s.device.doAsyncReadWriteOnWorkLoop args submit).device)
      (.readWrite args dma)
  | .synchronizeCache dma =>
    s.perform (fun submit => (s.device.doSynchronizeCacheOnWorkLoop submit).device)
      (.synchronizeCache dma)
  | .resume request => s.resume request
  | .drain => s.drain
  | .retry dma => s.retry dma
  | .advance => s.advance
  | .writeStatus request status => s.writeStatus request status
  | .complete position writtenBytes => s.complete position writtenBytes
  | .transport a => s.transport a

namespace BlockSystem

/-- Submissions do not corrupt the unused list, and one that has not published its request
does not return success. -/
def Reliable (s : BlockSystem) (a : BlockSystemAction) : Prop :=
  ∀ call, s.submission a = some call → ¬Corrupting s.machine.queue call ∧ Publishes s.machine call

/-- What the queue has in flight is what the driver takes to be in flight, with its kind of
completion, and each status byte that the device has left is read unchanged. -/
structure Consistent (s : BlockSystem) : Prop where
  owns : (s.machine.inflight.map Request.completion).Perm
    (s.device.inFlight.map s.device.completionOf)
  distinct : (s.device.pendingRequests ++ s.device.inFlight).Nodup
  answers : s.answers = s.device.returned ++ s.machine.unprocessed.map fun e =>
    (s.device.serial e.fetched.request.completion.ref,
      s.statuses e.fetched.request.completion.ref % 256)

variable {s s' : BlockSystem}

theorem Consistent.owner (consistent : s.Consistent) (member : r ∈ s.machine.inflight) :
    r.completion.ref ∈ s.device.inFlight ∧
      r.completion = s.device.completionOf r.completion.ref := by
  have there := consistent.owns.mem_iff.mp (List.mem_map_of_mem member)
  obtain ⟨request,flying,same⟩ := List.mem_map.mp there
  have ref : r.completion.ref = request := congrArg VirtioCompletion.ref same.symm
  rw [ref]
  exact ⟨flying,same.symm⟩

theorem Consistent.refs (consistent : s.Consistent) :
    (s.machine.inflight.map fun r => r.completion.ref).Perm s.device.inFlight := by
  have refs := consistent.owns.map VirtioCompletion.ref
  rw [List.map_map,List.map_map] at refs
  have same : s.device.inFlight.map (VirtioCompletion.ref ∘ s.device.completionOf) =
      s.device.inFlight := List.map_id'' (fun _ => rfl) _
  rwa [same] at refs

/-- No two requests in flight belong to one object. -/
theorem Consistent.refs_nodup (consistent : s.Consistent) :
    (s.machine.inflight.map fun r => r.completion.ref).Nodup :=
  consistent.refs.nodup_iff.mpr (List.nodup_append.mp consistent.distinct).2.1

def SameWork (d d' : VirtioBlockDevice) (request : Nat) : Prop :=
  d'.serial request = d.serial request ∧ d'.completionOf request = d.completionOf request

theorem SameWork.of_object {d d' : VirtioBlockDevice}
    (same : d'.requests request = d.requests request) : SameWork d d' request := by
  simp only [SameWork,VirtioBlockDevice.serial,VirtioBlockDevice.completionOf,same,and_self]

theorem Consistent.unmoved (consistent : s.Consistent)
    (unseen : s.machine.Unseen s'.machine)
    (flying : s'.device.inFlight = s.device.inFlight)
    (objects : ∀ request ∈ s.device.inFlight, SameWork s.device s'.device request)
    (returned : s'.device.returned = s.device.returned) (answers : s'.answers = s.answers)
    (statuses : s'.statuses = s.statuses)
    (distinct : (s'.device.pendingRequests ++ s'.device.inFlight).Nodup) : s'.Consistent where
  owns := by
    have same : s'.device.inFlight.map s'.device.completionOf =
        s.device.inFlight.map s.device.completionOf := by
      rw [flying]
      exact List.map_congr_left fun request member => (objects request member).2
    rw [same]
    exact (unseen.inflight.symm.map Request.completion).trans consistent.owns
  distinct := distinct
  answers := by
    rw [answers,consistent.answers,returned,unseen.unprocessed,statuses]
    congr 1
    refine List.map_congr_left fun e member => ?_
    rw [(objects _ (consistent.owner (Machine.unprocessed_inflight member)).1).1]

end BlockSystem

namespace VirtioBlockDevice

variable {d d' : VirtioBlockDevice}

theorem CallOutcome.objects (outcome : CallOutcome d submit leaks result d')
    (core : Core n missing d) (member : request ∈ d.used) :
    d'.requests request = d.requests request := by
  have fresh {other : Nat} {rest : List Nat} (pool : d.requestPool = other :: rest)
      (r : VirtioBlockDeviceRequest) :
      (d.loaded other r).requests request = d.requests request := by
    refine Function.update_of_ne (fun same => ?_) r d.requests
    exact core.pooled (pool ▸ List.mem_cons_self) (same ▸ member)
  cases outcome with
  | refused => rfl
  | leaked r _ pool => exact fresh pool r
  | handed r pool => exact fresh pool r
  | deferred r pool => exact fresh pool r
  | failed r pool => exact fresh pool r

theorem CallOutcome.returned (outcome : CallOutcome d submit leaks result d') :
    d'.returned = d.returned := by
  cases outcome <;> rfl

/-- Only a successful submission puts a request in flight. -/
theorem CallOutcome.unsent (outcome : CallOutcome d submit leaks result d')
    (failed : submit ≠ .success) : d'.inFlight = d.inFlight := by
  cases outcome with
  | handed _ _ _ success => exact absurd success failed
  | refused => rfl
  | leaked => rfl
  | deferred => rfl
  | failed => rfl

/-- A call that could get a request in flight does so if the transport takes it. -/
theorem CallOutcome.sent (outcome : CallOutcome d submit leaks result d')
    (found : d'.inFlight[d.inFlight.length]? = some request) :
    d'.inFlight = d.inFlight ++ [request] := by
  have inside := (List.getElem?_eq_some_iff.mp found).1
  cases outcome with
  | handed r pool =>
    simp only [handOver,loaded,List.getElem?_concat_length,Option.some.injEq] at found
    subst found
    rfl
  | refused | leaked | deferred | failed => exact absurd inside (by simp [loaded])

theorem Core.distinct (core : Core n leaked d) : (d.pendingRequests ++ d.inFlight).Nodup := by
  have distinct := core.nodup
  refine List.Nodup.sublist ?_ distinct
  simp only [used]
  refine List.Sublist.trans ?_ (List.sublist_append_left _ _)
  refine List.Sublist.trans ?_ (List.sublist_append_right _ _)
  exact List.sublist_append_left _ _

end VirtioBlockDevice

namespace BlockSystem

variable {s s' : BlockSystem}

theorem submitCall_completion {d : VirtioBlockDevice}
    (found : d.submitCall request dma = some call) :
    call.completion = d.completionOf request := by
  obtain ⟨_,_,rfl⟩ := Option.map_eq_some_iff.mp found
  rfl

structure Performed (s : BlockSystem) (called : IOReturn → VirtioBlockDevice)
    (act : BlockSystemAction) (s' : BlockSystem) : Prop where
  idle : s.loop = none
  loop : s'.loop = none
  device : ∃ submit, s'.device = called submit
  queue : QueueMove (s.submission act = some ·) s.machine s'.machine
  consistent : s'.Consistent

theorem Consistent.performed {called : IOReturn → VirtioBlockDevice} {leaks : Prop}
    (consistent : s.Consistent) (core : s.device.Core n missing)
    (outcome : ∀ submit, ∃ result, s.device.CallOutcome submit leaks result (called submit))
    (submits : ∀ request call, s.attempted called = some request → s.submission a = some call →
      call.completion = (called .success).completionOf request)
    (reliable : s.Reliable a) (taken : s.perform called a = some s') : Performed s called a s' := by
  have distinct (submit : IOReturn) :
      ((called submit).pendingRequests ++ (called submit).inFlight).Nodup := by
    obtain ⟨result,outcome⟩ := outcome submit
    obtain ⟨more,after,_⟩ := core.called outcome
    exact after.distinct
  have objects (submit : IOReturn) (request : Nat) (member : request ∈ s.device.inFlight) :
      (called submit).requests request = s.device.requests request := by
    obtain ⟨result,outcome⟩ := outcome submit
    exact outcome.objects core (by simp [VirtioBlockDevice.used,member])
  have returned (submit : IOReturn) : (called submit).returned = s.device.returned := by
    obtain ⟨result,outcome⟩ := outcome submit
    exact outcome.returned
  have unsent (submit : IOReturn) (failed : submit ≠ .success) :
      (called submit).inFlight = s.device.inFlight := by
    obtain ⟨result,outcome⟩ := outcome submit
    exact outcome.unsent failed
  unfold perform at taken
  split at taken
  case isFalse => cases taken
  rename_i may
  have idle : s.loop = none := by
    simp only [mayCall,Bool.and_eq_true,Option.isNone_iff_eq_none] at may
    exact may.2
  split at taken
  · obtain rfl := Option.some.inj taken
    refine ⟨idle,idle,⟨_,rfl⟩,.stays rfl,?_⟩
    exact consistent.unmoved (.refl _) (unsent _ (by simp [IOReturn.noSpace]))
      (fun request member => .of_object (objects _ request member)) (returned _) rfl rfl
      (distinct _)
  · rename_i request attempt
    obtain ⟨call,asked,rest⟩ := Option.bind_eq_some_iff.mp taken
    obtain ⟨⟨submit,machine⟩,sent,rfl⟩ := Option.map_eq_some_iff.mp rest
    obtain ⟨sound,published⟩ := reliable call asked
    have transmitted := Machine.transmit_cases published sent
    refine ⟨idle,idle,⟨_,rfl⟩,.submits transmitted sound asked,?_⟩
    rcases transmitted.outcome with ⟨rfl,r,completion,inflight⟩ | ⟨failed,_,_⟩
    · obtain ⟨result,sends⟩ := outcome .success
      have flying := sends.sent attempt
      refine ⟨?_,distinct _,?_⟩
      · refine (inflight.map Request.completion).trans ?_
        have old : s.device.inFlight.map (called .success).completionOf =
            s.device.inFlight.map s.device.completionOf :=
          List.map_congr_left fun other member =>
            (SameWork.of_object (objects .success other member)).2
        rw [flying,List.map_append,old,List.map_cons,completion,submits request call attempt asked]
        exact (consistent.owns.cons _).trans (List.perm_append_singleton _ _).symm
      · rw [transmitted.unprocessed,returned,consistent.answers]
        congr 1
        refine List.map_congr_left fun e member => ?_
        have owner := (consistent.owner (Machine.unprocessed_inflight member)).1
        rw [(SameWork.of_object (objects .success _ owner)).1]
    · refine consistent.unmoved (transmitted.unseen failed) (unsent _ failed)
        (fun other member => .of_object (objects _ other member)) (returned _) rfl rfl (distinct _)

/-- The state that the loop under way leads to, whatever its further submissions return. -/
def Follows (s : BlockSystem) (d : VirtioBlockDevice) : Prop :=
  match s.loop with
  | none => s.device = d
  | some loop => ∃ k, ∃ a : (Nat → IOReturn) → BlockAction, ∀ submits : Nat → IOReturn,
      (∀ i < k, submits i = .success) → blockStep (a submits) d =
        some (loop.leave (s.device.retryPending submits k s.device.pendingRequests))

/-- The pending requests are an argument of the loop. -/
theorem retryPending_pending (submits : Nat → IOReturn) (k : Nat) (pending stale : List Nat)
    (d : VirtioBlockDevice) :
    { d with pendingRequests := stale }.retryPending submits k pending =
      d.retryPending submits k pending := by
  induction pending generalizing d k with
  | nil => rfl
  | cons next rest ih =>
    rw [VirtioBlockDevice.retryPending,VirtioBlockDevice.retryPending]
    by_cases taken : submits k = .success
    · rw [if_neg (not_not.mpr taken),if_neg (not_not.mpr taken)]
      exact ih (k + 1)
        ({ d with retries := d.retries ++ [(d.serial next,submits k)] }.handOver next)
    · rw [if_pos taken,if_pos taken]
      rfl

theorem leave_frame (loop : RetryLoop) (d : VirtioBlockDevice) :
    (loop.leave d).inFlight = d.inFlight ∧ (loop.leave d).pendingRequests = d.pendingRequests ∧
      (loop.leave d).returned = d.returned ∧ ∀ request, SameWork d (loop.leave d) request := by
  cases loop with
  | block => exact ⟨rfl,rfl,rfl,fun _ => ⟨rfl,rfl⟩⟩
  | flush flushed =>
    simp only [RetryLoop.leave,VirtioBlockDevice.wakeup]
    split
    · refine ⟨rfl,rfl,rfl,fun request => ?_⟩
      by_cases same : request = flushed
      · subst same
        simp [SameWork,VirtioBlockDevice.serial,VirtioBlockDevice.completionOf,
          VirtioBlockDevice.modifyRequest]
      · exact .of_object (Function.update_of_ne same _ _)
    · exact ⟨rfl,rfl,rfl,fun _ => ⟨rfl,rfl⟩⟩

theorem Consistent.leave (consistent : s.Consistent) (loop : RetryLoop) :
    Consistent { s with device := loop.leave s.device, loop := none } := by
  obtain ⟨flying,pending,returned,work⟩ := leave_frame loop s.device
  refine consistent.unmoved (.refl _) flying (fun request _ => work request) returned rfl rfl ?_
  simp only [flying,pending]
  exact consistent.distinct

theorem iterated_success (d : VirtioBlockDevice) (next : Nat) (rest : List Nat) :
    iterated d .success next rest =
      { { d with retries := d.retries ++ [(d.serial next,IOReturn.success)] }.handOver next with
        pendingRequests := rest } := by
  simp [iterated,VirtioBlockDevice.retryPending,VirtioBlockDevice.handOver]

theorem iterated_failure (d : VirtioBlockDevice) (failed : result ≠ .success) (next : Nat)
    (rest : List Nat) :
    iterated d result next rest =
      { d with
        retries := d.retries ++ [(d.serial next,result)]
        pendingRequests := next :: rest
        refusedIdle := d.refusedIdle || d.idle } := by
  simp [iterated,VirtioBlockDevice.retryPending,VirtioBlockDevice.idle,failed]

theorem retryPending_success (submits : Nat → IOReturn) (taken : submits k = .success)
    (next : Nat) (rest : List Nat) (d : VirtioBlockDevice) :
    d.retryPending submits k (next :: rest) =
      (iterated d .success next rest).retryPending submits (k + 1) rest := by
  rw [iterated_success,VirtioBlockDevice.retryPending,if_neg (not_not.mpr taken),taken]
  exact (retryPending_pending submits (k + 1) rest rest _).symm

theorem retryPending_failure (submits : Nat → IOReturn) (failed : submits k ≠ .success)
    (next : Nat) (rest : List Nat) (d : VirtioBlockDevice) :
    d.retryPending submits k (next :: rest) = iterated d (submits k) next rest := by
  rw [iterated_failure _ failed,VirtioBlockDevice.retryPending,if_pos failed]
  rfl

/-- What a step of the loop does: it leaves, or it submits the first of the pending requests
and leaves if that fails. -/
theorem retry_cases (taken : s.retry dma = some s') : ∃ loop, s.loop = some loop ∧
    (s.device.pendingRequests = [] ∧ s' = { s with device := loop.leave s.device, loop := none } ∨
    ∃ next rest call result machine, s.device.pendingRequests = next :: rest ∧
      s.submission (.retry dma) = some call ∧ call.completion = s.device.completionOf next ∧
      s.machine.transmit call = some (result, machine) ∧
      (result = .success ∧ s' = { s with
          machine := machine
          device := iterated s.device .success next rest } ∨
        result ≠ .success ∧ s' = { s with
          machine := machine
          device := loop.leave (iterated s.device result next rest)
          loop := none })) := by
  unfold retry at taken
  split at taken
  · cases taken
  · rename_i loop inside pending
    split at taken
    · exact ⟨loop,inside,.inl ⟨pending,(Option.some.inj taken).symm⟩⟩
    · cases taken
  · rename_i loop next rest inside pending
    obtain ⟨call,asked,rest'⟩ := Option.bind_eq_some_iff.mp taken
    obtain ⟨⟨result,machine⟩,sent,same⟩ := Option.map_eq_some_iff.mp rest'
    have completion : call.completion = s.device.completionOf next := by
      have asked : s.device.submitCall next dma = some call := by
        simpa [submission,pending] using asked
      exact submitCall_completion asked
    refine ⟨loop,inside,.inr ⟨next,rest,call,result,machine,pending,asked,completion,sent,?_⟩⟩
    by_cases success : result = .success
    · subst success
      exact .inl ⟨rfl,by rw [← same]; rfl⟩
    · refine .inr ⟨success,?_⟩
      rw [← same]
      exact if_neg success

theorem Consistent.handedOver {machine : Machine} {call : SubmitCall} (consistent : s.Consistent)
    (pending : s.device.pendingRequests = next :: rest)
    (transmitted : Transmitted s.machine call .success machine)
    (completion : call.completion = s.device.completionOf next) :
    Consistent { s with
      machine := machine
      device := iterated s.device .success next rest } := by
  obtain ⟨r,same,inflight⟩ := transmitted.accepted
  rw [iterated_success]
  refine ⟨?_,?_,?_⟩
  · refine (inflight.map Request.completion).trans ?_
    simp only [VirtioBlockDevice.handOver,List.map_append,List.map_cons,List.map_nil,same,
      completion]
    exact (consistent.owns.cons _).trans (List.perm_append_singleton _ _).symm
  · have distinct := consistent.distinct
    rw [pending] at distinct
    simp only [VirtioBlockDevice.handOver]
    refine (List.Perm.nodup_iff ?_).mp distinct
    rw [← List.append_assoc]
    exact (List.perm_append_singleton next _).symm
  · simp only [transmitted.unprocessed]
    exact consistent.answers

theorem Consistent.refused {machine : Machine} {call : SubmitCall} (consistent : s.Consistent)
    (pending : s.device.pendingRequests = next :: rest)
    (transmitted : Transmitted s.machine call result machine) (failed : result ≠ .success) :
    Consistent { s with
      machine := machine
      device := iterated s.device result next rest } := by
  rw [iterated_failure _ failed]
  refine consistent.unmoved (transmitted.unseen failed) rfl (fun _ _ => ⟨rfl,rfl⟩) rfl rfl rfl ?_
  rw [← pending]
  exact consistent.distinct

/-- An iteration that succeeds leaves the loop with one request less. -/
theorem Follows.handedOver {loop : RetryLoop} (follows : s.Follows d)
    (inside : s.loop = some loop) (pending : s.device.pendingRequests = next :: rest)
    (machine : Machine) :
    Follows { s with
      machine := machine
      device := iterated s.device .success next rest } d := by
  simp only [Follows,inside,pending] at follows ⊢
  obtain ⟨k,a,reaches⟩ := follows
  refine ⟨k + 1,a,fun submits successes => ?_⟩
  have left : (iterated s.device .success next rest).pendingRequests = rest := by
    rw [iterated_success]
  rw [reaches submits fun i less => successes i (by omega),left,
    retryPending_success submits (successes k (by omega))]

theorem Follows.refused {loop : RetryLoop} (follows : s.Follows d)
    (inside : s.loop = some loop) (pending : s.device.pendingRequests = next :: rest)
    (failed : result ≠ .success) :
    ∃ a, blockStep a d = some (loop.leave (iterated s.device result next rest)) := by
  simp only [Follows,inside,pending] at follows
  obtain ⟨k,a,reaches⟩ := follows
  obtain ⟨submits,before,here⟩ : ∃ submits : Nat → IOReturn,
      (∀ i < k, submits i = .success) ∧ submits k = result :=
    ⟨fun i => if i < k then .success else result,fun i less => if_pos less,
      if_neg (Nat.lt_irrefl k)⟩
  refine ⟨a submits,?_⟩
  rw [reaches submits before,retryPending_failure submits (here ▸ failed),here]

theorem Follows.emptied {loop : RetryLoop} (follows : s.Follows d)
    (inside : s.loop = some loop) (none : s.device.pendingRequests = []) :
    ∃ a, blockStep a d = some (loop.leave s.device) := by
  simp only [Follows,inside,none] at follows
  obtain ⟨k,a,reaches⟩ := follows
  refine ⟨a fun _ => .success,?_⟩
  rw [reaches _ fun _ _ => rfl,VirtioBlockDevice.retryPending,← none]

end BlockSystem

end VirtioOsx
