import VirtioOsx.Virtqueue

/-! The block device of `VirtioBlockDevice.cpp`: its pool of request objects, the requests it
defers, and how requests are finished. Request objects are known by the order of their
creation. Both lists of `genccont` link the objects through the one field `head`; here they
are lists of objects. -/
namespace VirtioOsx

namespace IOReturn

def noSpace : IOReturn := .other 0xe00002db
def ioError : IOReturn := .other 0xe00002ca
def aborted : IOReturn := .other 0xe00002eb

end IOReturn

structure IOStorageCompletion where
  target : Nat
  action : Nat
  parameter : Nat
  deriving DecidableEq, Repr

inductive VirtioBlockRequestType where
  | read
  | write
  | flush
  deriving DecidableEq, Repr

structure VirtioBlkReqHeader where
  type : VirtioBlockRequestType
  reserved : Nat
  sector : Nat
  deriving DecidableEq, Repr

inductive BlockMemory where
  | header
  | status
  | buffer (md : IOMemoryDescriptor)
  deriving DecidableEq, Repr

structure SSDCMemoryDescriptorSubrange where
  md : BlockMemory
  offset : Nat
  length : Nat
  deriving DecidableEq, Repr

/-- The union of `storage_completion` and `sync_result`, by the member written last. -/
inductive BlockCompletion where
  | storage (completion : IOStorageCompletion)
  | sync (result : IOReturn)
  deriving DecidableEq, Repr

def BlockCompletion.storageCompletion : BlockCompletion → Option IOStorageCompletion
  | .storage completion => some completion
  | .sync _ => none

def BlockCompletion.syncResult : BlockCompletion → Option IOReturn
  | .storage _ => none
  | .sync result => some result

/-- `submitFn` is the function pointer, by the kind of request that sets it. `sleeping` says
that a caller sleeps on the object's address, and `serial` is the number of the call that the
object serves. -/
structure VirtioBlockDeviceRequest where
  header : VirtioBlkReqHeader
  subranges : List SSDCMemoryDescriptorSubrange
  status : Nat
  completion : BlockCompletion
  length : Nat
  submitFn : Option VirtioBlockRequestType
  sleeping : Bool
  serial : Nat
  deriving DecidableEq, Repr

/-- The object as `virtio_block_device_request_create` fills it, with zeros. -/
def VirtioBlockDeviceRequest.create : VirtioBlockDeviceRequest :=
  ⟨⟨.read, 0, 0⟩, [], 0, .storage ⟨0, 0, 0⟩, 0, none, false, 0⟩

inductive BlockCall where
  | readWrite (completion : IOStorageCompletion) (length : Nat)
  | flush
  deriving DecidableEq, Repr

structure StorageEvent where
  serial : Nat
  completion : Option IOStorageCompletion
  result : IOReturn
  actualBytes : Nat
  deriving DecidableEq, Repr

structure FlushEvent where
  serial : Nat
  result : Option IOReturn
  deriving DecidableEq, Repr

/-- `inFlight` are the requests that the transport has, `woken` the flushes whose callers have
been woken but have not yet run, and `drainsDue` the calls of `blockRequestCompleted` that
have called out but not yet retried the pending requests. The last seven fields only record
what has happened: the accepted calls, by serial number, the requests in the order in which
they were handed to the transport, the status bytes that came back, the outcomes of retries,
the callers' completions, and whether the transport ever left a request pending with nothing
left that would retry it. -/
structure VirtioBlockDevice where
  blockSize : Nat
  sectorsPerBlock : Nat
  capacityInBytes : Nat
  requests : Nat → VirtioBlockDeviceRequest
  requestPool : List Nat
  pendingRequests : List Nat
  inFlight : List Nat
  woken : List Nat
  drainsDue : Nat
  accepted : List BlockCall
  handed : List Nat
  returned : List (Nat × Nat)
  retries : List (Nat × IOReturn)
  storageLog : List StorageEvent
  flushLog : List FlushEvent
  refusedIdle : Bool

/-- The arguments of `doAsyncReadWrite`; its attributes are not used. -/
structure ReadWriteArgs where
  direction : IODirection
  buffer : IOMemoryDescriptor
  block : Nat
  nblks : Nat
  completion : IOStorageCompletion

/-- `result` is absent for a call that sleeps. -/
structure BlockCallReturn where
  result : Option IOReturn
  device : VirtioBlockDevice

def requestResult (status : Nat) (deviceReset : Bool) : IOReturn :=
  if deviceReset then .aborted
  else if status = 0 then .success
  else if status = 1 then .ioError
  else if status = 2 then .unsupported
  else .deviceError

theorem requestResult_success_iff : requestResult status false = .success ↔ status = 0 := by
  unfold requestResult
  grind [IOReturn.ioError]

namespace VirtioBlockDevice

def serial (d : VirtioBlockDevice) (request : Nat) : Nat := (d.requests request).serial

def modifyRequest (d : VirtioBlockDevice) (request : Nat)
    (f : VirtioBlockDeviceRequest → VirtioBlockDeviceRequest) : VirtioBlockDevice :=
  { d with requests := Function.update d.requests request (f (d.requests request)) }

/-- The wakeup that follows has no effect: a caller in `requestFromPool` does not look at the
pool again. -/
def returnRequestToPool (d : VirtioBlockDevice) (request : Nat) : VirtioBlockDevice :=
  { d with requestPool := request :: d.requestPool }

/-- The device after `start`, with `queueSize + 32` request objects. -/
def started (queueSize blockSize capacityInBytes : Nat) : VirtioBlockDevice :=
  (List.range (queueSize + 32)).foldl returnRequestToPool
    ⟨blockSize, blockSize / 512, capacityInBytes, fun _ => .create, [], [], [], [], 0, [], [], [],
      [], [], [], false⟩

/-- No request is with the transport, and no completion handler is still to retry the pending
ones. -/
def idle (d : VirtioBlockDevice) : Bool := d.inFlight.isEmpty && d.drainsDue == 0

def handOver (d : VirtioBlockDevice) (request : Nat) : VirtioBlockDevice :=
  { d with
    inFlight := d.inFlight ++ [request]
    handed := d.handed ++ [d.serial request] }

/-- The end of both kinds of call: the first attempt to submit, unless other requests wait
already, and the deferral if there is no room. -/
def submitOrDefer (submit : IOReturn) (request : Nat) (call : BlockCall) (d : VirtioBlockDevice) :
    IOReturn × VirtioBlockDevice :=
  let submitResult := if d.pendingRequests = [] then submit else .noSpace
  let d := d.modifyRequest request fun r => { r with serial := d.accepted.length }
  if submitResult = .noSpace ∨ submitResult = .busy then
    (.success, { d with
      pendingRequests := d.pendingRequests ++ [request]
      accepted := d.accepted ++ [call]
      refusedIdle := d.refusedIdle || (d.pendingRequests.isEmpty && d.idle) })
  else if submitResult = .success then
    (.success, { d.handOver request with accepted := d.accepted ++ [call] })
  else (submitResult, d)

def prepareReadWrite (args : ReadWriteArgs) (type : VirtioBlockRequestType) (sector : Nat)
    (requestLength : Nat) (subranges : List SSDCMemoryDescriptorSubrange)
    (r : VirtioBlockDeviceRequest) : VirtioBlockDeviceRequest :=
  { r with
    header := ⟨type, 0, sector⟩
    subranges := subranges
    completion := .storage args.completion
    length := requestLength
    submitFn := some type }

/-- The end of `doAsyncReadWriteOnWorkLoop`, from the first attempt to submit. -/
def finishReadWrite (submit : IOReturn) (request : Nat) (call : BlockCall) (d : VirtioBlockDevice) :
    BlockCallReturn :=
  let (submitResult, d) := d.submitOrDefer submit request call
  if submitResult ≠ .success then
    ⟨some submitResult,
      (d.modifyRequest request fun r => { r with subranges := [] }).returnRequestToPool request⟩
  else ⟨some submitResult, d⟩

def doAsyncReadWriteOnWorkLoop (args : ReadWriteArgs) (submit : IOReturn) (d : VirtioBlockDevice) :
    BlockCallReturn :=
  let requestLength := args.nblks * d.blockSize % 2^64
  if args.buffer.length < requestLength then ⟨some .badArgument, d⟩
  else if (args.block + args.nblks) % 2^64 * d.blockSize % 2^64 > d.capacityInBytes then
    ⟨some .badArgument, d⟩
  else
    match d.requestPool with
    | [] => ⟨none, d⟩
    | request :: rest =>
      let d := { d with requestPool := rest }
      let sector := args.block * d.sectorsPerBlock % 2^64
      let call := BlockCall.readWrite args.completion requestLength
      match args.direction with
      | .input =>
        finishReadWrite submit request call <| d.modifyRequest request <|
          prepareReadWrite args .read sector requestLength
            [⟨.buffer args.buffer, 0, requestLength⟩, ⟨.status, 0, 1⟩]
      | .output =>
        finishReadWrite submit request call <| d.modifyRequest request <|
          prepareReadWrite args .write sector requestLength
            [⟨.header, 0, 16⟩, ⟨.buffer args.buffer, 0, requestLength⟩]
      -- only the length has been written to the request, which stays out of the pool
      | _ =>
        ⟨some .badArgument, d.modifyRequest request fun r => { r with length := requestLength }⟩

/-- Up to the point where the caller sleeps. -/
def doSynchronizeCacheOnWorkLoop (submit : IOReturn) (d : VirtioBlockDevice) : BlockCallReturn :=
  match d.requestPool with
  | [] => ⟨none, d⟩
  | request :: rest =>
    let d := { d with requestPool := rest }
    let d := d.modifyRequest request fun r =>
      { r with header := ⟨.flush, 0, 0⟩, submitFn := some .flush }
    let (submitResult, d) := d.submitOrDefer submit request .flush
    if submitResult ≠ .success then ⟨some submitResult, d.returnRequestToPool request⟩
    else ⟨none, d.modifyRequest request fun r => { r with sleeping := true }⟩

def resumeSynchronizeCache (request : Nat) (d : VirtioBlockDevice) : VirtioBlockDevice :=
  let d := { d with
    woken := d.woken.erase request
    flushLog := d.flushLog ++ [FlushEvent.mk (d.serial request) (d.requests request).completion.syncResult] }
  d.returnRequestToPool request

/-- The loop of `handlePendingRequests` without a reset; `submits k` is the outcome of the
submission in its iteration `k`. Any error puts the request back and ends the loop. -/
def retryPending (submits : Nat → IOReturn) :
    Nat → List Nat → VirtioBlockDevice → VirtioBlockDevice
  | _, [], d => { d with pendingRequests := [] }
  | k, next :: rest, d =>
    let d := { d with retries := d.retries ++ [(d.serial next, submits k)] }
    if submits k ≠ .success then
      { d with
        pendingRequests := next :: rest
        refusedIdle := d.refusedIdle || d.idle }
    else retryPending submits (k + 1) rest (d.handOver next)

def completeStorage (request : Nat) (result : IOReturn) (actualBytes : Nat)
    (d : VirtioBlockDevice) : VirtioBlockDevice :=
  { d with storageLog := d.storageLog ++
      [⟨d.serial request, (d.requests request).completion.storageCompletion, result, actualBytes⟩] }

/-- The loop of `handlePendingRequests` with a reset. -/
def abortPending : List Nat → VirtioBlockDevice → VirtioBlockDevice
  | [], d => { d with pendingRequests := [] }
  | next :: rest, d =>
    let d := d.modifyRequest next fun r => { r with subranges := [] }
    abortPending rest ((d.returnRequestToPool next).completeStorage next .aborted 0)

def handlePendingRequests (deviceReset : Bool) (submits : Nat → IOReturn) (d : VirtioBlockDevice) :
    VirtioBlockDevice :=
  if deviceReset then d.abortPending d.pendingRequests
  else d.retryPending submits 0 d.pendingRequests

/-- `blockRequestCompleted` up to the return of the action that it calls. -/
def callStorageCompletion (request : Nat) (deviceReset : Bool) (d : VirtioBlockDevice) :
    VirtioBlockDevice :=
  let result := requestResult (d.requests request).status deviceReset
  let actualBytes := if result = .success then (d.requests request).length else 0
  let d := d.modifyRequest request fun r => { r with subranges := [] }
  (d.returnRequestToPool request).completeStorage request result actualBytes

def blockRequestCompleted (request : Nat) (deviceReset : Bool) (submits : Nat → IOReturn)
    (d : VirtioBlockDevice) : VirtioBlockDevice :=
  (d.callStorageCompletion request deviceReset).handlePendingRequests deviceReset submits

/-- `commandWakeup` of the caller that sleeps on the request, if one does. -/
def wakeup (request : Nat) (d : VirtioBlockDevice) : VirtioBlockDevice :=
  if (d.requests request).sleeping then
    { d.modifyRequest request fun r => { r with sleeping := false } with
      woken := d.woken ++ [request] }
  else d

def flushRequestCompleted (request : Nat) (deviceReset : Bool) (submits : Nat → IOReturn)
    (d : VirtioBlockDevice) : VirtioBlockDevice :=
  let result := requestResult (d.requests request).status deviceReset
  let d := d.modifyRequest request fun r => { r with completion := .sync result }
  (d.handlePendingRequests deviceReset submits).wakeup request

def giveBack (request status : Nat) (d : VirtioBlockDevice) : VirtioBlockDevice :=
  let d := d.modifyRequest request fun r => { r with status := status }
  { d with
    inFlight := d.inFlight.erase request
    returned := d.returned ++ [(d.serial request, status)] }

/-- The completion of a request: all of it for a flush, and for a read or a write the part up
to the return of the action, since that may call the device again. -/
def transportCompletes (request status : Nat) (submits : Nat → IOReturn) (d : VirtioBlockDevice) :
    Option VirtioBlockDevice :=
  if request ∈ d.inFlight then
    let d := d.giveBack request (status % 256)
    if (d.requests request).submitFn = some .flush then
      some (d.flushRequestCompleted request false submits)
    else some { d.callStorageCompletion request false with drainsDue := d.drainsDue + 1 }
  else none

def drain (submits : Nat → IOReturn) (d : VirtioBlockDevice) : Option VirtioBlockDevice :=
  if 0 < d.drainsDue then
    some ({ d with drainsDue := d.drainsDue - 1 }.handlePendingRequests false submits)
  else none

def resume (request : Nat) (d : VirtioBlockDevice) : Option VirtioBlockDevice :=
  if request ∈ d.woken then some (d.resumeSynchronizeCache request) else none

end VirtioBlockDevice

inductive BlockAction where
  | readWrite (args : ReadWriteArgs) (submit : IOReturn)
  | synchronizeCache (submit : IOReturn)
  | complete (request status : Nat) (submits : Nat → IOReturn)
  | drain (submits : Nat → IOReturn)
  | resume (request : Nat)

/-- Calls may come at any time, also from inside the completion of another request. -/
def blockStep (a : BlockAction) (d : VirtioBlockDevice) : Option VirtioBlockDevice :=
  match a with
  | .readWrite args submit => some (d.doAsyncReadWriteOnWorkLoop args submit).device
  | .synchronizeCache submit => some (d.doSynchronizeCacheOnWorkLoop submit).device
  | .complete request status submits => d.transportCompletes request status submits
  | .drain submits => d.drain submits
  | .resume request => d.resume request

end VirtioOsx
