import VirtioOsx.Virtqueue

/-! The memory balloon driver of `VirtioMemBalloonDevice.cpp`. Buffers are known by the
order of their creation. An allocation that returns no buffer stops the kernel in
`virtio_mem_balloon_create_reserved_buffer`, so the model has only those that do not. -/
namespace VirtioOsx

def bigChunkPages : Nat := 512

def sub32 (a b : Nat) : Nat := (a + 2^32 - b) % 2^32

theorem sub32_exact (exact : b ≤ a) (small : a < 2^32) : sub32 a b = a - b := by
  simp only [sub32]
  omega

inductive BalloonQueue where
  | inflate
  | deflate
  deriving DecidableEq, Repr

/-- What the driver does on the way, for statements about whole runs: its subtractions,
the lengths given to `page_address_array`, removals from an array of `count` buffers, its
submissions, and calls through the null pointer of an empty array's last object. -/
inductive BalloonEvent where
  | subtracted (a b : Nat)
  | setLength (count : Nat)
  | removed (count index : Nat)
  | submitted (queue : BalloonQueue) (pages : List Nat)
  | nullBuffer
  deriving DecidableEq, Repr

/-- Outcomes of the calls out of the driver during one check: the address and length of the
segment at an offset of a buffer, and the result of the submission. -/
structure BalloonCalls where
  getPhysicalSegment : Nat → Nat → Nat × Nat
  submitBuffersToVirtqueue : IOReturn

structure BalloonRequest where
  queue : BalloonQueue
  pages : List Nat
  deriving DecidableEq, Repr

/-- The first `pageAddressCount` entries of `pageAddresses` are the contents of
`page_address_array`. `outstanding` are the requests the device has; `created` and `trace`
only record what has happened. -/
structure VirtioMemBalloonDevice where
  pageBuffers : List Nat
  bigChunkBuffers : List Nat
  deflatingBuffers : List Nat
  pageAddressCount : Nat
  pageAddresses : Nat → Nat
  inflateDeflateInProgress : Bool
  numRequestedPages : Nat
  actualPages : Nat
  retainCount : Nat → Nat
  outstanding : List BalloonRequest
  created : Nat
  trace : List BalloonEvent

inductive BufferArray where
  | pages
  | bigChunks
  | deflating

namespace VirtioMemBalloonDevice

def array (d : VirtioMemBalloonDevice) : BufferArray → List Nat
  | .pages => d.pageBuffers
  | .bigChunks => d.bigChunkBuffers
  | .deflating => d.deflatingBuffers

def withArray (d : VirtioMemBalloonDevice) (buffers : List Nat) :
    BufferArray → VirtioMemBalloonDevice
  | .pages => { d with pageBuffers := buffers }
  | .bigChunks => { d with bigChunkBuffers := buffers }
  | .deflating => { d with deflatingBuffers := buffers }

def log (d : VirtioMemBalloonDevice) (event : BalloonEvent) : VirtioMemBalloonDevice :=
  { d with trace := d.trace ++ [event] }

def retain (d : VirtioMemBalloonDevice) (buffer : Nat) : VirtioMemBalloonDevice :=
  { d with retainCount := Function.update d.retainCount buffer (d.retainCount buffer + 1) }

def release (d : VirtioMemBalloonDevice) (buffer : Nat) : VirtioMemBalloonDevice :=
  { d with retainCount := Function.update d.retainCount buffer (d.retainCount buffer - 1) }

def setObject (d : VirtioMemBalloonDevice) (which : BufferArray) (buffer : Nat) :
    VirtioMemBalloonDevice :=
  (d.withArray (d.array which ++ [buffer]) which).retain buffer

def removeObject (d : VirtioMemBalloonDevice) (which : BufferArray) (index : Nat) :
    VirtioMemBalloonDevice :=
  let d := d.log (.removed (d.array which).length index)
  match (d.array which)[index]? with
  | none => d
  | some buffer => (d.withArray ((d.array which).eraseIdx index) which).release buffer

def flushCollection (d : VirtioMemBalloonDevice) (which : BufferArray) : VirtioMemBalloonDevice :=
  (d.array which).foldl release (d.withArray [] which)

def setLength (d : VirtioMemBalloonDevice) (count : Nat) : VirtioMemBalloonDevice :=
  { d.log (.setLength count) with pageAddressCount := count }

def setPageAddress (d : VirtioMemBalloonDevice) (page address : Nat) : VirtioMemBalloonDevice :=
  { d with pageAddresses := Function.update d.pageAddresses page address }

def pageAddressArray (d : VirtioMemBalloonDevice) : List Nat :=
  (List.range d.pageAddressCount).map d.pageAddresses

def totalPagesAllocated (d : VirtioMemBalloonDevice) : Nat :=
  (d.bigChunkBuffers.length * bigChunkPages + d.pageBuffers.length) % 2^32

def begun (d : VirtioMemBalloonDevice) : VirtioMemBalloonDevice :=
  { d with inflateDeflateInProgress := true }

/-- `virtio_mem_balloon_create_reserved_buffer`; the buffer returned is number `d.created`. -/
def createReservedBuffer (d : VirtioMemBalloonDevice) (which : BufferArray) :
    VirtioMemBalloonDevice :=
  let buffer := d.created
  let d := { d with
    created := buffer + 1
    retainCount := Function.update d.retainCount buffer 1 }
  d.setObject which buffer

def listChunk (calls : BalloonCalls) (chunk : Nat) :
    Nat → Nat → VirtioMemBalloonDevice → IOReturn × VirtioMemBalloonDevice
  | 0, _, d => (.success, d)
  | remaining + 1, page, d =>
    let segment := calls.getPhysicalSegment chunk (page * pageSize)
    if segment.1 = 0 ∨ segment.2 < pageSize then (.internalError, d)
    else listChunk calls chunk remaining (page + 1)
      (d.setPageAddress page (segment.1 / 4096 % 2^32))

/-- The loop that allocates single pages, with the number of buffers it has created. A page
without a physical address keeps the reference its creation gave. -/
def inflatePages (calls : BalloonCalls) :
    Nat → Nat → VirtioMemBalloonDevice → IOReturn × Nat × VirtioMemBalloonDevice
  | 0, i, d => (.success, i, d)
  | remaining + 1, i, d =>
    let buffer := d.created
    let d := d.createReservedBuffer .pages
    let segment := calls.getPhysicalSegment buffer 0
    if segment.1 = 0 ∨ segment.2 < pageSize then (.internalError, i + 1, d)
    else inflatePages calls remaining (i + 1)
      ((d.setPageAddress i (segment.1 / 4096 % 2^32)).release buffer)

def deflatePages (calls : BalloonCalls) (numPages : Nat) :
    Nat → Nat → VirtioMemBalloonDevice → IOReturn × VirtioMemBalloonDevice
  | 0, _, d => (.success, d)
  | remaining + 1, i, d =>
    match d.pageBuffers.getLast? with
    | none => (.internalError, d.log .nullBuffer)
    | some buffer =>
      let d := d.setObject .deflating buffer
      let d := (d.log (.subtracted numPages 1)).log (.subtracted (sub32 numPages 1) i)
      let d := d.removeObject .pages (sub32 (sub32 numPages 1) i)
      let segment := calls.getPhysicalSegment buffer 0
      if segment.1 = 0 ∨ segment.2 < pageSize then (.internalError, d)
      else deflatePages calls numPages remaining (i + 1)
        (d.setPageAddress i (segment.1 / 4096 % 2^32))

/-- The loop of the error path of `inflateMemBalloon`: the last buffer goes, `remaining` times. -/
def dropCreated (which : BufferArray) : Nat → VirtioMemBalloonDevice → VirtioMemBalloonDevice
  | 0, d => d
  | remaining + 1, d =>
    match (d.array which).getLast? with
    | none => d.log .nullBuffer
    | some _ =>
      let count := (d.array which).length
      dropCreated which remaining
        ((d.log (.subtracted count 1)).removeObject which (sub32 count 1))

def submit (calls : BalloonCalls) (queue : BalloonQueue) (d : VirtioMemBalloonDevice) :
    IOReturn × VirtioMemBalloonDevice :=
  if calls.submitBuffersToVirtqueue = .success then
    (.success, { d.log (.submitted queue d.pageAddressArray) with
      outstanding := d.outstanding ++ [⟨queue, d.pageAddressArray⟩] })
  else (calls.submitBuffersToVirtqueue, d)

def submitInflated (calls : BalloonCalls) (which : BufferArray) (result : IOReturn)
    (buffersCreated : Nat) (d : VirtioMemBalloonDevice) : VirtioMemBalloonDevice :=
  let (result, d) := if result = .success then submit calls .inflate d else (result, d)
  if result = .success then d
  else
    let d := { d with
      pageAddresses := fun i => if i < buffersCreated then 0 else d.pageAddresses i }
    { d.dropCreated which buffersCreated with inflateDeflateInProgress := false }

def inflateMemBalloon (calls : BalloonCalls) (numPagesToInflateBy : Nat)
    (d : VirtioMemBalloonDevice) : VirtioMemBalloonDevice :=
  let d := d.begun
  if numPagesToInflateBy ≥ bigChunkPages then
    let chunk := d.created
    let d := (d.createReservedBuffer .bigChunks).setLength bigChunkPages
    let (result, d) := d.listChunk calls chunk bigChunkPages 0
    d.submitInflated calls .bigChunks result 1
  else
    let d := d.setLength numPagesToInflateBy
    let (result, buffersCreated, d) := d.inflatePages calls numPagesToInflateBy 0
    d.submitInflated calls .pages result buffersCreated

/-- The part of `deflateMemBalloon` after the loops: nothing is undone after an error. -/
def submitDeflated (calls : BalloonCalls) (result : IOReturn) (d : VirtioMemBalloonDevice) :
    VirtioMemBalloonDevice :=
  if result = .success then (submit calls .deflate d).2 else d

def deflateMemBalloon (calls : BalloonCalls) (numPagesToDeflateBy : Nat)
    (d : VirtioMemBalloonDevice) : VirtioMemBalloonDevice :=
  let d := d.begun
  let numBigChunks := d.bigChunkBuffers.length
  if numPagesToDeflateBy ≥ bigChunkPages ∧ numBigChunks > 0 then
    match d.bigChunkBuffers.getLast? with
    | none => d.log .nullBuffer
    | some chunk =>
      let d := d.setObject .deflating chunk
      let d := d.log (.subtracted numBigChunks 1)
      let d := d.removeObject .bigChunks (sub32 numBigChunks 1)
      let d := d.setLength bigChunkPages
      let (result, d) := d.listChunk calls chunk bigChunkPages 0
      d.submitDeflated calls result
  else
    let numPages := d.pageBuffers.length
    if numPagesToDeflateBy > numPages then
      -- convert 1 big chunk into 512 pages
      let d := d.log (.subtracted bigChunkPages numPagesToDeflateBy)
      d.inflateMemBalloon calls (sub32 bigChunkPages numPagesToDeflateBy)
    else
      let numPagesToDeflateBy := min numPagesToDeflateBy bigChunkPages
      let d := d.setLength numPagesToDeflateBy
      let (result, d) := d.deflatePages calls numPages numPagesToDeflateBy 0
      d.submitDeflated calls result

def inflateDeflateIfNecessary (calls : BalloonCalls) (numPagesRequested : Nat)
    (d : VirtioMemBalloonDevice) : VirtioMemBalloonDevice :=
  if d.inflateDeflateInProgress then d
  else
    let total := d.totalPagesAllocated
    if total = numPagesRequested then d
    else if total < numPagesRequested then
      let d := d.log (.subtracted numPagesRequested total)
      d.inflateMemBalloon calls (sub32 numPagesRequested total)
    else
      let d := d.log (.subtracted total numPagesRequested)
      d.deflateMemBalloon calls (sub32 total numPagesRequested)

/-- `inflateRequestCompleted` and `deflateRequestCompleted` up to the point where the target
is read; the request is no longer with the device. -/
def requestReturned (queue : BalloonQueue) (d : VirtioMemBalloonDevice) :
    VirtioMemBalloonDevice :=
  let d := { d with inflateDeflateInProgress := false }
  let d := match queue with
    | .inflate => d
    | .deflate => d.flushCollection .deflating
  { d with actualPages := d.totalPagesAllocated }

/-- The device returns its oldest request, and the completion runs. With `deviceReset` it
only clears the flag. -/
def requestCompleted (calls : BalloonCalls) (deviceReset : Bool) (d : VirtioMemBalloonDevice) :
    VirtioMemBalloonDevice :=
  match d.outstanding with
  | [] => d
  | request :: rest =>
    let d := { d with outstanding := rest }
    if deviceReset then { d with inflateDeflateInProgress := false }
    else
      let d := d.requestReturned request.queue
      d.inflateDeflateIfNecessary calls d.numRequestedPages

end VirtioMemBalloonDevice

end VirtioOsx
