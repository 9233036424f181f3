import VirtioOsx.BlockDevice

/-! Which part of the disk a read or a write is for. The device is told a sector, the checks
are made in bytes, and all products are of 64 bits. -/
namespace VirtioOsx

structure BlockGeometry (d : VirtioBlockDevice) : Prop where
  blockSize : d.blockSize < 2^32
  positive : 0 < d.blockSize
  sectors : d.blockSize = 512 * (d.blockSize / 512)
  sectorsPerBlock : d.sectorsPerBlock = d.blockSize / 512
  capacity : d.capacityInBytes < 2^64

/-- The blocks are on the disk and in the buffer, and they are what `request` asks for. -/
structure InRange (args : ReadWriteArgs) (d : VirtioBlockDevice)
    (request : Option VirtioBlockDeviceRequest) : Prop where
  disk : (args.block + args.nblks) * d.blockSize ≤ d.capacityInBytes
  buffer : args.nblks * d.blockSize ≤ args.buffer.length
  length : ∀ r, request = some r → r.length = args.nblks * d.blockSize
  sector : ∀ r, request = some r → r.header.sector = args.block * (d.blockSize / 512)
  bytes : ∀ r, request = some r → r.header.sector * 512 + r.length ≤ d.capacityInBytes

/-- The call ends with `kIOReturnBadArgument`: by one of its checks, for its direction, or
because the transport says so. -/
def RejectsReadWrite (args : ReadWriteArgs) (submit : IOReturn) (d : VirtioBlockDevice) : Prop :=
  args.buffer.length < args.nblks * d.blockSize % 2^64 ∨
  d.capacityInBytes < (args.block + args.nblks) % 2^64 * d.blockSize % 2^64 ∨
  (d.requestPool ≠ [] ∧ ((args.direction ≠ .input ∧ args.direction ≠ .output) ∨
    (d.pendingRequests = [] ∧ submit = .badArgument)))

namespace VirtioBlockDevice

variable {d : VirtioBlockDevice} {args : ReadWriteArgs}

theorem submitOrDefer_request (submit : IOReturn) (request : Nat) (call : BlockCall)
    (d : VirtioBlockDevice) : (d.submitOrDefer submit request call).2.requests request =
      { d.requests request with serial := d.accepted.length } := by
  rw [submitOrDefer]
  dsimp only
  by_cases full : (if d.pendingRequests = [] then submit else .noSpace) = .noSpace ∨
      (if d.pendingRequests = [] then submit else .noSpace) = .busy
  · rw [if_pos full]
    exact Function.update_self ..
  rw [if_neg full]
  by_cases taken : (if d.pendingRequests = [] then submit else .noSpace) = .success
  · rw [if_pos taken]
    exact Function.update_self ..
  · rw [if_neg taken]
    exact Function.update_self ..

/-- A request that has been deferred is as good as one that has been taken. -/
theorem submitOrDefer_result (submit : IOReturn) (request : Nat) (call : BlockCall)
    (d : VirtioBlockDevice) : (d.submitOrDefer submit request call).1 = .badArgument ↔
      d.pendingRequests = [] ∧ submit = .badArgument := by
  rw [submitOrDefer]
  dsimp only
  by_cases waiting : d.pendingRequests = []
  · simp only [waiting,if_true,true_and]
    split
    · rename_i full
      rcases full with rfl | rfl <;> simp [IOReturn.noSpace]
    split
    · rename_i taken
      simp [taken]
    · exact Iff.rfl
  · simp [waiting]

theorem finishReadWrite_prepared (submit : IOReturn) (request : Nat) (call : BlockCall)
    (d : VirtioBlockDevice) :
    ((d.finishReadWrite submit request call).device.requests request).header =
      (d.requests request).header ∧
    ((d.finishReadWrite submit request call).device.requests request).length =
      (d.requests request).length := by
  have same := d.submitOrDefer_request submit request call
  rw [finishReadWrite]
  dsimp only
  split
  · simp [modifyRequest,returnRequestToPool,same]
  · simp [same]

theorem finishReadWrite_result (submit : IOReturn) (request : Nat) (call : BlockCall)
    (d : VirtioBlockDevice) :
    (d.finishReadWrite submit request call).result = some .badArgument ↔
      d.pendingRequests = [] ∧ submit = .badArgument := by
  rw [← d.submitOrDefer_result submit request call,finishReadWrite]
  dsimp only
  split <;> simp

def prepared (args : ReadWriteArgs) (submit : IOReturn) (d : VirtioBlockDevice) :
    Option VirtioBlockDeviceRequest :=
  d.requestPool.head?.map (d.doAsyncReadWriteOnWorkLoop args submit).device.requests

/-- A call that gets past the two checks takes a request object, if there is one. -/
theorem doAsyncReadWriteOnWorkLoop_checked (submit : IOReturn)
    (long : ¬args.buffer.length < args.nblks * d.blockSize % 2^64)
    (inside : ¬d.capacityInBytes < (args.block + args.nblks) % 2^64 * d.blockSize % 2^64) :
    (d.requestPool = [] ∧ (d.doAsyncReadWriteOnWorkLoop args submit).result = none ∧
      prepared args submit d = none) ∨
    (d.requestPool ≠ [] ∧ (args.direction ≠ .input ∧ args.direction ≠ .output) ∧
      (d.doAsyncReadWriteOnWorkLoop args submit).result = some .badArgument) ∨
    (d.requestPool ≠ [] ∧ (args.direction = .input ∨ args.direction = .output) ∧
      ((d.doAsyncReadWriteOnWorkLoop args submit).result = some .badArgument ↔
        d.pendingRequests = [] ∧ submit = .badArgument) ∧
      ∃ r, prepared args submit d = some r ∧
        r.header.sector = args.block * d.sectorsPerBlock % 2^64 ∧
        r.length = args.nblks * d.blockSize % 2^64) := by
  unfold prepared doAsyncReadWriteOnWorkLoop
  rw [if_neg long,if_neg inside]
  cases pool : d.requestPool with
  | nil => exact .inl ⟨rfl,rfl,rfl⟩
  | cons request rest =>
    refine .inr ?_
    have finished (type : VirtioBlockRequestType) (subranges : List SSDCMemoryDescriptorSubrange) :
        let ret := finishReadWrite submit request
          (.readWrite args.completion (args.nblks * d.blockSize % 2^64))
          ({ d with requestPool := rest }.modifyRequest request <|
            prepareReadWrite args type (args.block * d.sectorsPerBlock % 2^64)
              (args.nblks * d.blockSize % 2^64) subranges)
        (ret.device.requests request).header.sector = args.block * d.sectorsPerBlock % 2^64 ∧
          (ret.device.requests request).length = args.nblks * d.blockSize % 2^64 := by
      dsimp only
      rw [(finishReadWrite_prepared ..).1,(finishReadWrite_prepared ..).2]
      simp [modifyRequest,prepareReadWrite]
    cases direction : args.direction with
    | none => exact .inl ⟨by simp,⟨by simp,by simp⟩,rfl⟩
    | inOut => exact .inl ⟨by simp,⟨by simp,by simp⟩,rfl⟩
    | input =>
      exact .inr ⟨by simp,.inl rfl,finishReadWrite_result ..,_,rfl,finished _ _⟩
    | output =>
      exact .inr ⟨by simp,.inr rfl,finishReadWrite_result ..,_,rfl,finished _ _⟩

theorem rejects_iff (args : ReadWriteArgs) (submit : IOReturn) (d : VirtioBlockDevice) :
    (d.doAsyncReadWriteOnWorkLoop args submit).result = some .badArgument ↔
      RejectsReadWrite args submit d := by
  by_cases short : args.buffer.length < args.nblks * d.blockSize % 2^64
  · have rejected : (d.doAsyncReadWriteOnWorkLoop args submit).result = some .badArgument := by
      rw [doAsyncReadWriteOnWorkLoop,if_pos short]
    exact ⟨fun _ => .inl short,fun _ => rejected⟩
  by_cases outside : d.capacityInBytes < (args.block + args.nblks) % 2^64 * d.blockSize % 2^64
  · have rejected : (d.doAsyncReadWriteOnWorkLoop args submit).result = some .badArgument := by
      rw [doAsyncReadWriteOnWorkLoop,if_neg short]
      exact congrArg BlockCallReturn.result (if_pos outside)
    exact ⟨fun _ => .inr (.inl outside),fun _ => rejected⟩
  unfold RejectsReadWrite
  rcases doAsyncReadWriteOnWorkLoop_checked submit short outside with
    ⟨empty,sleeps,_⟩ | ⟨some,neither,rejected⟩ | ⟨some,either,rejected,_⟩
  · rw [sleeps]
    refine ⟨nofun,?_⟩
    rintro (tooShort | tooFar | ⟨some,_⟩)
    · exact absurd tooShort short
    · exact absurd tooFar outside
    · exact absurd empty some
  · exact ⟨fun _ => .inr (.inr ⟨some,.inl neither⟩),fun _ => rejected⟩
  · rw [rejected]
    simp only [short,outside,some,false_or,ne_eq,not_false_eq_true,true_and,iff_or_self]
    rintro ⟨input,output⟩
    rcases either with reads | writes
    · exact absurd reads input
    · exact absurd writes output

/-- Nothing wraps if the end of the last block does not. -/
theorem products_exact (geometry : BlockGeometry d)
    (exact : (args.block + args.nblks) * d.blockSize < 2^64) :
    (args.block + args.nblks) % 2^64 * d.blockSize % 2^64 =
      (args.block + args.nblks) * d.blockSize ∧
    args.nblks * d.blockSize % 2^64 = args.nblks * d.blockSize ∧
    args.block * d.sectorsPerBlock % 2^64 = args.block * (d.blockSize / 512) ∧
    args.block * (d.blockSize / 512) * 512 = args.block * d.blockSize := by
  have count : args.block + args.nblks ≤ (args.block + args.nblks) * d.blockSize :=
    Nat.le_mul_of_pos_right _ geometry.positive
  have split := Nat.add_mul args.block args.nblks d.blockSize
  have bytes : args.block * (d.blockSize / 512) * 512 = args.block * d.blockSize := by
    rw [Nat.mul_assoc,Nat.mul_comm _ 512,← geometry.sectors]
  refine ⟨?_,Nat.mod_eq_of_lt (by omega),?_,bytes⟩
  · rw [Nat.mod_eq_of_lt (show args.block + args.nblks < 2^64 by omega),Nat.mod_eq_of_lt exact]
  · rw [geometry.sectorsPerBlock]
    exact Nat.mod_eq_of_lt (by omega)

end VirtioBlockDevice

open VirtioBlockDevice

/-- A call that is not rejected is for blocks that are on the disk exactly if the number of the
byte behind them does not wrap; the check compares what is left of it. -/
theorem range_checked_iff (args : ReadWriteArgs) (submit : IOReturn) (d : VirtioBlockDevice)
    (geometry : BlockGeometry d) :
    ((d.doAsyncReadWriteOnWorkLoop args submit).result ≠ some .badArgument →
        InRange args d (prepared args submit d)) ↔
      ((args.block + args.nblks) * d.blockSize < 2^64 ∨ RejectsReadWrite args submit d) := by
  rw [ne_eq,rejects_iff]
  constructor
  · intro inside
    by_contra wraps
    rw [not_or] at wraps
    have := (inside wraps.2).disk
    have := geometry.capacity
    omega
  · rintro (exact | rejected) accepted
    · obtain ⟨ends,length,sector,bytes⟩ := products_exact geometry exact
      have split := Nat.add_mul args.block args.nblks d.blockSize
      have long : ¬args.buffer.length < args.nblks * d.blockSize % 2^64 :=
        fun short => accepted (.inl short)
      have inside : ¬d.capacityInBytes < (args.block + args.nblks) % 2^64 * d.blockSize % 2^64 :=
        fun outside => accepted (.inr (.inl outside))
      have request : ∀ r, prepared args submit d = some r →
          r.header.sector = args.block * (d.blockSize / 512) ∧
            r.length = args.nblks * d.blockSize := by
        intro r here
        rcases doAsyncReadWriteOnWorkLoop_checked submit long inside with
          ⟨_,_,none⟩ | ⟨some,neither,_⟩ | ⟨_,_,_,r',here',sector',length'⟩
        · rw [none] at here
          cases here
        · exact absurd (.inr (.inr ⟨some,.inl neither⟩)) accepted
        · obtain rfl := Option.some.inj (here.symm.trans here')
          rw [sector',length',sector,length]
          exact ⟨rfl,rfl⟩
      rw [ends] at inside
      rw [length] at long
      refine ⟨by omega,by omega,fun r here => (request r here).2,fun r here => (request r here).1,?_⟩
      intro r here
      rw [(request r here).1,(request r here).2,bytes]
      omega
    · exact absurd rejected accepted

theorem range_checked_iff_third :
    BlockGeometry (started 1 512 (2^20)) ∧
    (VirtioBlockDevice.doAsyncReadWriteOnWorkLoop ⟨.input,⟨1,512⟩,2,1,⟨7,8,9⟩⟩ .success
      (started 1 512 (2^20))).result = some .success ∧
    InRange ⟨.input,⟨1,512⟩,2,1,⟨7,8,9⟩⟩ (started 1 512 (2^20))
      (prepared ⟨.input,⟨1,512⟩,2,1,⟨7,8,9⟩⟩ .success (started 1 512 (2^20))) := by
  have geometry : BlockGeometry (started 1 512 (2^20)) :=
    ⟨by decide,by decide,by decide,by decide,by decide⟩
  have accepted : (VirtioBlockDevice.doAsyncReadWriteOnWorkLoop ⟨.input,⟨1,512⟩,2,1,⟨7,8,9⟩⟩
      .success (started 1 512 (2^20))).result = some .success := by decide
  exact ⟨geometry,accepted,(range_checked_iff _ _ _ geometry).mpr (.inl (by decide))
    (by rw [accepted]; simp)⟩

/-- The last block of the 64 bits ends where the disk begins. -/
theorem range_wraps :
    BlockGeometry (started 1 512 (2^20)) ∧
    (VirtioBlockDevice.doAsyncReadWriteOnWorkLoop ⟨.input,⟨1,512⟩,2^64 - 1,1,⟨7,8,9⟩⟩ .success
      (started 1 512 (2^20))).result = some .success ∧
    ((prepared ⟨.input,⟨1,512⟩,2^64 - 1,1,⟨7,8,9⟩⟩ .success (started 1 512 (2^20))).map
      fun r => r.header.sector) = some (2^64 - 1) ∧
    ¬InRange ⟨.input,⟨1,512⟩,2^64 - 1,1,⟨7,8,9⟩⟩ (started 1 512 (2^20))
      (prepared ⟨.input,⟨1,512⟩,2^64 - 1,1,⟨7,8,9⟩⟩ .success (started 1 512 (2^20))) := by
  refine ⟨⟨by decide,by decide,by decide,by decide,by decide⟩,by decide,by decide,fun inside => ?_⟩
  exact absurd inside.disk (by decide)

end VirtioOsx
