import VirtioOsx.SCSITaskPools

/-! How many bytes of a SCSI task the family is told to have been transferred. The size that is
described to the device and the size that the residual is taken from are computed by two
functions, one for the submission and one for the completion. -/
namespace VirtioOsx

/-- The length of the data range among those of the task; it is the second of them. -/
def SCSITask.describedSize (task : SCSITask) : Nat :=
  (task.subrange[1]?.map MemoryDescriptorSubrange.length).getD 0

namespace ParallelTask

structure DataInBuffer (t : ParallelTask) : Prop where
  count : t.requestedDataTransferCount < 2^64
  buffer : ∀ buffer, t.dataBuffer = some buffer →
    buffer.length < 2^64 ∧ t.dataBufferOffset ≤ buffer.length

/-- The room for data behind the offset; nothing is transferred without a direction. -/
def room (t : ParallelTask) : Nat :=
  if t.direction = .noDataTransfer then 0
  else match t.dataBuffer with
    | none => 0
    | some buffer => buffer.length - t.dataBufferOffset

theorem DataInBuffer.dataSize {t : ParallelTask} (valid : t.DataInBuffer)
    (data : t.direction ≠ .noDataTransfer) :
    t.dataSize = min t.requestedDataTransferCount t.room := by
  unfold ParallelTask.dataSize room
  rw [if_neg data]
  cases given : t.dataBuffer with
  | none => rfl
  | some buffer =>
    obtain ⟨small,inside⟩ := valid.buffer buffer given
    have offset : t.dataBufferOffset % 2^64 = t.dataBufferOffset := Nat.mod_eq_of_lt (by omega)
    simp only [offset]
    congr 1
    omega

end ParallelTask

namespace VirtioSCSIController

variable {c c₁ c₂ : VirtioSCSIController} {t : ParallelTask} {calls : TaskCalls}

/-- The ranges of a task that is in process are those that were described to the device. -/
theorem inProcess_ranges
    (processed : c.processParallelTaskInGate t calls = some (.requestInProcess, c₁)) :
    (c₁.task t.identifier).subrange = t.ranges.1 := by
  obtain ⟨multi,sub,multiMD,_,_,submitted⟩ := processParallelTaskInGate_cases processed
  unfold submitTask at submitted
  split at submitted
  · obtain ⟨_,rfl⟩ := Prod.mk.inj submitted
    simp only [Function.update_self]
  · cases submitted

theorem inProcess_describedSize (valid : t.DataInBuffer)
    (processed : c.processParallelTaskInGate t calls = some (.requestInProcess, c₁)) :
    (c₁.task t.identifier).describedSize = min t.requestedDataTransferCount t.room := by
  rw [SCSITask.describedSize,inProcess_ranges processed]
  unfold ParallelTask.ranges
  cases direction : t.direction with
  | noDataTransfer => simp [ParallelTask.room,direction]
  | fromInitiatorToTarget => exact valid.dataSize (by simp [direction])
  | fromTargetToInitiator => exact valid.dataSize (by simp [direction])

theorem parallelTaskCompleted_good (c : VirtioSCSIController) (t : ParallelTask) (residual : Nat) :
    (c.parallelTaskCompleted t false ⟨residual, statusGood, responseOk⟩).completions =
      c.completions ++ [⟨t.identifier, .reported statusGood, .taskComplete,
        some ((t.requestedDataTransferCount + 2^64 - residual) % 2^64)⟩] := by
  simp only [parallelTaskCompleted,Bool.false_eq_true,if_false,if_true]
  rfl

end VirtioSCSIController

open VirtioSCSIController

variable {c c₁ c₂ : VirtioSCSIController} {t : ParallelTask} {calls : TaskCalls}

/-- A task that has been described to the device and comes back with good status, at any later
time: what the family is told is the described size less the residual exactly if the family
did not ask for more than there was room for. -/
theorem realized_count_iff {residual : Nat} (valid : t.DataInBuffer)
    (processed : c.processParallelTaskInGate t calls = some (.requestInProcess, c₁))
    (waiting : t ∈ c₂.outstanding)
    (described : residual ≤ (c₁.task t.identifier).describedSize) :
    ∃ c₃ realized,
      scsiStep (.parallelTaskCompleted t false ⟨residual, statusGood, responseOk⟩) c₂ = some c₃ ∧
      c₃.completions = c₂.completions ++
        [⟨t.identifier, .reported statusGood, .taskComplete, some realized⟩] ∧
      (realized + residual = (c₁.task t.identifier).describedSize ↔
        t.requestedDataTransferCount ≤ t.room) := by
  refine ⟨_,_,if_pos waiting,parallelTaskCompleted_good c₂ t residual,?_⟩
  rw [inProcess_describedSize valid processed] at described ⊢
  have := valid.count
  have exact : (t.requestedDataTransferCount + 2^64 - residual) % 2^64 =
      t.requestedDataTransferCount - residual := by omega
  rw [exact]
  omega

def countedTask (count : Nat) : ParallelTask :=
  { readTask 0 0 with requestedDataTransferCount := count }

theorem countedTask_inBuffer (small : count < 2^64) : (countedTask count).DataInBuffer := by
  refine ⟨small,fun buffer given => ?_⟩
  obtain rfl := Option.some.inj given
  exact ⟨by decide,Nat.zero_le _⟩

def countedCompletions (count residual : Nat) : Option (List CompleteParallelTask) :=
  (initializeController twoTasks).bind fun c =>
  (c.processParallelTaskInGate (countedTask count) ⟨0, 0, .success⟩).bind fun (_, c) =>
  (scsiStep (.parallelTaskCompleted (countedTask count) false
    ⟨residual, statusGood, responseOk⟩) c).map completions

theorem realized_count_iff_short :
    ∃ c c₁ c₃, initializeController twoTasks = some c ∧
      c.processParallelTaskInGate (countedTask 512) ⟨0, 0, .success⟩ =
        some (.requestInProcess, c₁) ∧
      scsiStep (.parallelTaskCompleted (countedTask 512) false ⟨12, statusGood, responseOk⟩) c₁ =
        some c₃ ∧
      ∃ realized, c₃.completions = c₁.completions ++
          [⟨0, .reported statusGood, .taskComplete, some realized⟩] ∧
        realized + 12 = (c₁.task 0).describedSize := by
  have begun : ((initializeController twoTasks).bind fun c =>
      (c.processParallelTaskInGate (countedTask 512) ⟨0, 0, .success⟩).map fun (response, c₁) =>
        (response,c₁.outstanding,(c₁.task 0).describedSize)) =
      some (.requestInProcess,[countedTask 512],512) := by decide +kernel
  obtain ⟨c,initialized,begun⟩ := Option.bind_eq_some_iff.mp begun
  obtain ⟨⟨response,c₁⟩,processed,seen⟩ := Option.map_eq_some_iff.mp begun
  simp only [Prod.mk.injEq] at seen
  obtain ⟨rfl,outstanding,size⟩ := seen
  have described : (c₁.task (countedTask 512).identifier).describedSize = 512 := size
  have less : 12 ≤ (c₁.task (countedTask 512).identifier).describedSize := by
    rw [described]
    decide
  obtain ⟨c₃,realized,completed,reported,agrees⟩ := realized_count_iff
    (countedTask_inBuffer (by decide)) processed
    (by rw [outstanding]; exact List.mem_singleton_self _) less
  exact ⟨c,c₁,c₃,initialized,processed,completed,realized,reported,agrees.mpr (by decide)⟩

/-- 8192 bytes are asked for and 4096 described; all of these are transferred, and 8192 is what
the family is told. -/
theorem realized_count_exceeds :
    (countedTask 8192).DataInBuffer ∧
    countedCompletions 8192 0 = some [⟨0, .reported statusGood, .taskComplete, some 8192⟩] ∧
    ((initializeController twoTasks).bind fun c =>
      (c.processParallelTaskInGate (countedTask 8192) ⟨0, 0, .success⟩).map fun (_, c₁) =>
        (c₁.task 0).describedSize) = some 4096 :=
  ⟨countedTask_inBuffer (by decide),by decide +kernel,by decide +kernel⟩

end VirtioOsx
