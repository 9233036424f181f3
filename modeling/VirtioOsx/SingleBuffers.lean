import VirtioOsx.QueueClient
import VirtioOsx.QueueCapacity

/-! A direct queue to which a driver submits single buffers, each of them contiguous and for the
device to write. It takes as many of them as it has entries. -/
namespace VirtioOsx

open Runs

/-- A command for contiguous memory: one segment, whatever the limit. -/
structure DmaCalls.Contiguous (calls : DmaCalls) (address length : Nat) : Prop where
  attached : calls.setMemoryDescriptor = .success
  emits : ∀ limit, 0 < limit →
    calls.genIOVMSegments.emit limit = ⟨[⟨address, length⟩], .success, length⟩

theorem ScatterList.contiguous (list : ScatterList) (one : list.segments = [⟨address, length⟩]) :
    list.dma.Contiguous address length := by
  refine ⟨rfl,fun limit positive => ?_⟩
  have whole : list.segments.take limit = list.segments :=
    List.take_of_length_le (by rw [one]; exact positive)
  simp only [ScatterList.dma,ScatterList.genIOVMSegments,whole]
  simp [one,byteCount]

structure SubmitCall.Single (call : SubmitCall) : Prop where
  readable : call.readableBuffer = none
  writable : ∃ buf address, call.writableBuffer = some buf ∧
    call.writable.Contiguous address buf.length

theorem SubmitCall.Single.required {call : SubmitCall} (single : call.Single) : call.minDescsRequired = 1 := by
  obtain ⟨buf,_,writable,_⟩ := single.writable
  simp [SubmitCall.minDescsRequired,single.readable,writable]

theorem buildChain_single (unused : Unused q (i :: free)) (fits : (i :: free).length ≤ q.numEntries)
    (direct : q.indirectDescriptors = false) (single : call.Single) :
    ∃ q', buildChain q call = .next (i, q') ∧
      (builtRequest q' i call.completion).descs = [i] := by
  obtain ⟨buf,address,writable,contiguous⟩ := single.writable
  have count := unused.count
  rw [List.length_cons] at count fits
  have positive : 0 < q.numUnusedDescriptors := by omega
  have first : ([] : List Nat).head?.getD uint16Max = uint16Max := rfl
  have walked := submitDeviceWritable_walked (building_nothing unused) rfl fits first buf
    call.completion call.writable contiguous.attached (contiguous.emits _ positive) (by simp)
  have whole : GenOutcome.incomplete ⟨[⟨address, buf.length⟩], .success, buf.length⟩ buf = false := by
    simp [GenOutcome.incomplete]
  rw [if_neg (by simp [whole])] at walked
  obtain ⟨head,chain,exit,start,clear,building⟩ := walked
  obtain rfl : i = head := Int.ofNat.inj start
  have built : buildDirectChain q call = .next (i, chain.queue) := by
    rw [buildDirectChain,single.required,if_neg (by omega),if_neg (by omega),if_neg (by omega)]
    simp only [single.readable,writable,Phase.bind_next]
    rw [exit]
    rfl
  refine ⟨chain.queue,by rw [buildChain_direct direct,built],?_⟩
  have listed := building.grown.listed
  have entries : chain.queue.numEntries = q.numEntries := building.grown.agree.numEntries
  simp only [List.nil_append,List.length_singleton,List.take_succ_cons,List.take_zero] at listed
  exact followNextDesc_eq listed (by rw [List.length_singleton,entries]; omega)

/-- A direct queue in which each request has one descriptor, and none has been lost. -/
structure SingleQueue (n : Nat) (m : Machine) : Prop where
  inv : MachineInv n [] m
  direct : m.queue.indirectDescriptors = false
  single : ∀ r ∈ m.inflight, r.descs.length = 1

namespace SingleQueue

variable {m m' : Machine}

theorem start (inv : MachineInv n [] (.start queue)) (direct : queue.indirectDescriptors = false) :
    SingleQueue n (.start queue) := by
  refine ⟨inv,direct,fun r member => ?_⟩
  simp [Machine.start,Machine.inflight,Machine.unconsumed,Machine.unprocessed,unpublished] at member

/-- The unused descriptors are as many as the requests that there is still room for. -/
theorem room (queue : SingleQueue n m) {free : List Nat}
    (partition : Partition n m.queue free m.inflight []) : free.length + m.inflight.length = n := by
  have owned (inflight : List Request) (single : ∀ r ∈ inflight, r.descs.length = 1) :
      (inflight.flatMap Request.descs).length = inflight.length := by
    induction inflight with
    | nil => rfl
    | cons r rest ih =>
      have first := single r List.mem_cons_self
      have later := ih fun other member => single other (List.mem_cons_of_mem r member)
      rw [List.flatMap_cons,List.length_append,first,later,List.length_cons,Nat.add_comm]
  have total := partition.places.length_eq
  have owned := owned m.inflight queue.single
  simp only [List.length_append,List.length_range,List.length_nil] at total
  omega

/-- While fewer buffers are in flight than the queue has entries, one more is accepted. -/
theorem accepts (queue : SingleQueue n m) (fewer : m.inflight.length < n) (single : call.Single) :
    ∃ i q, buildChain m.queue call = .next (i, q) ∧
      (builtRequest q i call.completion).descs = [i] := by
  obtain ⟨free,partition⟩ := queue.inv.partition
  have room := queue.room partition
  have fits : free.length ≤ m.queue.numEntries := partition.size.symm ▸ partition.fits
  cases free with
  | nil =>
    rw [List.length_nil] at room
    omega
  | cons i free => exact ⟨i,buildChain_single partition.unused fits queue.direct single⟩

theorem transmitted (queue : SingleQueue n m) (fewer : m.inflight.length < n)
    (single : call.Single) (sent : m.transmit call = some (result, m')) :
    result = .success ∧ Transmitted m call result m' ∧ ¬Corrupting m.queue call ∧
      SingleQueue n m' := by
  obtain ⟨i,q,built,chain⟩ := queue.accepts fewer single
  have published : Publishes m call := by
    intro queue left
    rw [built] at left
    cases left
  have succeeds : Succeeds m.queue call := by simp [Succeeds,submitBuffers,built]
  have transmitted := Machine.transmit_cases published sent
  have sound : Sound m (.submit call) := by
    rintro other same
    obtain rfl := Action.submit.inj same
    exact succeeds.not_corrupting
  have gentle : Gentle m (.submit call) := by
    rintro other same
    obtain rfl := Action.submit.inj same
    exact .inl succeeds
  obtain ⟨more,kept,none⟩ := queue.inv.keeps transmitted.moved (.inr gentle)
  rw [none gentle] at kept
  obtain ⟨idle,⟨head,q',again,rfl⟩ | ⟨code,q',left,_⟩⟩ := Machine.submit_cases transmitted.moved
  · obtain ⟨rfl,rfl⟩ := Prod.mk.inj (Phase.next.inj (built.symm.trans again))
    have success : result = .success := by
      rcases transmitted.outcome with accepted | ⟨_,quiet,_⟩
      · exact accepted.1
      · cases quiet
    refine ⟨success,transmitted,sound call rfl,kept,?_,fun r member => ?_⟩
    · exact (queue.inv.mode sound transmitted.moved).trans queue.direct
    · have split : r = builtRequest q i call.completion ∨ r ∈ m.inflight := by
        simpa [Machine.inflight,unpublished,idle,Machine.unconsumed,Machine.unprocessed] using member
      rcases split with rfl | older
      · rw [chain]
        rfl
      · exact queue.single r older
  · rw [built] at left
    cases left

theorem steps (queue : SingleQueue n m) (moved : step a m = some m')
    (quiet : ∀ call, a ≠ .submit call) : SingleQueue n m' := by
  have sound : Sound m a := fun call same => absurd same (quiet call)
  have gentle : Gentle m a := fun call same => absurd same (quiet call)
  obtain ⟨more,kept,none⟩ := queue.inv.keeps moved (.inr gentle)
  rw [none gentle] at kept
  refine ⟨kept,(queue.inv.mode sound moved).trans queue.direct,fun r member => ?_⟩
  by_cases advancing : a = .advance
  · subst a
    obtain ⟨_,call,result,_,_,rfl⟩ := Machine.advance_cases moved
    exact queue.single r (mem_inflight_processed member)
  · have untouched := queue.inv.untouched moved quiet advancing
    exact queue.single r (untouched.inflight.mem_iff.mpr member)

end SingleQueue

end VirtioOsx
