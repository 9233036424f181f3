import Mathlib.Data.List.Perm.Subperm
import VirtioOsx.Lib.Threaded
import VirtioOsx.Virtqueue

/-! What `reserveNewDescriptor`, `returnUnusedDescriptor` and the release loops do to
the list of unused descriptors. Every list here is threaded through `next_desc` and
ends at -1. -/
namespace VirtioOsx

/-- Following `next_desc` from `start` lists these descriptors and ends at -1. -/
abbrev Listed (next : Nat → Int) (start : Int) (nodes : List Nat) : Prop :=
  Threaded.Linked (fun i : Nat => (i : Int)) (-1) next start nodes

/-- The unused list as the driver keeps it: distinct indices in `int16_t` range,
threaded from `first_unused_descriptor_index` and counted. -/
structure Unused (q : VirtioVirtqueue) (free : List Nat) : Prop where
  listed : Listed q.nextDesc q.firstUnusedDescriptorIndex free
  count : q.numUnusedDescriptors = free.length
  nodup : free.Nodup
  small : ∀ i ∈ free, i < 32768

/-- Lists of distinct `int16_t` indices are short. -/
theorem length_le_of_small {nodes : List Nat} (nodup : nodes.Nodup) (small : ∀ i ∈ nodes, i < n) :
    nodes.length ≤ n := by
  have inside : nodes ⊆ List.range n := fun i member => List.mem_range.mpr (small i member)
  simpa using (nodup.subperm inside).length_le

theorem Unused.length_le (unused : Unused q free) : free.length ≤ 32768 :=
  length_le_of_small unused.nodup unused.small

theorem Unused.exists_cons (unused : Unused q free) (some : 0 < q.numUnusedDescriptors) :
    ∃ i rest, free = i :: rest :=
  List.exists_cons_of_length_pos (by rwa [← unused.count])

/-- Equality of everything but the descriptors of `touched` and the unused list. -/
structure Agree (touched : List Nat) (q q' : VirtioVirtqueue) : Prop where
  numEntries : q'.numEntries = q.numEntries
  availableRing : q'.availableRing = q.availableRing
  usedRing : q'.usedRing = q.usedRing
  usedRingLastHeadIndex : q'.usedRingLastHeadIndex = q.usedRingLastHeadIndex
  interruptsRequested : q'.interruptsRequested = q.interruptsRequested
  indirectDescriptors : q'.indirectDescriptors = q.indirectDescriptors
  buffers : ∀ i, i ∉ touched → q'.descriptorBuffers i = q.descriptorBuffers i
  table : ∀ i, i ∉ touched → q'.descriptorTable i = q.descriptorTable i

theorem Agree.refl (touched : List Nat) (q : VirtioVirtqueue) : Agree touched q q :=
  ⟨rfl,rfl,rfl,rfl,rfl,rfl,fun _ _ => rfl,fun _ _ => rfl⟩

theorem Agree.trans (first : Agree touched q q') (second : Agree touched q' q'') :
    Agree touched q q'' where
  numEntries := second.numEntries.trans first.numEntries
  availableRing := second.availableRing.trans first.availableRing
  usedRing := second.usedRing.trans first.usedRing
  usedRingLastHeadIndex := second.usedRingLastHeadIndex.trans first.usedRingLastHeadIndex
  interruptsRequested := second.interruptsRequested.trans first.interruptsRequested
  indirectDescriptors := second.indirectDescriptors.trans first.indirectDescriptors
  buffers i apart := (second.buffers i apart).trans (first.buffers i apart)
  table i apart := (second.table i apart).trans (first.table i apart)

theorem Agree.mono (agree : Agree touched q q') (wider : touched ⊆ more) : Agree more q q' :=
  { agree with
    buffers := fun i apart => agree.buffers i (fun member => apart (wider member))
    table := fun i apart => agree.table i (fun member => apart (wider member)) }

theorem Agree.nextDesc (agree : Agree touched q q') (apart : i ∉ touched) :
    q'.nextDesc i = q.nextDesc i :=
  congrArg VirtioBuffer.nextDesc (agree.buffers i apart)

theorem Agree.completion (agree : Agree touched q q') (apart : i ∉ touched) :
    q'.completion i = q.completion i :=
  congrArg VirtioBuffer.completion (agree.buffers i apart)

theorem Agree.listed (agree : Agree touched q q') (apart : ∀ i ∈ nodes, i ∉ touched)
    (listed : Listed q.nextDesc start nodes) : Listed q'.nextDesc start nodes :=
  Threaded.Linked.congr (fun i member => agree.nextDesc (apart i member)) listed

namespace VirtioVirtqueue

@[simp] theorem modifyBuffer_numEntries (q : VirtioVirtqueue) (i : Nat) (f) :
    (q.modifyBuffer i f).numEntries = q.numEntries := rfl

@[simp] theorem modifyBuffer_first (q : VirtioVirtqueue) (i : Nat) (f) :
    (q.modifyBuffer i f).firstUnusedDescriptorIndex = q.firstUnusedDescriptorIndex := rfl

@[simp] theorem modifyBuffer_count (q : VirtioVirtqueue) (i : Nat) (f) :
    (q.modifyBuffer i f).numUnusedDescriptors = q.numUnusedDescriptors := rfl

@[simp] theorem modifyBuffer_table (q : VirtioVirtqueue) (i : Nat) (f) :
    (q.modifyBuffer i f).descriptorTable = q.descriptorTable := rfl

@[simp] theorem modifyBuffer_same (q : VirtioVirtqueue) (i : Nat) (f) :
    (q.modifyBuffer i f).descriptorBuffers i = f (q.descriptorBuffers i) := by
  simp [modifyBuffer]

@[simp] theorem modifyBuffer_other (q : VirtioVirtqueue) (f) (different : j ≠ i) :
    (q.modifyBuffer i f).descriptorBuffers j = q.descriptorBuffers j := by
  simp [modifyBuffer,different]

/-- A field that `f` leaves alone is left alone everywhere. -/
theorem modifyBuffer_field (q : VirtioVirtqueue) (i j : Nat) (f) (field : VirtioBuffer → α)
    (kept : ∀ b, field (f b) = field b) :
    field ((q.modifyBuffer i f).descriptorBuffers j) = field (q.descriptorBuffers j) := by
  by_cases same : j = i
  · subst j; rw [modifyBuffer_same, kept]
  · rw [modifyBuffer_other q f same]

theorem modifyBuffer_nextDesc (q : VirtioVirtqueue) (i : Nat) (f)
    (kept : ∀ b, (f b).nextDesc = b.nextDesc) : (q.modifyBuffer i f).nextDesc = q.nextDesc :=
  funext fun j => modifyBuffer_field q i j f VirtioBuffer.nextDesc kept

/-- Setting `next_desc` of one descriptor updates the map of links. -/
theorem nextDesc_set (q : VirtioVirtqueue) (i : Nat) (link : Int) :
    (q.modifyBuffer i fun b => { b with nextDesc := link }).nextDesc =
      Function.update q.nextDesc i link := by
  funext j
  by_cases same : j = i
  · subst j; simp [nextDesc]
  · simp [nextDesc,same]

end VirtioVirtqueue

theorem agree_modifyBuffer (q : VirtioVirtqueue) (f) (member : i ∈ touched) :
    Agree touched q (q.modifyBuffer i f) :=
  { Agree.refl touched q with
    buffers := fun j apart =>
      VirtioVirtqueue.modifyBuffer_other q f (fun same => apart (by rwa [same])) }

/-- The unused list depends on its head, its count and the links of its own members. -/
theorem Unused.congr (unused : Unused q free)
    (first : q'.firstUnusedDescriptorIndex = q.firstUnusedDescriptorIndex)
    (count : q'.numUnusedDescriptors = q.numUnusedDescriptors)
    (same : ∀ i ∈ free, q'.nextDesc i = q.nextDesc i) : Unused q' free :=
  ⟨by rw [first]; exact unused.listed.congr same,count.trans unused.count,unused.nodup,unused.small⟩

theorem Unused.modifyBuffer (unused : Unused q free) (f) (kept : ∀ b, (f b).nextDesc = b.nextDesc) :
    Unused (q.modifyBuffer i f) free :=
  unused.congr rfl rfl fun j _ => congrFun (VirtioVirtqueue.modifyBuffer_nextDesc q i f kept) j

def reserved (q : VirtioVirtqueue) (i : Nat) : VirtioVirtqueue :=
  { q with
    firstUnusedDescriptorIndex := q.nextDesc i
    numUnusedDescriptors := (q.numUnusedDescriptors + (2^32 - 1)) % 2^32 }

theorem reserveNewDescriptor_cons (unused : Unused q (i :: free)) :
    reserveNewDescriptor q = ((i : Int), reserved q i) := by
  have first : q.firstUnusedDescriptorIndex = i := unused.listed.1
  simp [reserveNewDescriptor,reserved,first]

theorem reserveNewDescriptor_nil (unused : Unused q []) : reserveNewDescriptor q = (-1, q) := by
  have first : q.firstUnusedDescriptorIndex = -1 := unused.listed
  simp [reserveNewDescriptor,first]

theorem Unused.reserve (unused : Unused q (i :: free)) : Unused (reserved q i) free where
  listed := unused.listed.2
  count := by
    have count := unused.count
    have short := unused.length_le
    simp only [List.length_cons] at count short
    simp only [reserved]
    omega
  nodup := unused.nodup.of_cons
  small := fun j member => unused.small j (List.mem_cons_of_mem i member)

theorem agree_reserved (touched : List Nat) (q : VirtioVirtqueue) (i : Nat) :
    Agree touched q (reserved q i) :=
  ⟨rfl,rfl,rfl,rfl,rfl,rfl,fun _ _ => rfl,fun _ _ => rfl⟩

theorem agree_returnUnusedDescriptor (q : VirtioVirtqueue) (member : i ∈ touched) :
    Agree touched q (returnUnusedDescriptor q i) := by
  refine ⟨rfl,rfl,rfl,rfl,rfl,rfl,fun j apart => ?_,fun _ _ => rfl⟩
  have different : j ≠ i := fun same => apart (by rwa [same])
  simp [returnUnusedDescriptor,VirtioVirtqueue.modifyBuffer,different]

theorem nextDesc_returnUnusedDescriptor (q : VirtioVirtqueue) (i : Nat) :
    (returnUnusedDescriptor q i).nextDesc =
      Function.update q.nextDesc i q.firstUnusedDescriptorIndex :=
  VirtioVirtqueue.nextDesc_set { q with numUnusedDescriptors := _ } i _

theorem Unused.giveBack (unused : Unused q free) (apart : i ∉ free) (bound : i < 32768) :
    Unused (returnUnusedDescriptor q i) (i :: free) where
  listed := by
    rw [nextDesc_returnUnusedDescriptor]
    have first : (returnUnusedDescriptor q i).firstUnusedDescriptorIndex = (i : Int) :=
      int16_cast i bound
    rw [first]
    exact unused.listed.push apart
  count := by
    have count := unused.count
    have short := unused.length_le
    simp only [returnUnusedDescriptor,VirtioVirtqueue.modifyBuffer,List.length_cons]
    omega
  nodup := List.nodup_cons.mpr ⟨apart,unused.nodup⟩
  small := by
    intro j member
    rcases List.mem_cons.mp member with rfl | member
    · exact bound
    · exact unused.small j member

structure Neutral (visit : Nat → VirtioVirtqueue → VirtioVirtqueue) : Prop where
  nextDesc : ∀ i q, (visit i q).nextDesc = q.nextDesc
  first : ∀ i q, (visit i q).firstUnusedDescriptorIndex = q.firstUnusedDescriptorIndex
  count : ∀ i q, (visit i q).numUnusedDescriptors = q.numUnusedDescriptors
  agree : ∀ i q, Agree [i] q (visit i q)

theorem Unused.visited (neutral : Neutral visit) (unused : Unused q free) :
    Unused (visit i q) free :=
  unused.congr (neutral.first i q) (neutral.count i q) fun j _ => congrFun (neutral.nextDesc i q) j

theorem releaseChain_end (visit : Nat → VirtioVirtqueue → VirtioVirtqueue) (steps : Nat)
    (q : VirtioVirtqueue) : releaseChain visit steps (-1) q = some q := by
  cases steps <;> rfl

/-- What one round of a release loop keeps, the loop keeps, wherever it goes. -/
theorem releaseChain_keeps (holds : VirtioVirtqueue → Prop)
    (kept : ∀ i q, holds q → holds (returnUnusedDescriptor (visit i q) i))
    (released : releaseChain visit steps start q = some q') : holds q → holds q' := by
  induction steps generalizing q start with
  | zero =>
    rw [releaseChain] at released
    split at released
    · rw [Option.some.inj released]
      exact id
    · cases released
  | succ steps ih =>
    rw [releaseChain] at released
    split at released
    · rw [Option.some.inj released]
      exact id
    · exact fun before => ih released (kept _ q before)

/-- A release loop started on a chain apart from the unused list hands back the whole
chain and nothing else. The chain arrives in reverse order. -/
theorem releaseChain_spec (neutral : Neutral visit) (unused : Unused q free)
    (listed : Listed q.nextDesc start chain) (nodup : chain.Nodup)
    (apart : ∀ i ∈ chain, i ∉ free) (small : ∀ i ∈ chain, i < 32768) (fuel : chain.length ≤ steps) :
    ∃ q', releaseChain visit steps start q = some q' ∧ Unused q' (chain.reverse ++ free) ∧
      Agree chain q q' := by
  induction chain generalizing q start free steps with
  | nil =>
    obtain rfl : start = -1 := listed
    exact ⟨q,releaseChain_end visit steps q,by simpa using unused,Agree.refl [] q⟩
  | cons i rest ih =>
    obtain ⟨rfl,tail⟩ := listed
    obtain ⟨steps,rfl⟩ : ∃ k, steps = k + 1 := ⟨steps - 1,by rw [List.length_cons] at fuel; omega⟩
    have fresh : i ∉ rest := (List.nodup_cons.mp nodup).1
    have outside : i ∉ free := apart i List.mem_cons_self
    have visited : Unused (visit i q) free := unused.visited neutral
    have given := visited.giveBack outside (small i List.mem_cons_self)
    have step : Agree (i :: rest) q (returnUnusedDescriptor (visit i q) i) :=
      ((neutral.agree i q).mono (by simp)).trans
        (agree_returnUnusedDescriptor _ List.mem_cons_self)
    have listed : Listed (returnUnusedDescriptor (visit i q) i).nextDesc (q.nextDesc i) rest := by
      rw [nextDesc_returnUnusedDescriptor,neutral.nextDesc]
      exact tail.update_other fresh
    obtain ⟨q',released,final,agree⟩ := ih given listed (List.nodup_cons.mp nodup).2
      (by
        intro j member inside
        rcases List.mem_cons.mp inside with rfl | inside
        · exact fresh member
        · exact apart j (List.mem_cons_of_mem i member) inside)
      (fun j member => small j (List.mem_cons_of_mem i member)) (by simpa using fuel)
    refine ⟨q',?_,by simpa using final,step.trans (agree.mono (List.subset_cons_self i rest))⟩
    rw [releaseChain,if_neg (show ¬(i : Int) < 0 by omega)]
    simpa using released

/-- A release loop counts every descriptor of the chain it walks, also those that are
unused already, and touches no others. -/
theorem releaseChain_count (neutral : Neutral visit) (listed : Listed q.nextDesc start chain)
    (nodup : chain.Nodup) (fuel : chain.length ≤ steps) (small : q.numUnusedDescriptors < 2^32) :
    ∃ q', releaseChain visit steps start q = some q' ∧
      q'.numUnusedDescriptors = (q.numUnusedDescriptors + chain.length) % 2^32 ∧
      Agree chain q q' := by
  induction chain generalizing q start steps with
  | nil =>
    obtain rfl : start = -1 := listed
    exact ⟨q,releaseChain_end visit steps q,(Nat.mod_eq_of_lt small).symm,Agree.refl [] q⟩
  | cons i rest ih =>
    obtain ⟨rfl,tail⟩ := listed
    obtain ⟨fresh,distinct⟩ := List.nodup_cons.mp nodup
    obtain ⟨steps,rfl⟩ : ∃ k, steps = k + 1 := ⟨steps - 1,by rw [List.length_cons] at fuel; omega⟩
    have listed : Listed (returnUnusedDescriptor (visit i q) i).nextDesc (q.nextDesc i) rest := by
      rw [nextDesc_returnUnusedDescriptor,neutral.nextDesc]
      exact tail.update_other fresh
    have counted : (returnUnusedDescriptor (visit i q) i).numUnusedDescriptors =
        (q.numUnusedDescriptors + 1) % 2^32 := by
      simp [returnUnusedDescriptor,neutral.count]
    have step : Agree (i :: rest) q (returnUnusedDescriptor (visit i q) i) :=
      ((neutral.agree i q).mono (by simp)).trans
        (agree_returnUnusedDescriptor _ List.mem_cons_self)
    obtain ⟨q',released,total,agree⟩ := ih listed distinct (by simpa using fuel) (by omega)
    refine ⟨q',?_,?_,step.trans (agree.mono (List.subset_cons_self i rest))⟩
    · rw [releaseChain,if_neg (show ¬(i : Int) < 0 by omega)]
      simpa using released
    · rw [total,counted,List.length_cons]
      omega

end VirtioOsx
