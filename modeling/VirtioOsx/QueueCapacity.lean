import VirtioOsx.SubmitAtomicity

/-! How many requests a queue takes. A request in an indirect queue has one descriptor; in a
direct one it has at least one for each of its buffers, so that half as many requests with
two buffers fill the queue. -/
namespace VirtioOsx

open Runs

theorem Phase.Failed.bind_ne {phase : Phase α} {rest : α → Phase β} (failed : phase.Failed)
    (value : β) : phase.bind rest ≠ .next value := by
  intro built
  have failed := failed.bind rest
  rw [built] at failed
  exact failed

/-- A direct chain that has been built describes both of its buffers. -/
theorem buildChain_both_segments (unused : Unused q free) (fits : free.length ≤ q.numEntries)
    (direct : q.indirectDescriptors = false) (readable : call.readableBuffer = some buf)
    (writable : call.writableBuffer = some writableBuf) (built : buildChain q call = .next value) :
    readableSegments q call ≠ [] ∧ writableSegments q call ≠ [] := by
  have accepted : ¬RefusedEarly q call := by
    intro refused
    obtain ⟨_,_,left⟩ := buildChain_refused refused
    rw [left] at built
    cases built
  obtain ⟨i,free,rfl⟩ := accepted_cons direct unused accepted
  have attached : call.readable.setMemoryDescriptor = .success := by
    by_contra failed
    obtain ⟨_,exit,_⟩ := submitDeviceReadable_unattached unused buf call.completion call.readable
      call.minDescsRequired failed
    rw [buildChain_readable_left direct accepted readable exit] at built
    cases built
  have some : readableSegments q call ≠ [] := by
    intro none
    rw [readableSegments_walk readable] at none
    have failed := submitDeviceReadable_failed q buf call.completion call.readable
      call.minDescsRequired none
    rw [buildChain_direct direct,buildDirectChain_accepted direct accepted] at built
    simp only [readable] at built
    exact failed.bind_ne value built
  have complete : (readableWalk q call).incomplete buf = false := by
    rw [readableSegments_walk readable] at some
    have walked := submitDeviceReadable_walked unused fits buf call.completion call.readable
      call.minDescsRequired attached rfl some
    by_contra incomplete
    have incomplete : (call.readable.genIOVMSegments.emit
        (q.numUnusedDescriptors - (call.minDescsRequired - 1))).incomplete buf = true := by
      simpa [readableWalk] using incomplete
    rw [if_pos incomplete] at walked
    obtain ⟨_,_,exit,_⟩ := walked
    rw [buildChain_readable_left direct accepted readable exit] at built
    cases built
  obtain ⟨chain,completed,clear,building⟩ :=
    readable_completed unused fits readable attached complete
  refine ⟨some,fun none => ?_⟩
  rw [writableSegments_walk writable,← writableWalk_eq unused (building.unused clear)] at none
  rw [buildChain_both direct accepted readable writable completed] at built
  exact (submitDeviceWritable_failed chain writableBuf call.completion call.writable
    (.inr none)).bind_ne value built

theorem built_two_descriptors (unused : Unused q free) (fits : free.length ≤ q.numEntries)
    (direct : q.indirectDescriptors = false) (sound : ¬Corrupting q call)
    (readable : call.readableBuffer = some buf) (writable : call.writableBuffer = some writableBuf)
    (built : buildChain q call = .next (head, q')) :
    2 ≤ (builtRequest q' head call.completion).descs.length := by
  have segments := buildChain_both_segments unused fits direct readable writable built
  have outcome := buildDirectChain_spec unused fits fun unlinked => sound ⟨direct,unlinked⟩
  rw [← buildChain_direct direct,built] at outcome
  obtain ⟨descs,rest,rfl,chain⟩ := outcome
  have size : descs.length ≤ q'.numEntries := by
    rw [chain.agree.numEntries]
    rw [List.length_append] at fits
    omega
  rw [builtRequest,followNextDesc_eq chain.listed size,chain.encodes.length]
  have readableSome := List.length_pos_iff.mpr segments.1
  have writableSome := List.length_pos_iff.mpr segments.2
  simp only [directEntries,List.length_append,List.length_map]
  omega

/-- Every request in flight in a direct queue has two descriptors or more. -/
def Paired (m : Machine) : Prop :=
  m.queue.indirectDescriptors = false → ∀ r ∈ m.inflight, 2 ≤ r.descs.length

def BothBuffers (a : Action) : Prop :=
  ∀ call, a = .submit call → call.minDescsRequired = 2

theorem both_of_required {call : SubmitCall} (both : call.minDescsRequired = 2) :
    (∃ buf, call.readableBuffer = some buf) ∧ ∃ buf, call.writableBuffer = some buf := by
  unfold SubmitCall.minDescsRequired at both
  cases readable : call.readableBuffer with
  | none => cases writable : call.writableBuffer <;> simp [readable,writable] at both
  | some buf =>
    cases writable : call.writableBuffer with
    | none => simp [readable,writable] at both
    | some writableBuf => exact ⟨⟨buf,rfl⟩,⟨writableBuf,rfl⟩⟩

theorem mem_inflight_processed {m : Machine} (member : r ∈ (m.processed call result).inflight) :
    r ∈ m.inflight := by
  have fewer : (m.processed call result).unprocessed.Sublist m.unprocessed := by
    simp only [Machine.unprocessed,Machine.processed,List.length_append,← List.drop_drop]
    exact List.drop_sublist _ _
  simp only [Machine.inflight,List.mem_append] at member ⊢
  rcases member with here | here | here | here
  · exact .inl here
  · exact .inr (.inl here)
  · exact .inr (.inr (.inl here))
  · exact .inr (.inr (.inr ((fewer.map _).subset here)))

theorem Paired.keeps (inv : MachineInv n lost m) (sound : Sound m a) (both : BothBuffers a)
    (taken : step a m = some m') (paired : Paired m) : Paired m' := by
  intro direct r member
  rw [inv.mode sound taken] at direct
  by_cases submitting : ∃ call, a = .submit call
  · obtain ⟨call,rfl⟩ := submitting
    obtain ⟨free,partition⟩ := inv.partition
    have fits : free.length ≤ m.queue.numEntries := partition.size.symm ▸ partition.fits
    obtain ⟨⟨buf,readable⟩,writableBuf,writable⟩ := both_of_required (both call rfl)
    obtain ⟨idle,⟨head,queue,built,rfl⟩ | ⟨result,queue,left,rfl⟩⟩ := Machine.submit_cases taken
    · have long := built_two_descriptors partition.unused fits direct (sound call rfl) readable
        writable built
      have split : r = builtRequest queue head call.completion ∨ r ∈ m.inflight := by
        simpa [Machine.inflight,unpublished,idle,Machine.unconsumed,Machine.unprocessed] using member
      rcases split with rfl | older
      · exact long
      · exact paired direct r older
    · exact paired direct r member
  by_cases advancing : a = .advance
  · subst a
    obtain ⟨quiet,call,result,busy,moved,rfl⟩ := Machine.advance_cases taken
    exact paired direct r (mem_inflight_processed member)
  · have untouched := inv.untouched taken (not_exists.mp submitting) advancing
    exact paired direct r (untouched.inflight.mem_iff.mpr member)

theorem sum_length_ge_twice (inflight : List Request) (long : ∀ r ∈ inflight, 2 ≤ r.descs.length) :
    2 * inflight.length ≤ (inflight.flatMap Request.descs).length := by
  induction inflight with
  | nil => simp
  | cons r rest ih =>
    have first := long r List.mem_cons_self
    have later := ih fun s member => long s (List.mem_cons_of_mem r member)
    simp only [List.flatMap_cons,List.length_append,List.length_cons]
    omega

/-- A direct queue takes half as many requests as it has entries. -/
theorem Paired.inflight_le (inv : MachineInv n lost m) (paired : Paired m)
    (direct : m.queue.indirectDescriptors = false) : 2 * m.inflight.length ≤ n := by
  obtain ⟨free,partition⟩ := inv.partition
  have places := partition.places.length_eq
  have twice := sum_length_ge_twice m.inflight (paired direct)
  simp only [List.length_append,List.length_range] at places
  omega

end VirtioOsx
