import VirtioOsx.Balloon
import VirtioOsx.Lib.Runs

/-! The sizes a balloon goes through on the way to its target, and how the driver follows
them: the chain of requests ends at the target, and no target is lost on the way. -/
namespace VirtioOsx

open Runs

structure BalloonSize where
  chunks : Nat
  pages : Nat
  deriving DecidableEq, Repr

namespace BalloonSize

def total (size : BalloonSize) : Nat := size.chunks * bigChunkPages + size.pages

/-- The size after one request. A chunk goes out in two steps when there are too few single
pages: first come the pages that are to stay, then the chunk goes. -/
def next (target : Nat) (size : BalloonSize) : BalloonSize :=
  if size.total < target then
    if target - size.total ≥ bigChunkPages then ⟨size.chunks + 1, size.pages⟩
    else ⟨size.chunks, size.pages + (target - size.total)⟩
  else if size.total - target ≥ bigChunkPages ∧ size.chunks > 0 then
    ⟨size.chunks - 1, size.pages⟩
  else if size.total - target > size.pages then
    ⟨size.chunks, size.pages + (bigChunkPages - (size.total - target))⟩
  else ⟨size.chunks, size.pages - min (size.total - target) bigChunkPages⟩

/-- Twice the distance, and for a balloon that grows before it shrinks enough to outweigh
the growth. -/
def rank (target : Nat) (size : BalloonSize) : Nat :=
  if size.total ≤ target then target - size.total
  else 2 * (size.total - target) +
    if size.total - target < bigChunkPages ∧ size.pages < size.total - target then 1023 else 0

theorem next_cases (target : Nat) (size : BalloonSize) :
    (size.total + bigChunkPages ≤ target ∧
      next target size = ⟨size.chunks + 1, size.pages⟩) ∨
    (size.total < target ∧ target < size.total + bigChunkPages ∧
      next target size = ⟨size.chunks, size.pages + (target - size.total)⟩) ∨
    (target + bigChunkPages ≤ size.total ∧ 0 < size.chunks ∧
      next target size = ⟨size.chunks - 1, size.pages⟩) ∨
    (target + size.pages < size.total ∧ size.total < target + bigChunkPages ∧
      next target size = ⟨size.chunks, size.pages + (bigChunkPages - (size.total - target))⟩) ∨
    (target ≤ size.total ∧ size.total ≤ target + size.pages ∧
      (size.total < target + bigChunkPages ∨ size.chunks = 0) ∧ next target size =
        ⟨size.chunks, size.pages - min (size.total - target) bigChunkPages⟩) := by
  have parts : size.total = size.chunks * 512 + size.pages := rfl
  have unit : bigChunkPages = 512 := rfl
  rw [next]
  by_cases below : size.total < target
  · rw [if_pos below]
    by_cases far : target - size.total ≥ bigChunkPages
    · exact .inl ⟨by omega,if_pos far⟩
    · exact .inr (.inl ⟨below,by omega,if_neg far⟩)
  · rw [if_neg below]
    by_cases chunk : size.total - target ≥ bigChunkPages ∧ size.chunks > 0
    · exact .inr (.inr (.inl ⟨by omega,chunk.2,if_pos chunk⟩))
    · rw [if_neg chunk]
      by_cases few : size.total - target > size.pages
      · exact .inr (.inr (.inr (.inl ⟨by omega,by omega,if_pos few⟩)))
      · exact .inr (.inr (.inr (.inr ⟨by omega,by omega,by omega,if_neg few⟩)))

theorem total_eq (chunks pages : Nat) : total ⟨chunks, pages⟩ = chunks * 512 + pages := rfl

theorem rank_eq (target : Nat) (size : BalloonSize) :
    (size.total ≤ target → rank target size = target - size.total) ∧
    (target < size.total →
      (size.total < target + 512 ∧ target + size.pages < size.total →
        rank target size = 2 * (size.total - target) + 1023) ∧
      (target + 512 ≤ size.total ∨ size.total ≤ target + size.pages →
        rank target size = 2 * (size.total - target))) := by
  have chunk : bigChunkPages = 512 := rfl
  refine ⟨fun below => if_pos below,fun above => ?_⟩
  rw [rank,if_neg (by omega)]
  constructor
  · intro few
    rw [if_pos (by omega)]
  · intro enough
    rw [if_neg (by omega),Nat.add_zero]

theorem rank_reached {size : BalloonSize} (reached : size.total = target) : rank target size = 0 := by
  rw [(rank_eq target size).1 reached.le,reached,Nat.sub_self]

theorem rank_le (target : Nat) (size : BalloonSize) (above : target ≤ size.total) :
    rank target size ≤ 2 * (size.total - target) + 1023 := by
  rw [rank]
  split
  · omega
  · split
    · omega
    · omega

theorem next_rank {size : BalloonSize} (away : size.total ≠ target) :
    rank target (next target size) < rank target size := by
  have unit : bigChunkPages = 512 := rfl
  have parts : size.total = size.chunks * 512 + size.pages := rfl
  rcases next_cases target size with
    ⟨far,moved⟩ | ⟨below,near,moved⟩ | ⟨far,some,moved⟩ | ⟨few,near,moved⟩ |
    ⟨above,enough,near,moved⟩
  all_goals
    have total := (congrArg BalloonSize.total moved).trans (total_eq _ _)
  · rw [(rank_eq target size).1 (by omega),(rank_eq target _).1 (by omega)]
    omega
  · rw [(rank_eq target size).1 (by omega),(rank_eq target _).1 (by omega)]
    omega
  · -- what is left may have the excess, which is less than two for each page of a chunk
    have bound := rank_le target (next target size) (by omega)
    rw [((rank_eq target size).2 (by omega)).2 (by omega)]
    omega
  · rw [((rank_eq target size).2 (by omega)).1 (by omega),
      ((rank_eq target (next target size)).2 (by omega)).2 (by omega)]
    omega
  · rw [((rank_eq target size).2 (by omega)).2 (by omega)]
    rcases Nat.lt_or_ge (size.total - target) bigChunkPages with last | more
    · rw [(rank_eq target _).1 (by omega)]
      omega
    · have bound := rank_le target (next target size) (by omega)
      omega

/-- A balloon that grows past its target stays below a whole chunk of single pages, so that
its total still fits. -/
theorem next_fits {size : BalloonSize} (fits : size.total < 2^32) (reachable : target < 2^32) :
    (next target size).total < 2^32 := by
  obtain ⟨chunks,pages⟩ := size
  rcases next_cases target ⟨chunks,pages⟩ with
    ⟨_,moved⟩ | ⟨_,_,moved⟩ | ⟨_,_,moved⟩ | ⟨_,_,moved⟩ | ⟨_,_,_,moved⟩
  all_goals
    rw [moved]
    simp only [total_eq,bigChunkPages] at *
  · exact Nat.lt_of_le_of_lt (by omega) reachable
  · exact Nat.lt_of_le_of_lt (by omega) reachable
  · exact Nat.lt_of_le_of_lt (by omega) fits
  · omega
  · exact Nat.lt_of_le_of_lt (by omega) fits

end BalloonSize

/-- The subtraction does not wrap around, the length is one for which there is room, the
index is one of the array's, and no null pointer is used. -/
def BalloonEvent.Exact : BalloonEvent → Prop
  | .subtracted a b => b ≤ a
  | .setLength count => 1 ≤ count ∧ count ≤ bigChunkPages
  | .removed count index => index < count
  | .submitted _ pages => 1 ≤ pages.length ∧ pages.length ≤ bigChunkPages
  | .nullBuffer => False

theorem BalloonEvent.exact_subtracted (exact : b ≤ a) : (BalloonEvent.subtracted a b).Exact := exact

structure BalloonCalls.Succeed (calls : BalloonCalls) : Prop where
  address : ∀ buffer offset, offset < bigChunkPages * pageSize →
    (calls.getPhysicalSegment buffer offset).1 ≠ 0
  length : ∀ buffer offset, offset < bigChunkPages * pageSize →
    pageSize ≤ (calls.getPhysicalSegment buffer offset).2
  submitted : calls.submitBuffersToVirtqueue = .success

theorem BalloonCalls.Succeed.segment {calls : BalloonCalls} (succeed : calls.Succeed)
    (buffer page : Nat) (within : page < bigChunkPages) :
    ¬((calls.getPhysicalSegment buffer (page * pageSize)).1 = 0 ∨
      (calls.getPhysicalSegment buffer (page * pageSize)).2 < pageSize) := by
  have inside : page * pageSize < bigChunkPages * pageSize := by
    simp only [pageSize,bigChunkPages] at within ⊢
    omega
  rintro (missing | short)
  · exact succeed.address buffer _ inside missing
  · exact absurd (succeed.length buffer _ inside) (by omega)

namespace VirtioMemBalloonDevice

def size (d : VirtioMemBalloonDevice) : BalloonSize :=
  ⟨d.bigChunkBuffers.length, d.pageBuffers.length⟩

theorem totalPagesAllocated_eq {d : VirtioMemBalloonDevice} (fits : d.size.total < 2^32) :
    d.totalPagesAllocated = d.size.total :=
  Nat.mod_eq_of_lt fits

theorem listChunk_success {calls : BalloonCalls} (succeed : calls.Succeed) (chunk : Nat)
    (d : VirtioMemBalloonDevice) {page : Nat} (within : page + remaining ≤ bigChunkPages) :
    ∃ addresses, d.listChunk calls chunk remaining page =
      (.success, { d with pageAddresses := addresses }) := by
  induction remaining generalizing page d with
  | zero => exact ⟨_,rfl⟩
  | succ remaining ih =>
    rw [listChunk,if_neg (succeed.segment chunk _ (by omega))]
    exact ih (d.setPageAddress _ _) (by omega)

theorem inflatePages_success {calls : BalloonCalls} (succeed : calls.Succeed)
    (d : VirtioMemBalloonDevice) (i remaining : Nat) :
    ∃ buffers addresses counts created, buffers.length = remaining ∧
      d.inflatePages calls remaining i = (.success, i + remaining,
        { d with
          pageBuffers := d.pageBuffers ++ buffers
          pageAddresses := addresses
          retainCount := counts
          created := created }) := by
  induction remaining generalizing i d with
  | zero => exact ⟨[],d.pageAddresses,d.retainCount,d.created,rfl,by simp [inflatePages]⟩
  | succ remaining ih =>
    have granted := succeed.segment d.created 0 (by decide)
    rw [Nat.zero_mul] at granted
    rw [inflatePages,if_neg granted]
    obtain ⟨buffers,addresses,counts,created,length,equal⟩ :=
      ih (((d.createReservedBuffer .pages).setPageAddress i _).release d.created) (i + 1)
    rw [equal]
    refine ⟨d.created :: buffers,addresses,counts,created,by simp [length],?_⟩
    rw [Nat.add_right_comm,Nat.add_assoc]
    simp [createReservedBuffer,setObject,setPageAddress,withArray,array,retain,release]

@[simp] theorem array_log (d : VirtioMemBalloonDevice) (event : BalloonEvent) (which : BufferArray) :
    (d.log event).array which = d.array which := by
  cases which <;> rfl

theorem removeObject_last {d : VirtioMemBalloonDevice} (which : BufferArray)
    (held : d.array which = front ++ [buffer]) :
    d.removeObject which front.length =
      ((d.log (.removed (front.length + 1) front.length)).withArray front which).release buffer := by
  have found : (front ++ [buffer])[front.length]? = some buffer := by simp
  have rest : (front ++ [buffer]).eraseIdx front.length = front := by
    rw [List.eraseIdx_append_of_length_le (Nat.le_refl _)]
    simp
  simp only [removeObject,array_log,held,found,rest,List.length_append,List.length_singleton]

theorem deflatePages_succ {calls : BalloonCalls} (succeed : calls.Succeed)
    {d : VirtioMemBalloonDevice} (remaining : Nat) (parts : d.pageBuffers = front ++ [buffer])
    (count : numPages = d.pageBuffers.length + i) (small : numPages < 2^32) :
    ∃ addresses counts events, (∀ event ∈ events, BalloonEvent.Exact event) ∧
      d.deflatePages calls numPages (remaining + 1) i =
        deflatePages calls numPages remaining (i + 1)
          { d with
            pageBuffers := front
            deflatingBuffers := d.deflatingBuffers ++ [buffer]
            pageAddresses := addresses
            retainCount := counts
            trace := d.trace ++ events } := by
  have length : d.pageBuffers.length = front.length + 1 := by simp [parts]
  have first : sub32 numPages 1 = numPages - 1 := sub32_exact (by omega) small
  have second : sub32 (numPages - 1) i = front.length := by
    rw [sub32_exact (by omega) (by omega)]
    omega
  have granted := succeed.segment buffer 0 (by decide)
  rw [Nat.zero_mul] at granted
  have last : d.pageBuffers.getLast? = some buffer := by simp [parts]
  have removal := removeObject_last .pages
    (d := ((d.setObject .deflating buffer).log (.subtracted numPages 1)).log
      (.subtracted (numPages - 1) i)) parts
  refine ⟨(d.setPageAddress i ((calls.getPhysicalSegment buffer 0).1 / 4096 % 2^32)).pageAddresses,
    ((d.retain buffer).release buffer).retainCount,
    [.subtracted numPages 1,.subtracted (numPages - 1) i,
      .removed (front.length + 1) front.length],?_,?_⟩
  · intro event member
    simp only [List.mem_cons,List.not_mem_nil,or_false] at member
    rcases member with rfl | rfl | rfl
    · exact (by omega : 1 ≤ numPages)
    · exact (by omega : i ≤ numPages - 1)
    · exact Nat.lt_succ_self front.length
  · rw [deflatePages,last]
    simp only [first,second,removal,if_neg granted]
    simp [setObject,setPageAddress,withArray,array,retain,release,log]

theorem deflatePages_success {calls : BalloonCalls} (succeed : calls.Succeed)
    (d : VirtioMemBalloonDevice) (numPages i : Nat) (count : numPages = d.pageBuffers.length + i)
    (small : numPages < 2^32) (enough : remaining ≤ d.pageBuffers.length) :
    ∃ kept deflating addresses counts events,
      kept.length = d.pageBuffers.length - remaining ∧
      (∀ event ∈ events, BalloonEvent.Exact event) ∧
      d.deflatePages calls numPages remaining i = (.success,
        { d with
          pageBuffers := kept
          deflatingBuffers := deflating
          pageAddresses := addresses
          retainCount := counts
          trace := d.trace ++ events }) := by
  induction remaining generalizing i d with
  | zero =>
    exact ⟨d.pageBuffers,d.deflatingBuffers,d.pageAddresses,d.retainCount,[],rfl,by simp,
      by simp [deflatePages]⟩
  | succ remaining ih =>
    cases last : d.pageBuffers.getLast? with
    | none => simp [List.getLast?_eq_none_iff.mp last] at enough
    | some buffer =>
      obtain ⟨front,parts⟩ := List.getLast?_eq_some_iff.mp last
      have length : d.pageBuffers.length = front.length + 1 := by simp [parts]
      obtain ⟨addresses,counts,taken,takenExact,moved⟩ :=
        deflatePages_succ succeed remaining parts count small
      rw [moved]
      obtain ⟨kept,deflating,addresses,counts,events,fewer,exact,equal⟩ := ih
        { d with
          pageBuffers := front
          deflatingBuffers := d.deflatingBuffers ++ [buffer]
          pageAddresses := addresses
          retainCount := counts
          trace := d.trace ++ taken } (i := i + 1) (by simp only; omega) (by simp only; omega)
      refine ⟨kept,deflating,addresses,counts,taken ++ events,by simp only at fewer; omega,?_,?_⟩
      · intro event member
        rcases List.mem_append.mp member with new | later
        · exact takenExact event new
        · exact exact event later
      · rw [equal,List.append_assoc]

structure Prepared (d d' : VirtioMemBalloonDevice) : Prop where
  inProgress : d'.inflateDeflateInProgress = true
  target : d'.numRequestedPages = d.numRequestedPages
  outstanding : d'.outstanding = d.outstanding
  listed : 1 ≤ d'.pageAddressCount ∧ d'.pageAddressCount ≤ bigChunkPages
  trace : ∃ events, d'.trace = d.trace ++ events ∧ ∀ event ∈ events, BalloonEvent.Exact event

structure Requested (d d' : VirtioMemBalloonDevice) (after : BalloonSize) : Prop where
  size : d'.size = after
  inProgress : d'.inflateDeflateInProgress = true
  target : d'.numRequestedPages = d.numRequestedPages
  outstanding : ∃ queue, d'.outstanding = d.outstanding ++ [⟨queue, d'.pageAddressArray⟩]
  trace : ∃ events, d'.trace = d.trace ++ events ∧ ∀ event ∈ events, BalloonEvent.Exact event

theorem Prepared.submit {calls : BalloonCalls} (succeed : calls.Succeed) {d d' : VirtioMemBalloonDevice}
    (prepared : Prepared d d') (queue : BalloonQueue) :
    (d'.submit calls queue).1 = .success ∧ Requested d (d'.submit calls queue).2 d'.size := by
  obtain ⟨events,traced,exact⟩ := prepared.trace
  rw [VirtioMemBalloonDevice.submit,if_pos succeed.submitted]
  refine ⟨rfl,rfl,prepared.inProgress,prepared.target,⟨queue,?_⟩,
    events ++ [.submitted queue d'.pageAddressArray],?_,?_⟩
  · simp [prepared.outstanding,pageAddressArray,log]
  · simp [log,traced]
  · intro event member
    rcases List.mem_append.mp member with old | new
    · exact exact event old
    · rw [List.mem_singleton.mp new]
      simpa [BalloonEvent.Exact,pageAddressArray] using prepared.listed

theorem Requested.after_log {d d' : VirtioMemBalloonDevice}
    (requested : Requested (d.log event) d' after) (exact : event.Exact) :
    Requested d d' after := by
  obtain ⟨events,traced,rest⟩ := requested.trace
  refine ⟨requested.size,requested.inProgress,requested.target,requested.outstanding,
    event :: events,?_,?_⟩
  · simpa [log] using traced
  · intro other member
    rcases List.mem_cons.mp member with rfl | later
    · exact exact
    · exact rest other later

theorem submitInflated_requested {calls : BalloonCalls} (succeed : calls.Succeed)
    {d : VirtioMemBalloonDevice} (d' : VirtioMemBalloonDevice) (prepared : Prepared d d')
    (which : BufferArray) (created : Nat) :
    Requested d (d'.submitInflated calls which .success created) d'.size := by
  obtain ⟨accepted,requested⟩ := prepared.submit succeed .inflate
  rw [submitInflated,if_pos rfl]
  simp only [accepted]
  exact requested

theorem submitDeflated_requested {calls : BalloonCalls} (succeed : calls.Succeed)
    {d : VirtioMemBalloonDevice} (d' : VirtioMemBalloonDevice) (prepared : Prepared d d') :
    Requested d (d'.submitDeflated calls .success) d'.size := by
  rw [submitDeflated,if_pos rfl]
  exact (prepared.submit succeed .deflate).2

theorem bigChunkPages_pos : 0 < bigChunkPages := by decide

theorem exact_setLength (some : 0 < count) (few : count ≤ bigChunkPages) :
    ∀ event ∈ [BalloonEvent.setLength count], event.Exact := by
  intro event member
  rw [List.mem_singleton.mp member]
  exact ⟨some,few⟩

theorem inflateMemBalloon_chunk {calls : BalloonCalls} (succeed : calls.Succeed)
    (d : VirtioMemBalloonDevice) (big : bigChunkPages ≤ count) :
    Requested d (d.inflateMemBalloon calls count) ⟨d.size.chunks + 1, d.size.pages⟩ := by
  obtain ⟨addresses,equal⟩ := listChunk_success succeed d.created
    ((d.begun.createReservedBuffer .bigChunks).setLength bigChunkPages)
    (Nat.le_refl (0 + bigChunkPages))
  have requested := submitInflated_requested succeed (d := d)
    { (d.begun.createReservedBuffer .bigChunks).setLength bigChunkPages with
      pageAddresses := addresses }
    ⟨rfl,rfl,rfl,⟨bigChunkPages_pos,Nat.le_refl _⟩,_,rfl,
      exact_setLength bigChunkPages_pos (Nat.le_refl _)⟩ .bigChunks 1
  rw [inflateMemBalloon,if_pos big]
  have created : d.begun.created = d.created := rfl
  simp only [created,equal]
  simpa [size,begun,createReservedBuffer,setObject,setLength,withArray,array,retain,log]
    using requested

theorem inflateMemBalloon_pages {calls : BalloonCalls} (succeed : calls.Succeed)
    (d : VirtioMemBalloonDevice) (count : Nat) (some : 0 < count) (few : count < bigChunkPages) :
    Requested d (d.inflateMemBalloon calls count) ⟨d.size.chunks, d.size.pages + count⟩ := by
  obtain ⟨buffers,addresses,counts,created,length,equal⟩ := inflatePages_success succeed
    (d.begun.setLength count) 0 count
  have requested := submitInflated_requested succeed (d := d)
    { d.begun.setLength count with
      pageBuffers := d.pageBuffers ++ buffers
      pageAddresses := addresses
      retainCount := counts
      created := created }
    ⟨rfl,rfl,rfl,⟨some,few.le⟩,_,rfl,exact_setLength some few.le⟩ .pages (0 + count)
  rw [inflateMemBalloon,if_neg (Nat.not_le.mpr few)]
  simp only [equal]
  simpa [size,begun,setLength,log,length] using requested

theorem deflateMemBalloon_chunk {calls : BalloonCalls} (succeed : calls.Succeed)
    (d : VirtioMemBalloonDevice) (fits : d.size.chunks < 2^32) (big : bigChunkPages ≤ count)
    (some : 0 < d.size.chunks) :
    Requested d (d.deflateMemBalloon calls count) ⟨d.size.chunks - 1, d.size.pages⟩ := by
  have positive : d.begun.bigChunkBuffers.length > 0 := some
  rw [deflateMemBalloon,if_pos ⟨big,positive⟩]
  cases last : d.begun.bigChunkBuffers.getLast? with
  | none => simp [List.getLast?_eq_none_iff.mp last] at positive
  | some chunk =>
    obtain ⟨front,held⟩ := List.getLast?_eq_some_iff.mp last
    have length : d.begun.bigChunkBuffers.length = front.length + 1 := by simp [held]
    have small : d.begun.bigChunkBuffers.length < 2^32 := fits
    have before : sub32 d.begun.bigChunkBuffers.length 1 = front.length := by
      rw [sub32_exact (by omega) small]
      omega
    have removal := removeObject_last .bigChunks
      (d := (d.begun.setObject .deflating chunk).log
        (.subtracted d.begun.bigChunkBuffers.length 1)) held
    obtain ⟨addresses,equal⟩ := listChunk_success succeed chunk
      (((((d.begun.setObject .deflating chunk).log
        (.subtracted d.begun.bigChunkBuffers.length 1)).log
          (.removed (front.length + 1) front.length)).withArray front .bigChunks).release
            chunk |>.setLength bigChunkPages) (Nat.le_refl (0 + bigChunkPages))
    simp only [before,removal,equal]
    have requested := submitDeflated_requested succeed (d := d)
      { d.begun with
        bigChunkBuffers := front
        deflatingBuffers := d.deflatingBuffers ++ [chunk]
        pageAddressCount := bigChunkPages
        pageAddresses := addresses
        retainCount := ((d.begun.retain chunk).release chunk).retainCount
        trace := d.trace ++ [.subtracted d.begun.bigChunkBuffers.length 1,
          .removed (front.length + 1) front.length,.setLength bigChunkPages] }
      ⟨rfl,rfl,rfl,⟨bigChunkPages_pos,Nat.le_refl _⟩,_,rfl,by
        simp [BalloonEvent.Exact,length,bigChunkPages]⟩
    have left : d.size.chunks - 1 = front.length := by
      rw [show d.size.chunks = front.length + 1 from length,Nat.add_sub_cancel]
    rw [left]
    simpa [size,begun,setObject,setLength,withArray,array,retain,release,log] using requested

theorem deflateMemBalloon_convert {calls : BalloonCalls} (succeed : calls.Succeed)
    (d : VirtioMemBalloonDevice) (few : d.size.pages < count) (less : count < bigChunkPages) :
    Requested d (d.deflateMemBalloon calls count)
      ⟨d.size.chunks, d.size.pages + (bigChunkPages - count)⟩ := by
  have more : count > d.begun.pageBuffers.length := few
  have requested := inflateMemBalloon_pages succeed
    (d.begun.log (.subtracted bigChunkPages count)) (bigChunkPages - count) (by omega)
    (by omega)
  have logged := requested.after_log less.le
  rw [deflateMemBalloon,if_neg (by omega),if_pos more,sub32_exact less.le (by decide)]
  exact ⟨logged.size,logged.inProgress,logged.target,logged.outstanding,logged.trace⟩

theorem deflateMemBalloon_pages {calls : BalloonCalls} (succeed : calls.Succeed)
    (d : VirtioMemBalloonDevice) (fits : d.size.pages < 2^32) (some : 0 < count)
    (single : count < bigChunkPages ∨ d.size.chunks = 0) (enough : count ≤ d.size.pages) :
    Requested d (d.deflateMemBalloon calls count)
      ⟨d.size.chunks, d.size.pages - min count bigChunkPages⟩ := by
  have few : ¬count > d.begun.pageBuffers.length := Nat.not_lt.mpr enough
  have notChunk : ¬(count ≥ bigChunkPages ∧ d.begun.bigChunkBuffers.length > 0) := by
    have same : d.begun.bigChunkBuffers.length = d.size.chunks := rfl
    omega
  have within : min count bigChunkPages ≤ d.begun.pageBuffers.length :=
    (Nat.min_le_left _ _).trans enough
  have positive : 0 < min count bigChunkPages := Nat.lt_min.mpr ⟨some,bigChunkPages_pos⟩
  obtain ⟨kept,deflating,addresses,counts,events,fewer,exact,equal⟩ := deflatePages_success succeed
    (d.begun.setLength (min count bigChunkPages)) d.begun.pageBuffers.length 0 rfl fits within
  have requested := submitDeflated_requested succeed (d := d)
    { d.begun.setLength (min count bigChunkPages) with
      pageBuffers := kept
      deflatingBuffers := deflating
      pageAddresses := addresses
      retainCount := counts
      trace := (d.begun.setLength (min count bigChunkPages)).trace ++ events }
    ⟨rfl,rfl,rfl,⟨positive,Nat.min_le_right _ _⟩,.setLength _ :: events,by simp [setLength,log,begun],
      List.forall_mem_cons.mpr ⟨⟨positive,Nat.min_le_right _ _⟩,exact⟩⟩
  rw [deflateMemBalloon,if_neg notChunk,if_neg few]
  simp only [equal]
  have left : d.size.pages - min count bigChunkPages = kept.length := fewer.symm
  rw [left]
  exact requested

/-- A check of a balloon that is not at its target starts one request towards it. -/
theorem inflateDeflateIfNecessary_requested {calls : BalloonCalls} (succeed : calls.Succeed)
    {d : VirtioMemBalloonDevice} (idle : d.inflateDeflateInProgress = false)
    (fits : d.size.total < 2^32) (reachable : target < 2^32) (away : d.size.total ≠ target) :
    Requested d (d.inflateDeflateIfNecessary calls target) (d.size.next target) := by
  have parts : d.size.total = d.size.chunks * 512 + d.size.pages := rfl
  have unit : bigChunkPages = 512 := rfl
  rw [inflateDeflateIfNecessary,idle,totalPagesAllocated_eq fits]
  simp only [Bool.false_eq_true,if_false,if_neg away]
  rcases BalloonSize.next_cases target d.size with
    ⟨far,moved⟩ | ⟨above,near,moved⟩ | ⟨far,some,moved⟩ | ⟨few,near,moved⟩ |
    ⟨below,near,single,moved⟩
  · rw [moved,if_pos (by omega),sub32_exact (by omega) reachable]
    exact (inflateMemBalloon_chunk succeed (d.log _) (by omega)).after_log
      (BalloonEvent.exact_subtracted (by omega))
  · rw [moved,if_pos above,sub32_exact above.le reachable]
    exact (inflateMemBalloon_pages succeed (d.log _) _ (by omega) (by omega)).after_log
      (BalloonEvent.exact_subtracted above.le)
  all_goals rw [moved,if_neg (by omega),sub32_exact (by omega) fits]
  · exact (deflateMemBalloon_chunk succeed (d.log _) (show d.size.chunks < _ by omega) (by omega)
      some).after_log (BalloonEvent.exact_subtracted (by omega))
  · exact (deflateMemBalloon_convert succeed (d.log _) (show d.size.pages < _ by omega)
      (by omega)).after_log (BalloonEvent.exact_subtracted (by omega))
  · have singly : d.size.total - target < bigChunkPages ∨ d.size.chunks = 0 := by omega
    exact (deflateMemBalloon_pages succeed (d.log _) (show d.size.pages < _ by omega) (by omega)
      singly (show _ ≤ d.size.pages by omega)).after_log (BalloonEvent.exact_subtracted below)

theorem foldl_release (buffers : List Nat) (d : VirtioMemBalloonDevice) :
    ∃ counts, buffers.foldl release d = { d with retainCount := counts } := by
  induction buffers generalizing d with
  | nil => exact ⟨d.retainCount,rfl⟩
  | cons buffer rest ih => exact ih (d.release buffer)

/-- What a completion changes before it reads the target. -/
theorem requestReturned_eq (queue : BalloonQueue) (d : VirtioMemBalloonDevice) :
    ∃ deflating counts, d.requestReturned queue =
      { d with
        deflatingBuffers := deflating
        inflateDeflateInProgress := false
        actualPages := d.totalPagesAllocated
        retainCount := counts } := by
  cases queue with
  | inflate => exact ⟨d.deflatingBuffers,d.retainCount,rfl⟩
  | deflate =>
    obtain ⟨counts,equal⟩ := foldl_release d.deflatingBuffers
      { d with inflateDeflateInProgress := false, deflatingBuffers := [] }
    refine ⟨[],counts,?_⟩
    simp only [requestReturned,flushCollection,array,withArray]
    rw [equal]
    rfl

def requestChain (calls : Nat → BalloonCalls) (d : VirtioMemBalloonDevice) :
    Nat → VirtioMemBalloonDevice :=
  iterate (fun k d => d.requestCompleted (calls (k + 1)) false)
    (d.inflateDeflateIfNecessary (calls 0) d.numRequestedPages)

structure Chained (start d : VirtioMemBalloonDevice) : Prop where
  fits : d.size.total < 2^32
  target : d.numRequestedPages = start.numRequestedPages
  trace : ∃ events, d.trace = start.trace ++ events ∧ ∀ event ∈ events, BalloonEvent.Exact event
  flight : (d.outstanding = [] ∧ d.inflateDeflateInProgress = false ∧
      d.size.total = d.numRequestedPages) ∨
    (∃ request, d.outstanding = [request])

theorem Chained.length_le {start d : VirtioMemBalloonDevice} (chained : Chained start d) :
    d.outstanding.length ≤ 1 := by
  rcases chained.flight with ⟨free,_,_⟩ | ⟨request,flight⟩
  · simp [free]
  · simp [flight]

/-- A check of an idle balloon: it goes one size further, or it is done. -/
theorem Chained.checked {calls : BalloonCalls} (succeed : calls.Succeed)
    (start : VirtioMemBalloonDevice) {d : VirtioMemBalloonDevice} (idle : d.inflateDeflateInProgress = false)
    (free : d.outstanding = []) (fits : d.size.total < 2^32)
    (reachable : start.numRequestedPages < 2^32)
    (target : d.numRequestedPages = start.numRequestedPages)
    (trace : ∃ events, d.trace = start.trace ++ events ∧ ∀ event ∈ events, BalloonEvent.Exact event) :
    Chained start (d.inflateDeflateIfNecessary calls d.numRequestedPages) ∧
    ((d.inflateDeflateIfNecessary calls d.numRequestedPages).outstanding = [] ∨
      d.size.total ≠ d.numRequestedPages ∧
        (d.inflateDeflateIfNecessary calls d.numRequestedPages).size =
          d.size.next d.numRequestedPages) := by
  rw [← target] at reachable
  by_cases equal : d.size.total = d.numRequestedPages
  · have same : d.inflateDeflateIfNecessary calls d.numRequestedPages = d := by
      rw [inflateDeflateIfNecessary,idle,totalPagesAllocated_eq fits]
      simp [equal]
    rw [same]
    exact ⟨⟨fits,target,trace,.inl ⟨free,idle,equal⟩⟩,.inl free⟩
  · have requested := inflateDeflateIfNecessary_requested succeed idle fits reachable equal
    obtain ⟨queue,flight⟩ := requested.outstanding
    obtain ⟨before,traced,exact⟩ := trace
    obtain ⟨events,more,alsoExact⟩ := requested.trace
    rw [free] at flight
    refine ⟨⟨?_,requested.target.trans target,⟨before ++ events,?_,?_⟩,.inr ⟨_,flight⟩⟩,
      .inr ⟨equal,requested.size⟩⟩
    · rw [requested.size]
      exact BalloonSize.next_fits fits reachable
    · rw [more,traced,List.append_assoc]
    · intro event member
      rcases List.mem_append.mp member with old | new
      · exact exact event old
      · exact alsoExact event new

def chainRank (d : VirtioMemBalloonDevice) : Nat :=
  d.size.rank d.numRequestedPages + d.outstanding.length

theorem Chained.completed {calls : BalloonCalls} (succeed : calls.Succeed)
    {start d : VirtioMemBalloonDevice} (reachable : start.numRequestedPages < 2^32)
    (chained : Chained start d) (waiting : d.outstanding ≠ []) :
    Chained start (d.requestCompleted calls false) ∧
      (d.requestCompleted calls false).chainRank < d.chainRank := by
  rcases chained.flight with ⟨free,_,_⟩ | ⟨request,flight⟩
  · exact absurd free waiting
  obtain ⟨deflating,counts,returned⟩ :=
    requestReturned_eq request.queue { d with outstanding := [] }
  rw [requestCompleted,flight]
  simp only [Bool.false_eq_true,if_false,returned]
  obtain ⟨kept,further⟩ := Chained.checked succeed start
    (d := { d with
      outstanding := []
      deflatingBuffers := deflating
      inflateDeflateInProgress := false
      actualPages := ({ d with outstanding := [] } : VirtioMemBalloonDevice).totalPagesAllocated
      retainCount := counts }) rfl rfl chained.fits reachable chained.target chained.trace
  refine ⟨kept,?_⟩
  have sameTarget := kept.target.trans chained.target.symm
  simp only [chainRank,sameTarget,flight,List.length_singleton]
  rcases further with free | ⟨away,size⟩
  · rcases kept.flight with ⟨_,_,reached⟩ | ⟨other,taken⟩
    · rw [sameTarget] at reached
      rw [BalloonSize.rank_reached reached,free]
      exact Nat.succ_pos _
    · rw [free] at taken
      cases taken
  · have lower : (d.size.next d.numRequestedPages).rank d.numRequestedPages <
        d.size.rank d.numRequestedPages := BalloonSize.next_rank away
    rw [size]
    exact Nat.add_lt_add_of_lt_of_le lower kept.length_le

/-- Every chunk count, every page count and every target: the chain of requests comes to an
end, with the balloon at its target. -/
theorem requestChain_reaches_target {calls : Nat → BalloonCalls} (succeed : ∀ n, (calls n).Succeed)
    {d : VirtioMemBalloonDevice} (idle : d.inflateDeflateInProgress = false)
    (free : d.outstanding = [])
    (fits : bigChunkPages * d.bigChunkBuffers.length + d.pageBuffers.length < 2^32)
    (reachable : d.numRequestedPages < 2^32) :
    ∃ n, (∀ k < n, (d.requestChain calls k).outstanding ≠ []) ∧
      (d.requestChain calls n).outstanding = [] ∧
      (d.requestChain calls n).inflateDeflateInProgress = false ∧
      (d.requestChain calls n).totalPagesAllocated = d.numRequestedPages ∧
      ∃ events, (d.requestChain calls n).trace = d.trace ++ events ∧
        ∀ event ∈ events, event.Exact := by
  have small : d.size.total < 2^32 := by
    rw [BalloonSize.total,Nat.mul_comm]
    exact fits
  have start := (Chained.checked (succeed 0) d idle free small reachable rfl ⟨[],by simp⟩).1
  obtain ⟨n,done,chained,before⟩ := iterate_ends (Chained d) (fun d => d.outstanding = []) chainRank
    (fun k _ chained waiting => chained.completed (succeed (k + 1)) reachable waiting) start
  refine ⟨n,before,done,?_⟩
  rcases chained.flight with ⟨_,finished,reached⟩ | ⟨request,flight⟩
  · exact ⟨finished,(totalPagesAllocated_eq chained.fits).trans (reached.trans chained.target),
      chained.trace⟩
  · rw [flight] at done
    cases done

/-- The balloon as `start` leaves it before its first check. -/
def started (target : Nat) : VirtioMemBalloonDevice where
  pageBuffers := []
  bigChunkBuffers := []
  deflatingBuffers := []
  pageAddressCount := bigChunkPages
  pageAddresses := fun _ => 0
  inflateDeflateInProgress := false
  numRequestedPages := target
  actualPages := 0
  retainCount := fun _ => 0
  outstanding := []
  created := 0
  trace := []

end VirtioMemBalloonDevice

def balloonSuccess : BalloonCalls := ⟨fun buffer offset => ((buffer + 1) * 2^21 + offset, 4096), .success⟩

theorem balloonSuccess_succeed : balloonSuccess.Succeed where
  address buffer offset _ := by
    simp only [balloonSuccess]
    omega
  length _ _ _ := Nat.le_refl 4096
  submitted := rfl

def chunkToPage : VirtioMemBalloonDevice :=
  { VirtioMemBalloonDevice.started 1 with bigChunkBuffers := [0] }

theorem chunkToPage_reaches_target :
    ∃ n, (∀ k < n, (chunkToPage.requestChain (fun _ => balloonSuccess) k).outstanding ≠ []) ∧
      (chunkToPage.requestChain (fun _ => balloonSuccess) n).totalPagesAllocated = 1 := by
  obtain ⟨n,before,_,_,reached,_⟩ := VirtioMemBalloonDevice.requestChain_reaches_target
    (fun _ => balloonSuccess_succeed) (d := chunkToPage) rfl rfl (by decide) (by decide)
  exact ⟨n,before,reached⟩

end VirtioOsx
