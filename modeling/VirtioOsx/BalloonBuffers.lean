import Mathlib.Data.List.Induction
import VirtioOsx.BalloonSystem

/-! Where the buffers of the balloon driver go, whatever its calls return: which buffers an
operation creates, moves and drops, which page numbers it lists, and how many references
to each buffer it leaves. -/
namespace VirtioOsx

def BalloonCalls.Granted (calls : BalloonCalls) (buffer page : Nat) : Prop :=
  ¬((calls.getPhysicalSegment buffer (page * pageSize)).1 = 0 ∨
    (calls.getPhysicalSegment buffer (page * pageSize)).2 < pageSize)

instance (calls : BalloonCalls) (buffer page : Nat) : Decidable (calls.Granted buffer page) :=
  inferInstanceAs (Decidable (¬(_ ∨ _)))

def BalloonCalls.pageNumber (calls : BalloonCalls) (buffer page : Nat) : Nat :=
  (calls.getPhysicalSegment buffer (page * pageSize)).1 / 4096 % 2^32

def BalloonEvent.Silent (event : BalloonEvent) : Prop :=
  ∀ queue pages, event ≠ .submitted queue pages

namespace VirtioMemBalloonDevice

theorem listChunk_spec (calls : BalloonCalls) (chunk remaining page : Nat)
    (d : VirtioMemBalloonDevice) :
    ∃ result addresses, d.listChunk calls chunk remaining page =
        (result, { d with pageAddresses := addresses }) ∧
      (∀ p < page, addresses p = d.pageAddresses p) ∧
      (result = .success ↔ ∀ p, page ≤ p → p < page + remaining → calls.Granted chunk p) ∧
      (result = .success → ∀ p, page ≤ p → p < page + remaining →
        addresses p = calls.pageNumber chunk p) := by
  induction remaining generalizing page d with
  | zero =>
    refine ⟨.success,d.pageAddresses,rfl,fun _ _ => rfl,?_,?_⟩
    · simp only [Nat.add_zero,true_iff]
      intro p from_ below
      omega
    · intro _ p from_ below
      omega
  | succ remaining ih =>
    rw [listChunk]
    by_cases granted : calls.Granted chunk page
    · rw [if_neg granted]
      obtain ⟨result,addresses,equal,kept,success,listed⟩ := ih (page + 1) (d.setPageAddress page
        ((calls.getPhysicalSegment chunk (page * pageSize)).1 / 4096 % 2^32))
      refine ⟨result,addresses,equal,?_,?_,?_⟩
      · intro p below
        rw [kept p (by omega)]
        simp [setPageAddress,Nat.ne_of_lt below]
      · rw [success]
        constructor
        · intro later p from_ below
          by_cases here : p = page
          · exact here ▸ granted
          · exact later p (by omega) (by omega)
        · exact fun all p from_ below => all p (by omega) (by omega)
      · intro good p from_ below
        by_cases here : p = page
        · subst p
          rw [kept page (by omega)]
          simp [setPageAddress,BalloonCalls.pageNumber]
        · exact listed good p (by omega) (by omega)
    · rw [if_pos (not_not.mp granted)]
      refine ⟨.internalError,d.pageAddresses,rfl,fun _ _ => rfl,?_,by simp⟩
      refine iff_of_false (by simp) fun all => granted (all page (Nat.le_refl _) (by omega))

/-- The reference counts after `made` pages have been created from `first` on. Only a page
without a physical address has kept the reference its creation gave. -/
def createdCounts (counts : Nat → Nat) (first made : Nat) (whole : Bool) (buffer : Nat) : Nat :=
  if first ≤ buffer ∧ buffer < first + made then
    if whole = false ∧ buffer + 1 = first + made then 2 else 1
  else counts buffer

theorem createdCounts_none (counts : Nat → Nat) (first : Nat) (whole : Bool) :
    createdCounts counts first 0 whole = counts := by
  funext b
  rw [createdCounts,if_neg (by omega)]

theorem createdCounts_succ (counts : Nat → Nat) (first made : Nat) (whole : Bool)
    (some : whole = false → 0 < made) :
    createdCounts (Function.update counts first 1) (first + 1) made whole =
      createdCounts counts first (made + 1) whole := by
  funext b
  have ends : first + (made + 1) = first + 1 + made := by omega
  simp only [createdCounts,ends]
  by_cases here : b = first
  · subst b
    have inside : first < first + 1 + made := by omega
    cases whole with
    | true => simp [inside]
    | false =>
      have more : made ≠ 0 := Nat.pos_iff_ne_zero.mp (some rfl)
      simp [inside,more]
  · have range : first ≤ b ∧ b < first + 1 + made ↔ first + 1 ≤ b ∧ b < first + 1 + made := by omega
    simp only [range,Function.update_of_ne here]

/-- What is left of the counts when the arrays have dropped the new pages again. -/
theorem createdCounts_dropped (counts : Nat → Nat) (first made : Nat) (whole : Bool) (b : Nat) :
    createdCounts counts first made whole b - (List.range' first made).count b =
      if first ≤ b ∧ b < first + made then
        if b + 1 = first + made ∧ whole = false then 1 else 0
      else counts b := by
  rw [(List.nodup_range' 1).count,createdCounts]
  simp only [List.mem_range'_1]
  by_cases inside : first ≤ b ∧ b < first + made
  · simp only [if_pos inside]
    cases whole with
    | true => simp
    | false =>
      by_cases last : b + 1 = first + made
      · simp [last]
      · simp [last]
  · simp only [if_neg inside,Nat.sub_zero]

theorem createReservedBuffer_pages (d : VirtioMemBalloonDevice) :
    d.createReservedBuffer .pages =
      { d with
        pageBuffers := d.pageBuffers ++ [d.created]
        retainCount := Function.update d.retainCount d.created 2
        created := d.created + 1 } := by
  simp [createReservedBuffer,setObject,withArray,array,retain]

theorem createReservedBuffer_bigChunks (d : VirtioMemBalloonDevice) :
    d.createReservedBuffer .bigChunks =
      { d with
        bigChunkBuffers := d.bigChunkBuffers ++ [d.created]
        retainCount := Function.update d.retainCount d.created 2
        created := d.created + 1 } := by
  simp [createReservedBuffer,setObject,withArray,array,retain]

theorem inflatePages_spec (calls : BalloonCalls) (remaining i : Nat) (d : VirtioMemBalloonDevice) :
    ∃ result made addresses, d.inflatePages calls remaining i = (result, i + made,
        { d with
          pageBuffers := d.pageBuffers ++ List.range' d.created made
          pageAddresses := addresses
          retainCount := createdCounts d.retainCount d.created made (result == .success)
          created := d.created + made }) ∧
      made ≤ remaining ∧ (result ≠ .success → 0 < made) ∧
      (∀ j < i, addresses j = d.pageAddresses j) ∧
      (result = .success ↔ ∀ j < remaining, calls.Granted (d.created + j) 0) ∧
      (result = .success → made = remaining ∧
        ∀ j < remaining, addresses (i + j) = calls.pageNumber (d.created + j) 0) := by
  induction remaining generalizing i d with
  | zero =>
    refine ⟨.success,0,d.pageAddresses,?_,Nat.le_refl 0,by simp,fun _ _ => rfl,by simp,by simp⟩
    simp [inflatePages,createdCounts_none]
  | succ remaining ih =>
    rw [inflatePages,createReservedBuffer_pages]
    by_cases granted : calls.Granted d.created 0
    · have test : ¬((calls.getPhysicalSegment d.created 0).1 = 0 ∨
          (calls.getPhysicalSegment d.created 0).2 < pageSize) := by
        simpa [BalloonCalls.Granted] using granted
      simp only [if_neg test,setPageAddress,release,Function.update_self,Function.update_idem]
      obtain ⟨result,made,addresses,equal,fewer,some,kept,success,listed⟩ := ih (i + 1)
        { d with
          pageBuffers := d.pageBuffers ++ [d.created]
          pageAddresses := Function.update d.pageAddresses i
            ((calls.getPhysicalSegment d.created 0).1 / 4096 % 2^32)
          retainCount := Function.update d.retainCount d.created 1
          created := d.created + 1 }
      refine ⟨result,made + 1,addresses,?_,by omega,fun _ => Nat.succ_pos made,?_,?_,?_⟩
      · rw [equal,createdCounts_succ _ _ _ _ (by simpa using some)]
        simp [List.range'_succ,Nat.add_assoc,Nat.add_comm 1]
      · intro j below
        rw [kept j (by omega)]
        simp [Nat.ne_of_lt below]
      · rw [success]
        constructor
        · intro later j below
          cases j with
          | zero => exact granted
          | succ j =>
            have := later j (by omega)
            rwa [Nat.add_assoc,Nat.add_comm 1] at this
        · intro all j below
          have := all (j + 1) (by omega)
          rwa [Nat.add_assoc,Nat.add_comm 1]
      · intro good
        obtain ⟨all,pages⟩ := listed good
        refine ⟨by omega,fun j below => ?_⟩
        cases j with
        | zero =>
          rw [Nat.add_zero,kept i (by omega)]
          simp [BalloonCalls.pageNumber]
        | succ j =>
          have := pages j (by omega)
          rwa [Nat.add_assoc,Nat.add_comm 1,Nat.add_assoc,Nat.add_comm 1] at this
    · have test : (calls.getPhysicalSegment d.created 0).1 = 0 ∨
          (calls.getPhysicalSegment d.created 0).2 < pageSize := by
        rw [BalloonCalls.Granted,Nat.zero_mul] at granted
        exact not_not.mp granted
      simp only [if_pos test]
      refine ⟨.internalError,1,d.pageAddresses,?_,by omega,fun _ => Nat.one_pos,fun _ _ => rfl,?_,
        by simp⟩
      · have counts : Function.update d.retainCount d.created 2 =
            createdCounts d.retainCount d.created 1 false := by
          funext b
          by_cases here : b = d.created
          · subst b; simp [createdCounts]
          · rw [Function.update_of_ne here,createdCounts,if_neg (by omega)]
        rw [counts]
        rfl
      · exact iff_of_false (by simp) fun all => granted (all 0 (Nat.succ_pos _))

/-- The error path drops as many buffers from the end of the array as have been created. -/
theorem dropCreated_spec (which : BufferArray) (d : VirtioMemBalloonDevice)
    (held : d.array which = front ++ back) (small : (front ++ back).length < 2^32) :
    ∃ events, (∀ event ∈ events, BalloonEvent.Silent event) ∧
      d.dropCreated which back.length =
        { d.withArray front which with
          retainCount := fun b => d.retainCount b - back.count b
          trace := d.trace ++ events } := by
  induction back using List.reverseRecOn generalizing d with
  | nil =>
    refine ⟨[],by simp,?_⟩
    simp only [List.append_nil] at held
    cases which
    all_goals
      simp only [array] at held
      subst held
      simp [dropCreated,withArray]
  | append_singleton back buffer ih =>
    have last : (d.array which).getLast? = some buffer := by simp [held]
    have count : (d.array which).length = (front ++ back).length + 1 := by simp [held]; omega
    have before : sub32 (d.array which).length 1 = (front ++ back).length := by
      rw [sub32_exact (by omega) (by rw [held]; exact small)]
      omega
    have removal := removeObject_last which (d := d.log (.subtracted (d.array which).length 1))
      (show (d.log _).array which = front ++ back ++ [buffer] by simp [held])
    obtain ⟨events,silent,equal⟩ := ih
      ((((d.log (.subtracted (d.array which).length 1)).log
        (.removed ((front ++ back).length + 1) (front ++ back).length)).withArray (front ++ back)
          which).release buffer) (by cases which <;> rfl) (by simp at small ⊢; omega)
    refine ⟨[.subtracted (d.array which).length 1,
      .removed ((front ++ back).length + 1) (front ++ back).length] ++ events,?_,?_⟩
    · simpa [BalloonEvent.Silent] using silent
    · rw [List.length_append,List.length_singleton,dropCreated,last]
      simp only [before,removal,equal]
      have counts : (fun b => (Function.update d.retainCount buffer (d.retainCount buffer - 1)) b -
          back.count b) = fun b => d.retainCount b - (back ++ [buffer]).count b := by
        funext b
        by_cases here : b = buffer
        · subst b
          simp [List.count_append]
          omega
        · simp [List.count_append,Function.update_of_ne here,Ne.symm here]
      cases which
      all_goals simpa [withArray,release,log] using counts

/-- One iteration of the loop that takes pages out of the balloon moves the last one. -/
theorem deflatePages_step (calls : BalloonCalls) {d : VirtioMemBalloonDevice} (remaining : Nat)
    (parts : d.pageBuffers = front ++ [buffer]) (count : numPages = d.pageBuffers.length + i)
    (small : numPages < 2^32) :
    ∃ events, (∀ event ∈ events, BalloonEvent.Silent event) ∧
      d.deflatePages calls numPages (remaining + 1) i =
        if calls.Granted buffer 0 then
          deflatePages calls numPages remaining (i + 1)
            { d with
              pageBuffers := front
              deflatingBuffers := d.deflatingBuffers ++ [buffer]
              pageAddresses := Function.update d.pageAddresses i (calls.pageNumber buffer 0)
              trace := d.trace ++ events }
        else (.internalError,
          { d with
            pageBuffers := front
            deflatingBuffers := d.deflatingBuffers ++ [buffer]
            trace := d.trace ++ events }) := by
  have length : d.pageBuffers.length = front.length + 1 := by simp [parts]
  have first : sub32 numPages 1 = numPages - 1 := sub32_exact (by omega) small
  have second : sub32 (numPages - 1) i = front.length := by
    rw [sub32_exact (by omega) (by omega)]
    omega
  have last : d.pageBuffers.getLast? = some buffer := by simp [parts]
  have removal := removeObject_last .pages
    (d := ((d.setObject .deflating buffer).log (.subtracted numPages 1)).log
      (.subtracted (numPages - 1) i)) parts
  refine ⟨[.subtracted numPages 1,.subtracted (numPages - 1) i,
    .removed (front.length + 1) front.length],by simp [BalloonEvent.Silent],?_⟩
  rw [deflatePages,last]
  simp only [first,second,removal]
  by_cases granted : calls.Granted buffer 0
  · have test := granted
    rw [BalloonCalls.Granted,Nat.zero_mul] at test
    rw [if_neg test,if_pos granted]
    simp [setObject,setPageAddress,withArray,array,retain,release,log,BalloonCalls.pageNumber]
  · have test := granted
    rw [BalloonCalls.Granted,Nat.zero_mul,not_not] at test
    rw [if_pos test,if_neg granted]
    simp [setObject,withArray,array,retain,release,log]

/-- Pages move one by one from the end of one array to the end of the other. -/
theorem deflatePages_spec (calls : BalloonCalls) (d : VirtioMemBalloonDevice) (numPages i : Nat)
    (count : numPages = d.pageBuffers.length + i) (small : numPages < 2^32)
    (enough : remaining ≤ d.pageBuffers.length) :
    ∃ result kept moved addresses events, d.pageBuffers = kept ++ moved.reverse ∧
      (∀ event ∈ events, BalloonEvent.Silent event) ∧
      d.deflatePages calls numPages remaining i = (result,
        { d with
          pageBuffers := kept
          deflatingBuffers := d.deflatingBuffers ++ moved
          pageAddresses := addresses
          trace := d.trace ++ events }) ∧
      (∀ j < i, addresses j = d.pageAddresses j) ∧
      (result = .success ↔
        ∀ buffer ∈ d.pageBuffers.reverse.take remaining, calls.Granted buffer 0) ∧
      (result = .success → (List.range remaining).map (fun j => addresses (i + j)) =
        moved.map fun buffer => calls.pageNumber buffer 0) := by
  induction remaining generalizing i d with
  | zero =>
    exact ⟨.success,d.pageBuffers,[],d.pageAddresses,[],by simp,by simp,by simp [deflatePages],
      fun _ _ => rfl,by simp,fun _ => rfl⟩
  | succ remaining ih =>
    obtain ⟨front,buffer,parts⟩ := (List.eq_nil_or_concat' d.pageBuffers).resolve_left
      (by rintro empty; simp [empty] at enough)
    have length : d.pageBuffers.length = front.length + 1 := by simp [parts]
    obtain ⟨taken,takenSilent,step⟩ := deflatePages_step calls remaining parts count small
    rw [step]
    by_cases granted : calls.Granted buffer 0
    · rw [if_pos granted]
      obtain ⟨result,kept,moved,addresses,events,split,silent,equal,kept',all,listed⟩ := ih
        { d with
          pageBuffers := front
          deflatingBuffers := d.deflatingBuffers ++ [buffer]
          pageAddresses := Function.update d.pageAddresses i (calls.pageNumber buffer 0)
          trace := d.trace ++ taken } (i := i + 1) (by simp only; omega) (by simp only; omega)
      refine ⟨result,kept,buffer :: moved,addresses,taken ++ events,?_,?_,?_,?_,?_,?_⟩
      · rw [parts]
        simp only at split
        simp [split]
      · exact List.forall_mem_append.mpr ⟨takenSilent,silent⟩
      · rw [equal]
        simp
      · intro j below
        rw [kept' j (by omega)]
        simp [Nat.ne_of_lt below]
      · rw [all,parts,List.reverse_concat',List.take_succ_cons,List.forall_mem_cons]
        exact ⟨fun rest => ⟨granted,rest⟩,And.right⟩
      · intro good
        have here : addresses i = calls.pageNumber buffer 0 := by
          rw [kept' i (by omega)]
          simp
        rw [List.range_succ_eq_map,List.map_cons,List.map_cons,Nat.add_zero,here,← listed good]
        simp [Function.comp_def,Nat.add_assoc,Nat.add_comm 1]
    · rw [if_neg granted]
      refine ⟨.internalError,front,[buffer],d.pageAddresses,taken,by simp [parts],takenSilent,rfl,
        fun _ _ => rfl,?_,by simp⟩
      rw [parts,List.reverse_concat',List.take_succ_cons,List.forall_mem_cons]
      constructor
      · intro failed
        cases failed
      · exact fun every => absurd every.1 granted

end VirtioMemBalloonDevice

namespace BalloonCalls

def chunkNumbers (calls : BalloonCalls) (chunk : Nat) : List Nat :=
  (List.range bigChunkPages).map (calls.pageNumber chunk)

def listing (calls : BalloonCalls) (pages chunks : List Nat) : List Nat :=
  pages.map (fun buffer => calls.pageNumber buffer 0) ++ chunks.flatMap calls.chunkNumbers

end BalloonCalls

/-- The buffers an inflation creates: one chunk, or single pages. -/
def freshPages (first count : Nat) : List Nat :=
  if bigChunkPages ≤ count then [] else List.range' first count

def freshChunks (first count : Nat) : List Nat :=
  if bigChunkPages ≤ count then [first] else []

/-- Every page that an inflation lists has its physical segment. -/
def BalloonCalls.GrantsAll (calls : BalloonCalls) (first count : Nat) : Prop :=
  (∀ buffer ∈ freshPages first count, calls.Granted buffer 0) ∧
    ∀ chunk ∈ freshChunks first count, ∀ page < bigChunkPages, calls.Granted chunk page

instance (calls : BalloonCalls) (first count : Nat) : Decidable (calls.GrantsAll first count) :=
  inferInstanceAs (Decidable (_ ∧ _))

namespace VirtioMemBalloonDevice

structure Submits (d d' : VirtioMemBalloonDevice) (queue : BalloonQueue) (pages : List Nat) :
    Prop where
  inProgress : d'.inflateDeflateInProgress = true
  outstanding : d'.outstanding = d.outstanding ++ [⟨queue, pages⟩]
  trace : ∃ events, (∀ event ∈ events, BalloonEvent.Silent event) ∧
    d'.trace = d.trace ++ events ++ [.submitted queue pages]

structure Unsubmitted (d d' : VirtioMemBalloonDevice) : Prop where
  outstanding : d'.outstanding = d.outstanding
  trace : ∃ events, (∀ event ∈ events, BalloonEvent.Silent event) ∧ d'.trace = d.trace ++ events

/-- What no operation of the driver changes. -/
structure Aside (d d' : VirtioMemBalloonDevice) : Prop where
  target : d'.numRequestedPages = d.numRequestedPages
  actual : d'.actualPages = d.actualPages

/-- An inflation that the device has been told of. The creation of a chunk leaves it with
a reference that no array holds. -/
structure Inflated (calls : BalloonCalls) (count : Nat) (d d' : VirtioMemBalloonDevice) : Prop where
  aside : Aside d d'
  submits : Submits d d' .inflate
    (calls.listing (freshPages d.created count) (freshChunks d.created count))
  pageBuffers : d'.pageBuffers = d.pageBuffers ++ freshPages d.created count
  bigChunkBuffers : d'.bigChunkBuffers = d.bigChunkBuffers ++ freshChunks d.created count
  deflatingBuffers : d'.deflatingBuffers = d.deflatingBuffers
  created : d'.created =
    d.created + ((freshPages d.created count).length + (freshChunks d.created count).length)
  retainCount : ∀ b, d'.retainCount b = if b ∈ freshChunks d.created count then 2
    else if b ∈ freshPages d.created count then 1 else d.retainCount b

/-- An inflation that has been undone. What keeps a reference is the chunk, or the page
without a physical segment. -/
structure Dropped (calls : BalloonCalls) (count : Nat) (d d' : VirtioMemBalloonDevice) : Prop where
  aside : Aside d d'
  unsubmitted : Unsubmitted d d'
  inProgress : d'.inflateDeflateInProgress = false
  pageBuffers : d'.pageBuffers = d.pageBuffers
  bigChunkBuffers : d'.bigChunkBuffers = d.bigChunkBuffers
  deflatingBuffers : d'.deflatingBuffers = d.deflatingBuffers
  created : d.created ≤ d'.created
  retainCount : ∀ b, d'.retainCount b = if d.created ≤ b ∧ b < d'.created then
      if b + 1 = d'.created ∧ (bigChunkPages ≤ count ∨ ¬calls.GrantsAll d.created count) then 1 else 0
    else d.retainCount b
  leaves : ¬calls.GrantsAll d.created count ∨ bigChunkPages ≤ count → d.created < d'.created

theorem submit_accepted {calls : BalloonCalls} (accepted : calls.submitBuffersToVirtqueue = .success)
    (queue : BalloonQueue) (d : VirtioMemBalloonDevice) :
    d.submit calls queue = (.success,
      { d with
        outstanding := d.outstanding ++ [⟨queue, d.pageAddressArray⟩]
        trace := d.trace ++ [.submitted queue d.pageAddressArray] }) := by
  simp [submit,accepted,log]

theorem submit_refused {calls : BalloonCalls} (refused : calls.submitBuffersToVirtqueue ≠ .success)
    (queue : BalloonQueue) (d : VirtioMemBalloonDevice) :
    d.submit calls queue = (calls.submitBuffersToVirtqueue, d) := by
  simp [submit,refused]

/-- The error path, whichever call has failed. -/
theorem submitInflated_failed {calls : BalloonCalls} (which : BufferArray)
    (failed : result ≠ .success ∨ calls.submitBuffersToVirtqueue ≠ .success)
    (d : VirtioMemBalloonDevice) (held : d.array which = front ++ back)
    (small : (front ++ back).length < 2^32) :
    ∃ addresses events, (∀ event ∈ events, BalloonEvent.Silent event) ∧
      d.submitInflated calls which result back.length =
        { d.withArray front which with
          pageAddresses := addresses
          retainCount := fun b => d.retainCount b - back.count b
          trace := d.trace ++ events
          inflateDeflateInProgress := false } := by
  obtain ⟨code,bad,left⟩ : ∃ code, code ≠ .success ∧
      (if result = .success then d.submit calls .inflate else (result, d)) = (code, d) := by
    by_cases listed : result = .success
    · have refused := failed.resolve_left (not_not.mpr listed)
      exact ⟨_,refused,by rw [if_pos listed,submit_refused refused]⟩
    · exact ⟨result,listed,if_neg listed⟩
  obtain ⟨events,silent,dropped⟩ := dropCreated_spec which
    { d with pageAddresses := fun i => if i < back.length then 0 else d.pageAddresses i }
    (show array _ which = front ++ back by cases which <;> exact held) small
  refine ⟨fun i => if i < back.length then 0 else d.pageAddresses i,events,silent,?_⟩
  simp only [submitInflated,left,if_neg bad,dropped]
  cases which <;> rfl

def chunkCreated (d : VirtioMemBalloonDevice) : VirtioMemBalloonDevice :=
  { d with
    bigChunkBuffers := d.bigChunkBuffers ++ [d.created]
    pageAddressCount := bigChunkPages
    inflateDeflateInProgress := true
    retainCount := Function.update d.retainCount d.created 2
    created := d.created + 1
    trace := d.trace ++ [.setLength bigChunkPages] }

theorem chunkCreated_eq (d : VirtioMemBalloonDevice) :
    (d.begun.createReservedBuffer .bigChunks).setLength bigChunkPages = d.chunkCreated := by
  rw [createReservedBuffer_bigChunks]
  rfl

theorem inflateMemBalloon_chunk_eq (calls : BalloonCalls) (d : VirtioMemBalloonDevice)
    (big : bigChunkPages ≤ count) :
    d.inflateMemBalloon calls count =
      (d.chunkCreated.listChunk calls d.created bigChunkPages 0).2.submitInflated calls .bigChunks
        (d.chunkCreated.listChunk calls d.created bigChunkPages 0).1 1 := by
  rw [inflateMemBalloon,if_pos big,← chunkCreated_eq]
  rfl

theorem inflateMemBalloon_bigChunk (calls : BalloonCalls) (d : VirtioMemBalloonDevice)
    (big : bigChunkPages ≤ count) (small : d.bigChunkBuffers.length + 1 < 2^32) :
    if calls.GrantsAll d.created count ∧ calls.submitBuffersToVirtqueue = .success then
      Inflated calls count d (d.inflateMemBalloon calls count)
    else Dropped calls count d (d.inflateMemBalloon calls count) := by
  have pages : freshPages d.created count = [] := if_pos big
  have chunks : freshChunks d.created count = [d.created] := if_pos big
  have grants : calls.GrantsAll d.created count ↔
      ∀ page, 0 ≤ page → page < 0 + bigChunkPages → calls.Granted d.created page := by
    simp [BalloonCalls.GrantsAll,pages,chunks]
  obtain ⟨result,addresses,equal,_,success,listed⟩ :=
    listChunk_spec calls d.created bigChunkPages 0 d.chunkCreated
  rw [← grants] at success
  rw [inflateMemBalloon_chunk_eq calls d big,equal]
  by_cases accepted : calls.GrantsAll d.created count ∧ calls.submitBuffersToVirtqueue = .success
  · have granted := success.mpr accepted.1
    have numbers : (List.range bigChunkPages).map addresses =
        calls.listing (freshPages d.created count) (freshChunks d.created count) := by
      rw [pages,chunks,BalloonCalls.listing,List.map_nil,List.nil_append,List.flatMap_singleton,
        BalloonCalls.chunkNumbers]
      apply List.map_congr_left
      intro page member
      have below := List.mem_range.mp member
      exact listed granted page (Nat.zero_le _) (by omega)
    rw [if_pos accepted,granted,submitInflated,if_pos rfl,submit_accepted accepted.2]
    refine ⟨⟨rfl,rfl⟩,⟨rfl,by rw [← numbers]; rfl,[.setLength bigChunkPages],
      by simp [BalloonEvent.Silent],by rw [← numbers]; rfl⟩,?_,?_,rfl,?_,fun b => ?_⟩
    · simp [pages,chunkCreated]
    · simp [chunks,chunkCreated]
    · simp [pages,chunks,chunkCreated]
    · by_cases here : b = d.created
      · subst b; simp [chunks,chunkCreated]
      · simp [chunks,pages,chunkCreated,here]
  · have failed : result ≠ .success ∨ calls.submitBuffersToVirtqueue ≠ .success := by
      rw [ne_eq,success]
      exact Decidable.not_and_iff_or_not.mp accepted
    have held : array { d.chunkCreated with pageAddresses := addresses } .bigChunks =
        d.bigChunkBuffers ++ [d.created] := rfl
    obtain ⟨_,events,silent,dropped⟩ := submitInflated_failed .bigChunks failed _ held
      (by simpa using small)
    rw [if_neg accepted]
    simp only [List.length_singleton] at dropped
    rw [dropped]
    refine ⟨⟨rfl,rfl⟩,⟨rfl,.setLength bigChunkPages :: events,?_,?_⟩,rfl,rfl,rfl,rfl,
      Nat.le_succ _,fun b => ?_,fun _ => Nat.lt_succ_self _⟩
    · simpa [BalloonEvent.Silent] using silent
    · simp [chunkCreated]
    · by_cases here : b = d.created
      · subst b; simp [withArray,chunkCreated,big]
      · have outside : ¬(d.created ≤ b ∧ b < d.created + 1) := by omega
        show _ = if d.created ≤ b ∧ b < d.created + 1 then _ else _
        rw [if_neg outside]
        simp [chunkCreated,here,Ne.symm here]

def pagesBegun (d : VirtioMemBalloonDevice) (count : Nat) : VirtioMemBalloonDevice :=
  { d with
    pageAddressCount := count
    inflateDeflateInProgress := true
    trace := d.trace ++ [.setLength count] }

theorem inflateMemBalloon_pages_eq (calls : BalloonCalls) (d : VirtioMemBalloonDevice)
    (few : count < bigChunkPages) :
    d.inflateMemBalloon calls count =
      ((d.pagesBegun count).inflatePages calls count 0).2.2.submitInflated calls .pages
        ((d.pagesBegun count).inflatePages calls count 0).1
        ((d.pagesBegun count).inflatePages calls count 0).2.1 := by
  rw [inflateMemBalloon,if_neg (Nat.not_le.mpr few)]
  rfl

theorem inflateMemBalloon_singles (calls : BalloonCalls) (d : VirtioMemBalloonDevice)
    (few : count < bigChunkPages) (small : d.pageBuffers.length + count < 2^32) :
    if calls.GrantsAll d.created count ∧ calls.submitBuffersToVirtqueue = .success then
      Inflated calls count d (d.inflateMemBalloon calls count)
    else Dropped calls count d (d.inflateMemBalloon calls count) := by
  have pages : freshPages d.created count = List.range' d.created count :=
    if_neg (Nat.not_le.mpr few)
  have chunks : freshChunks d.created count = [] := if_neg (Nat.not_le.mpr few)
  have grants : calls.GrantsAll d.created count ↔
      ∀ j < count, calls.Granted (d.created + j) 0 := by
    simp only [BalloonCalls.GrantsAll,pages,chunks,List.mem_range'_1,List.not_mem_nil,
      false_imp_iff,implies_true,and_true]
    constructor
    · exact fun all j below => all (d.created + j) ⟨by omega,by omega⟩
    · rintro all b ⟨from_,below⟩
      have same : d.created + (b - d.created) = b := by omega
      exact same ▸ all (b - d.created) (by omega)
  obtain ⟨result,made,addresses,equal,fewer,some,_,success,listed⟩ :=
    inflatePages_spec calls count 0 (d.pagesBegun count)
  have begun : (d.pagesBegun count).created = d.created := rfl
  rw [begun,← grants] at success
  rw [Nat.zero_add] at equal
  rw [inflateMemBalloon_pages_eq calls d few,equal]
  by_cases accepted : calls.GrantsAll d.created count ∧ calls.submitBuffersToVirtqueue = .success
  · have granted := success.mpr accepted.1
    obtain ⟨rfl,entries⟩ := listed granted
    have numbers : (List.range made).map addresses =
        calls.listing (freshPages d.created made) (freshChunks d.created made) := by
      rw [pages,chunks,BalloonCalls.listing,List.flatMap_nil,List.append_nil,List.range'_eq_map_range,
        List.map_map]
      apply List.map_congr_left
      intro j member
      have entry := entries j (List.mem_range.mp member)
      rw [begun] at entry
      simpa [Nat.add_comm] using entry
    rw [if_pos accepted,granted,submitInflated,if_pos rfl,submit_accepted accepted.2]
    refine ⟨⟨rfl,rfl⟩,⟨rfl,by rw [← numbers]; rfl,[.setLength made],
      by simp [BalloonEvent.Silent],by rw [← numbers]; rfl⟩,?_,?_,rfl,?_,fun b => ?_⟩
    · simp [pages,pagesBegun]
    · simp [chunks,pagesBegun]
    · simp [pages,chunks,pagesBegun]
    · simp [pages,chunks,pagesBegun,createdCounts]
  · have failed : result ≠ .success ∨ calls.submitBuffersToVirtqueue ≠ .success := by
      rw [ne_eq,success]
      exact Decidable.not_and_iff_or_not.mp accepted
    have held : array { d.pagesBegun count with
        pageBuffers := d.pageBuffers ++ List.range' d.created made
        pageAddresses := addresses
        retainCount := createdCounts d.retainCount d.created made (result == .success)
        created := d.created + made } .pages = d.pageBuffers ++ List.range' d.created made := rfl
    obtain ⟨_,events,silent,dropped⟩ := submitInflated_failed .pages failed _ held (by simp; omega)
    rw [if_neg accepted]
    simp only [List.length_range'] at dropped
    have made_pos : ¬calls.GrantsAll d.created count → 0 < made := by
      intro missing
      exact some fun good => missing (success.mp good)
    have missing : (result == .success) = false ↔ ¬calls.GrantsAll d.created count := by
      rw [beq_eq_false_iff_ne,ne_eq,success]
    have whole : ¬bigChunkPages ≤ count := Nat.not_le.mpr few
    refine dropped ▸ ⟨⟨rfl,rfl⟩,⟨rfl,.setLength count :: events,?_,?_⟩,rfl,rfl,rfl,rfl,
      Nat.le_add_right _ _,fun b => ?_,?_⟩
    · simpa [BalloonEvent.Silent] using silent
    · simp [pagesBegun]
    · have counts := createdCounts_dropped d.retainCount d.created made (result == .success) b
      simp only [missing] at counts
      simpa [withArray,whole] using counts
    · intro leak
      exact Nat.lt_add_of_pos_right (made_pos (leak.resolve_right whole))

/-- The pages of every buffer in the balloon have their physical segments, and the
submission is accepted. -/
structure GrantsHeld (calls : BalloonCalls) (d : VirtioMemBalloonDevice) : Prop where
  pages : ∀ buffer ∈ d.pageBuffers, calls.Granted buffer 0
  chunks : ∀ chunk ∈ d.bigChunkBuffers, ∀ page < bigChunkPages, calls.Granted chunk page
  submitted : calls.submitBuffersToVirtqueue = .success

/-- These buffers have left the balloon and wait for the deflation to complete. -/
structure Moved (d d' : VirtioMemBalloonDevice) (pages chunks : List Nat) : Prop where
  aside : Aside d d'
  inProgress : d'.inflateDeflateInProgress = true
  pageBuffers : d.pageBuffers = d'.pageBuffers ++ pages.reverse
  bigChunkBuffers : d.bigChunkBuffers = d'.bigChunkBuffers ++ chunks
  deflatingBuffers : d'.deflatingBuffers = d.deflatingBuffers ++ (pages ++ chunks)
  created : d'.created = d.created
  retainCount : d'.retainCount = d.retainCount

structure Deflated (calls : BalloonCalls) (d d' : VirtioMemBalloonDevice)
    (pages chunks : List Nat) : Prop where
  moved : Moved d d' pages chunks
  outcome : Submits d d' .deflate (calls.listing pages chunks) ∨
    Unsubmitted d d' ∧ ¬GrantsHeld calls d

/-- The last part of a deflation that has listed its pages, or has failed to. -/
theorem Moved.submit {calls : BalloonCalls} {d d' : VirtioMemBalloonDevice}
    (moved : Moved d d' pages chunks) (unsubmitted : Unsubmitted d d')
    (granted : GrantsHeld calls d → result = .success)
    (listed : result = .success → d'.pageAddressArray = calls.listing pages chunks) :
    Deflated calls d (d'.submitDeflated calls result) pages chunks := by
  by_cases good : result = .success
  · rw [submitDeflated,if_pos good]
    by_cases accepted : calls.submitBuffersToVirtqueue = .success
    · obtain ⟨events,silent,traced⟩ := unsubmitted.trace
      rw [submit_accepted accepted,listed good]
      refine ⟨⟨⟨moved.aside.1,moved.aside.2⟩,moved.inProgress,moved.pageBuffers,moved.bigChunkBuffers,
        moved.deflatingBuffers,moved.created,moved.retainCount⟩,
        .inl ⟨moved.inProgress,?_,events,silent,?_⟩⟩
      · simp only [unsubmitted.outstanding]
      · simp only [traced]
    · rw [submit_refused accepted]
      exact ⟨moved,.inr ⟨unsubmitted,fun held => accepted held.submitted⟩⟩
  · rw [submitDeflated,if_neg good]
    exact ⟨moved,.inr ⟨unsubmitted,fun held => good (granted held)⟩⟩

def chunkMoved (d : VirtioMemBalloonDevice) (front : List Nat) (chunk : Nat) :
    VirtioMemBalloonDevice :=
  { d with
    bigChunkBuffers := front
    deflatingBuffers := d.deflatingBuffers ++ [chunk]
    pageAddressCount := bigChunkPages
    inflateDeflateInProgress := true
    trace := d.trace ++ [.subtracted d.bigChunkBuffers.length 1,
      .removed (front.length + 1) front.length, .setLength bigChunkPages] }

theorem deflateMemBalloon_chunk_eq (calls : BalloonCalls) {d : VirtioMemBalloonDevice}
    (big : bigChunkPages ≤ count) (parts : d.bigChunkBuffers = front ++ [chunk])
    (small : d.bigChunkBuffers.length < 2^32) :
    d.deflateMemBalloon calls count =
      ((d.chunkMoved front chunk).listChunk calls chunk bigChunkPages 0).2.submitDeflated calls
        ((d.chunkMoved front chunk).listChunk calls chunk bigChunkPages 0).1 := by
  have length : d.bigChunkBuffers.length = front.length + 1 := by simp [parts]
  have same : d.begun.bigChunkBuffers = d.bigChunkBuffers := rfl
  have last : d.bigChunkBuffers.getLast? = some chunk := by simp [parts]
  have before : sub32 d.bigChunkBuffers.length 1 = front.length := by
    rw [sub32_exact (by omega) small]
    omega
  have removal := removeObject_last .bigChunks
    (d := (d.begun.setObject .deflating chunk).log (.subtracted d.bigChunkBuffers.length 1)) parts
  have moved : ((((((d.begun.setObject .deflating chunk).log
      (.subtracted d.bigChunkBuffers.length 1)).log
        (.removed (front.length + 1) front.length)).withArray front .bigChunks).release
          chunk).setLength bigChunkPages) = d.chunkMoved front chunk := by
    simp [chunkMoved,setObject,withArray,array,retain,release,log,setLength,begun]
  rw [deflateMemBalloon,if_pos ⟨big,by rw [same]; omega⟩,same,last]
  simp only [before,removal,moved]

theorem deflateMemBalloon_bigChunk (calls : BalloonCalls) (d : VirtioMemBalloonDevice)
    (big : bigChunkPages ≤ count) (parts : d.bigChunkBuffers = front ++ [chunk])
    (small : d.bigChunkBuffers.length < 2^32) :
    Deflated calls d (d.deflateMemBalloon calls count) [] [chunk] := by
  obtain ⟨result,addresses,equal,_,success,listed⟩ :=
    listChunk_spec calls chunk bigChunkPages 0 (d.chunkMoved front chunk)
  have moved : Moved d { d.chunkMoved front chunk with pageAddresses := addresses } [] [chunk] :=
    ⟨⟨rfl,rfl⟩,rfl,by simp [chunkMoved],parts,by simp [chunkMoved],rfl,rfl⟩
  rw [deflateMemBalloon_chunk_eq calls big parts small,equal]
  apply moved.submit ⟨rfl,_,?_,rfl⟩
  · intro held
    apply success.mpr
    intro page _ below
    exact held.chunks chunk (by simp [parts]) page (by omega)
  · intro good
    rw [BalloonCalls.listing,List.map_nil,List.nil_append,List.flatMap_singleton,
      BalloonCalls.chunkNumbers]
    apply List.map_congr_left
    intro page member
    have below : page < bigChunkPages := List.mem_range.mp member
    exact listed good page (Nat.zero_le _) (by omega)
  · simp [BalloonEvent.Silent]

theorem deflateMemBalloon_singles (calls : BalloonCalls) (d : VirtioMemBalloonDevice)
    (single : count < bigChunkPages ∨ d.bigChunkBuffers = [])
    (enough : count ≤ d.pageBuffers.length) (small : d.pageBuffers.length < 2^32) :
    ∃ pages, Deflated calls d (d.deflateMemBalloon calls count) pages [] := by
  have notChunk : ¬(count ≥ bigChunkPages ∧ d.begun.bigChunkBuffers.length > 0) := by
    rintro ⟨big,some⟩
    rcases single with few | none
    · omega
    · simp [begun,none] at some
  have few : ¬count > d.begun.pageBuffers.length := Nat.not_lt.mpr enough
  have within : min count bigChunkPages ≤ d.pageBuffers.length :=
    (Nat.min_le_left _ _).trans enough
  obtain ⟨result,kept,pages,addresses,events,split,silent,equal,_,all,listed⟩ :=
    deflatePages_spec calls (d.begun.setLength (min count bigChunkPages)) d.pageBuffers.length 0 rfl
      small within
  have moved : Moved d { d.begun.setLength (min count bigChunkPages) with
      pageBuffers := kept
      deflatingBuffers := d.deflatingBuffers ++ pages
      pageAddresses := addresses
      trace := (d.begun.setLength (min count bigChunkPages)).trace ++ events } pages [] :=
    ⟨⟨rfl,rfl⟩,rfl,split,by simp [setLength,log,begun],by simp,rfl,rfl⟩
  have same : d.begun.pageBuffers.length = d.pageBuffers.length := rfl
  rw [deflateMemBalloon,if_neg notChunk,if_neg few]
  simp only [same,equal]
  refine ⟨pages,moved.submit ⟨rfl,.setLength (min count bigChunkPages) :: events,?_,?_⟩ ?_ ?_⟩
  · simpa [BalloonEvent.Silent] using silent
  · simp [setLength,log,begun]
  · intro held
    apply all.mpr
    intro buffer member
    exact held.pages buffer (List.mem_reverse.mp (List.mem_of_mem_take member))
  · intro good
    have numbers := listed good
    simp only [Nat.zero_add] at numbers
    simpa [pageAddressArray,BalloonCalls.listing,setLength,log,begun] using numbers

end VirtioMemBalloonDevice

inductive BalloonPlan where
  | nothing
  | inflate (count : Nat)
  | deflate (count : Nat)
  deriving DecidableEq, Repr

namespace VirtioMemBalloonDevice

/-- The decision of a check, for a target that has been read. With too few single pages
and no chunk to take, the balloon first grows by the rest of a chunk. -/
def plan (d : VirtioMemBalloonDevice) (target : Nat) : BalloonPlan :=
  if d.inflateDeflateInProgress ∨ d.size.total = target then .nothing
  else if d.size.total < target then .inflate (target - d.size.total)
  else if bigChunkPages ≤ d.size.total - target ∧ d.bigChunkBuffers ≠ [] ∨
      d.size.total - target ≤ d.pageBuffers.length then .deflate (d.size.total - target)
  else .inflate (bigChunkPages - (d.size.total - target))

def Planned (calls : BalloonCalls) (d d' : VirtioMemBalloonDevice) : BalloonPlan → Prop
  | .nothing => d' = d
  | .inflate count =>
    if calls.GrantsAll d.created count ∧ calls.submitBuffersToVirtqueue = .success then
      Inflated calls count d d'
    else Dropped calls count d d'
  | .deflate _ => ∃ pages chunks, Deflated calls d d' pages chunks

theorem total_parts (d : VirtioMemBalloonDevice) :
    d.size.total = d.bigChunkBuffers.length * 512 + d.pageBuffers.length := rfl

/-- A balloon that cannot shrink at once has less than a chunk to give back, and more than its
single pages. -/
theorem near_target {d : VirtioMemBalloonDevice}
    (stuck : ¬(bigChunkPages ≤ d.size.total - target ∧ d.bigChunkBuffers ≠ [] ∨
      d.size.total - target ≤ d.pageBuffers.length)) :
    d.size.total - target < bigChunkPages ∧ d.pageBuffers.length < d.size.total - target := by
  have parts := d.total_parts
  obtain ⟨noChunk,few⟩ := not_or.mp stuck
  refine ⟨?_,Nat.not_le.mp few⟩
  by_contra far
  have none : d.bigChunkBuffers = [] := by
    by_contra some
    exact noChunk ⟨Nat.not_lt.mp far,some⟩
  rw [none,List.length_nil] at parts
  omega

theorem plan_inflate {d : VirtioMemBalloonDevice} (fits : d.size.total < 2^32) (small : target < 2^32)
    (planned : d.plan target = .inflate count) :
    0 < count ∧ (bigChunkPages ≤ count → d.size.total + bigChunkPages < 2^32) ∧
      (count < bigChunkPages → d.size.total + count < 2^32) := by
  have parts := d.total_parts
  have unit : bigChunkPages = 512 := rfl
  unfold plan at planned
  split at planned
  · cases planned
  rename_i away
  obtain ⟨_,away⟩ := not_or.mp away
  split at planned
  · cases planned
    omega
  split at planned
  · cases planned
  · rename_i short
    have near := (near_target short).1
    cases planned
    omega

/-- The two devices differ in events that are no submissions, and in the flag. -/
structure LoggedFrom (d before : VirtioMemBalloonDevice) : Prop where
  trace : ∃ events, (∀ event ∈ events, BalloonEvent.Silent event) ∧ before.trace = d.trace ++ events
  rest : before = { d with
    trace := before.trace, inflateDeflateInProgress := before.inflateDeflateInProgress }

theorem loggedFrom_log (d : VirtioMemBalloonDevice) (silent : event.Silent) :
    LoggedFrom d (d.log event) :=
  ⟨⟨[event],by simpa using silent,rfl⟩,rfl⟩

theorem loggedFrom_begun (d : VirtioMemBalloonDevice) : LoggedFrom d d.begun :=
  ⟨⟨[],by simp,by simp [begun]⟩,rfl⟩

theorem LoggedFrom.trans {d middle before : VirtioMemBalloonDevice} (first : LoggedFrom d middle)
    (second : LoggedFrom middle before) : LoggedFrom d before := by
  obtain ⟨events,silent,traced⟩ := first.trace
  obtain ⟨events',silent',traced'⟩ := second.trace
  refine ⟨⟨events ++ events',List.forall_mem_append.mpr ⟨silent,silent'⟩,?_⟩,?_⟩
  · rw [traced',traced,List.append_assoc]
  · rw [second.rest,first.rest]

section Logged

variable {calls : BalloonCalls} {d before d' : VirtioMemBalloonDevice} (logged : LoggedFrom d before)
include logged

theorem LoggedFrom.submits (submits : Submits before d' queue pages) : Submits d d' queue pages := by
  obtain ⟨earlier,quiet,start⟩ := logged.trace
  obtain ⟨events,silent,traced⟩ := submits.trace
  refine ⟨submits.inProgress,?_,earlier ++ events,List.forall_mem_append.mpr ⟨quiet,silent⟩,?_⟩
  · rw [submits.outstanding,logged.rest]
  · simp [traced,start]

theorem LoggedFrom.unsubmitted (unsubmitted : Unsubmitted before d') : Unsubmitted d d' := by
  obtain ⟨earlier,quiet,start⟩ := logged.trace
  obtain ⟨events,silent,traced⟩ := unsubmitted.trace
  refine ⟨?_,earlier ++ events,List.forall_mem_append.mpr ⟨quiet,silent⟩,?_⟩
  · rw [unsubmitted.outstanding,logged.rest]
  · rw [traced,start,List.append_assoc]

theorem LoggedFrom.aside (aside : Aside before d') : Aside d d' := by
  rw [logged.rest] at aside
  exact ⟨aside.target,aside.actual⟩

theorem LoggedFrom.inflated (inflated : Inflated calls count before d') :
    Inflated calls count d d' := by
  have aside := logged.aside inflated.aside
  have created : before.created = d.created := by rw [logged.rest]
  obtain ⟨_,submits,pageBuffers,bigChunkBuffers,deflatingBuffers,created',retainCount⟩ := inflated
  rw [created] at submits pageBuffers bigChunkBuffers created'
  simp only [created] at retainCount
  rw [logged.rest] at pageBuffers bigChunkBuffers deflatingBuffers retainCount
  exact ⟨aside,logged.submits submits,pageBuffers,bigChunkBuffers,deflatingBuffers,created',
    retainCount⟩

theorem LoggedFrom.dropped (dropped : Dropped calls count before d') : Dropped calls count d d' := by
  have aside := logged.aside dropped.aside
  have unsubmitted := logged.unsubmitted dropped.unsubmitted
  rw [logged.rest] at dropped
  exact ⟨aside,unsubmitted,dropped.inProgress,dropped.pageBuffers,dropped.bigChunkBuffers,
    dropped.deflatingBuffers,dropped.created,dropped.retainCount,dropped.leaves⟩

theorem LoggedFrom.deflated (deflated : Deflated calls before d' pages chunks) :
    Deflated calls d d' pages chunks := by
  obtain ⟨moved,outcome⟩ := deflated
  refine ⟨?_,?_⟩
  · have aside := logged.aside moved.aside
    rw [logged.rest] at moved
    exact ⟨aside,moved.inProgress,moved.pageBuffers,moved.bigChunkBuffers,moved.deflatingBuffers,
      moved.created,moved.retainCount⟩
  · refine outcome.imp logged.submits fun failed => ⟨logged.unsubmitted failed.1,fun held => ?_⟩
    apply failed.2
    rw [logged.rest]
    exact ⟨held.pages,held.chunks,held.submitted⟩

end Logged

theorem inflateMemBalloon_planned (calls : BalloonCalls) {d before : VirtioMemBalloonDevice}
    (logged : LoggedFrom d before) (fits : d.size.total < 2^32) (small : target < 2^32)
    (planned : d.plan target = .inflate count) :
    Planned calls d (before.inflateMemBalloon calls count) (.inflate count) := by
  obtain ⟨_,chunk,pages⟩ := plan_inflate fits small planned
  have parts := d.total_parts
  have unit : bigChunkPages = 512 := rfl
  have created : before.created = d.created := by rw [logged.rest]
  have chunks : before.bigChunkBuffers = d.bigChunkBuffers := by rw [logged.rest]
  have singles : before.pageBuffers = d.pageBuffers := by rw [logged.rest]
  have outcome : if calls.GrantsAll before.created count ∧
      calls.submitBuffersToVirtqueue = .success then
      Inflated calls count before (before.inflateMemBalloon calls count)
    else Dropped calls count before (before.inflateMemBalloon calls count) := by
    by_cases big : bigChunkPages ≤ count
    · have := chunk big
      exact inflateMemBalloon_bigChunk calls before big (by rw [chunks]; omega)
    · have := pages (by omega)
      exact inflateMemBalloon_singles calls before (by omega) (by rw [singles]; omega)
  rw [created] at outcome
  dsimp only [Planned]
  split at outcome
  · rename_i accepted
    rw [if_pos accepted]
    exact logged.inflated outcome
  · rename_i refused
    rw [if_neg refused]
    exact logged.dropped outcome

/-- Every check does what it has decided to do. -/
theorem inflateDeflateIfNecessary_planned (calls : BalloonCalls) (d : VirtioMemBalloonDevice)
    (fits : d.size.total < 2^32) (small : target < 2^32) :
    Planned calls d (d.inflateDeflateIfNecessary calls target) (d.plan target) := by
  have parts := d.total_parts
  have unit : bigChunkPages = 512 := rfl
  have silent (a b : Nat) : (BalloonEvent.subtracted a b).Silent := by simp [BalloonEvent.Silent]
  by_cases rests : d.inflateDeflateInProgress = true ∨ d.size.total = target
  · have same : d.inflateDeflateIfNecessary calls target = d := by
      rw [inflateDeflateIfNecessary,totalPagesAllocated_eq fits]
      rcases rests with busy | reached
      · rw [if_pos busy]
      · simp [reached]
    rw [plan,if_pos rests]
    exact same
  obtain ⟨idle,away⟩ := not_or.mp rests
  rw [inflateDeflateIfNecessary,totalPagesAllocated_eq fits,if_neg idle]
  simp only [if_neg away]
  by_cases below : d.size.total < target
  · have planned : d.plan target = .inflate (target - d.size.total) := by
      simp only [plan,if_neg rests,if_pos below]
    rw [if_pos below,sub32_exact below.le small,planned]
    exact inflateMemBalloon_planned calls (loggedFrom_log d (silent _ _)) fits small planned
  rw [if_neg below,sub32_exact (by omega) fits]
  have logged := loggedFrom_log d (silent d.size.total target)
  have begun := logged.trans (loggedFrom_begun _)
  by_cases shrinks : bigChunkPages ≤ d.size.total - target ∧ d.bigChunkBuffers ≠ [] ∨
      d.size.total - target ≤ d.pageBuffers.length
  · have planned : d.plan target = .deflate (d.size.total - target) := by
      simp only [plan,if_neg rests,if_neg below,if_pos shrinks]
    rw [planned]
    by_cases chunk : bigChunkPages ≤ d.size.total - target ∧ d.bigChunkBuffers ≠ []
    · obtain ⟨front,last,split⟩ := (List.eq_nil_or_concat' d.bigChunkBuffers).resolve_left chunk.2
      exact ⟨[],[last],logged.deflated (deflateMemBalloon_bigChunk calls (d.log _) chunk.1 split
        (show d.bigChunkBuffers.length < _ by omega))⟩
    · have enough := shrinks.resolve_left chunk
      have single : d.size.total - target < bigChunkPages ∨ d.bigChunkBuffers = [] := by
        by_contra both
        obtain ⟨far,some⟩ := not_or.mp both
        exact chunk ⟨by omega,some⟩
      obtain ⟨pages,deflated⟩ := deflateMemBalloon_singles calls
        (d.log (.subtracted d.size.total target)) single enough
        (show d.pageBuffers.length < _ by omega)
      exact ⟨pages,[],logged.deflated deflated⟩
  · obtain ⟨noChunk,few⟩ := not_or.mp shrinks
    have planned : d.plan target = .inflate (bigChunkPages - (d.size.total - target)) := by
      simp only [plan,if_neg rests,if_neg below,if_neg shrinks]
    have positive := (plan_inflate fits small planned).1
    have converts : (d.log (.subtracted d.size.total target)).deflateMemBalloon calls
        (d.size.total - target) =
      (((d.log (.subtracted d.size.total target)).begun.log
        (.subtracted bigChunkPages (d.size.total - target))).inflateMemBalloon calls
          (bigChunkPages - (d.size.total - target))) := by
      have notChunk : ¬(d.size.total - target ≥ bigChunkPages ∧
          (d.log (.subtracted d.size.total target)).begun.bigChunkBuffers.length > 0) := by
        omega
      have more : d.size.total - target >
          (d.log (.subtracted d.size.total target)).begun.pageBuffers.length := Nat.not_le.mp few
      rw [deflateMemBalloon,if_neg notChunk,if_pos more,sub32_exact (by omega) (by decide)]
    rw [planned,converts]
    exact inflateMemBalloon_planned calls (begun.trans (loggedFrom_log _ (silent _ _))) fits small
      planned

end VirtioMemBalloonDevice

/-- The numbers of the driver stay in range, whatever its calls return. -/
structure BalloonBounds (s : BalloonSystem) : Prop where
  fits : s.device.size.total < 2^32
  target : s.device.numRequestedPages < 2^32
  acting : ∀ numPages, s.position = .acting numPages → numPages < 2^32

theorem balloonBounds_start (target : Nat) (due : Bool) : BalloonBounds (.start target due) where
  fits := show 0 * bigChunkPages + 0 < 2^32 by decide
  target := Nat.mod_lt _ (by decide)
  acting _ position := by cases position

open VirtioMemBalloonDevice

theorem planned_bounds {d d' : VirtioMemBalloonDevice} (fits : d.size.total < 2^32)
    (small : target < 2^32) (planned : Planned calls d d' (d.plan target)) :
    d'.size.total < 2^32 ∧ d'.numRequestedPages = d.numRequestedPages := by
  have parts := d.total_parts
  have parts' := d'.total_parts
  have unit : bigChunkPages = 512 := rfl
  cases decided : d.plan target with
  | nothing =>
    rw [decided] at planned
    obtain rfl : d' = d := planned
    exact ⟨fits,rfl⟩
  | inflate count =>
    rw [decided] at planned
    dsimp only [Planned] at planned
    split at planned
    · have bound := plan_inflate fits small decided
      refine ⟨?_,planned.aside.target⟩
      rw [planned.pageBuffers,planned.bigChunkBuffers,List.length_append,List.length_append] at parts'
      by_cases big : bigChunkPages ≤ count
      · have added := bound.2.1 big
        simp only [freshPages,freshChunks,if_pos big,List.length_nil,List.length_singleton] at parts'
        omega
      · have added := bound.2.2 (Nat.not_le.mp big)
        simp only [freshPages,freshChunks,if_neg big,List.length_nil,List.length_range'] at parts'
        omega
    · refine ⟨?_,planned.aside.target⟩
      rw [planned.pageBuffers,planned.bigChunkBuffers] at parts'
      omega
  | deflate count =>
    rw [decided] at planned
    obtain ⟨pages,chunks,moved,_⟩ := planned
    rw [moved.pageBuffers,moved.bigChunkBuffers,List.length_append,List.length_append] at parts
    exact ⟨by omega,moved.aside.target⟩

theorem BalloonBounds.keeps (taken : balloonStep a s = some s') (inv : BalloonBounds s) :
    BalloonBounds s' := by
  cases a with
  | hostWrites target =>
    cases taken
    exact ⟨inv.fits,Nat.mod_lt _ (by decide),inv.acting⟩
  | callback =>
    obtain ⟨_,rfl⟩ := BalloonSystem.callback_cases taken
    exact ⟨inv.fits,inv.target,by simp⟩
  | completion deviceReset =>
    obtain ⟨request,rest,_,_,rfl⟩ := BalloonSystem.completion_cases taken
    split
    · exact ⟨inv.fits,inv.target,inv.acting⟩
    · obtain ⟨deflating,counts,returned⟩ := requestReturned_eq request.queue
        { s.device with outstanding := rest }
      rw [returned]
      exact ⟨inv.fits,inv.target,by simp⟩
  | readTarget =>
    obtain ⟨_,rfl⟩ := BalloonSystem.readTarget_cases taken
    refine ⟨inv.fits,inv.target,?_⟩
    rintro numPages position
    cases position
    exact inv.target
  | act calls =>
    obtain ⟨numPages,position,rfl⟩ := BalloonSystem.act_cases taken
    have small := inv.acting numPages position
    have planned := inflateDeflateIfNecessary_planned calls s.device inv.fits small
    obtain ⟨fits,target⟩ := planned_bounds inv.fits small planned
    exact ⟨fits,by simpa only [target] using inv.target,by simp⟩

/-- The other steps leave the device alone but for the target. -/
theorem BalloonSystem.others_cases (taken : balloonStep a s = some s')
    (noCompletion : ∀ deviceReset, a ≠ .completion deviceReset) (noAct : ∀ calls, a ≠ .act calls) :
    ∃ target, s'.device = { s.device with numRequestedPages := target } := by
  cases a with
  | completion deviceReset => exact absurd rfl (noCompletion deviceReset)
  | act calls => exact absurd rfl (noAct calls)
  | hostWrites target =>
    cases taken
    exact ⟨target % 2^32,rfl⟩
  | callback =>
    obtain ⟨_,rfl⟩ := BalloonSystem.callback_cases taken
    exact ⟨_,rfl⟩
  | readTarget =>
    obtain ⟨_,rfl⟩ := BalloonSystem.readTarget_cases taken
    exact ⟨_,rfl⟩

end VirtioOsx
