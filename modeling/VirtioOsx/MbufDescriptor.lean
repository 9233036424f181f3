import Mathlib.Order.Bounds.Basic
import VirtioOsx.Virtqueue

/-! `PJMbufMemoryDescriptor`: a memory descriptor for a chain of network buffers, with a cursor
that remembers where in the chain the last call was. -/
namespace VirtioOsx

structure Mbuf where
  data : Nat
  len : Nat
  addressable : data + len ≤ 2 ^ 64

/-- `mbuf_data_to_physical`. A page is in one place. -/
structure PhysicalMap where
  dataToPhysical : Nat → UInt64
  linear : ∀ address k, address / pageSize = (address + k) / pageSize →
    dataToPhysical (address + k) = dataToPhysical address + UInt64.ofNat k

def mbufChainLen (mbuf : List Mbuf) : Nat :=
  mbuf.foldl (fun size cur => (size + cur.len) % 2 ^ 64) 0

def lenSum (mbufs : List Mbuf) : Nat := (mbufs.map Mbuf.len).sum

/-- The bytes of a chain are in memory all at once. -/
structure MbufChain where
  mbufs : List Mbuf
  total : lenSum mbufs < 2 ^ 64

structure PJMbufMemoryDescriptor where
  firstInitDone : Bool
  mbuf : List Mbuf
  length : Nat
  curMbuf : List Mbuf
  curMbufBegin : Nat
  prepareCount : Int

def truncPage (address : Nat) : Nat := address / pageSize * pageSize

def nextPageDelta (offsetAddr : Nat) : Nat :=
  let nextPage := truncPage ((offsetAddr + pageSize) % 2 ^ 64)
  (nextPage + 2 ^ 64 - offsetAddr) % 2 ^ 64

/-- The loop over pages. `offset_data` and `offset_addr` are the same address, and `fuel` is
the number of bytes that remain when the loop is entered. -/
def contiguousLength (map : PhysicalMap) (phys : UInt64) :
    (fuel offsetAddr len remain : Nat) → Nat
  | 0, _, len, _ => len
  | fuel + 1, offsetAddr, len, remain =>
    let delta := nextPageDelta offsetAddr
    if remain ≤ delta then len + remain
    else
      let len := len + delta
      let offsetAddr := offsetAddr + delta
      if map.dataToPhysical offsetAddr = phys + UInt64.ofNat len then
        contiguousLength map phys fuel offsetAddr len (remain - delta)
      else len

/-- Walk to the buffer that contains `offset`: where it begins, the buffer and those after
it. Absent when the chain ends first. -/
def walkMbufs (offset : Nat) : Nat → List Mbuf → Option (Nat × Mbuf × List Mbuf)
  | _, [] => none
  | begin, cur :: next =>
    if offset ≥ (begin + cur.len) % 2 ^ 64 then walkMbufs offset ((begin + cur.len) % 2 ^ 64) next
    else some (begin, cur, next)

namespace PJMbufMemoryDescriptor

def initWithMbuf (superInit : Bool) (mbuf : List Mbuf) (d : PJMbufMemoryDescriptor) :
    Bool × PJMbufMemoryDescriptor :=
  if !d.firstInitDone && !superInit then (false, d)
  else if d.firstInitDone && d.prepareCount != 0 then (false, d)
  else (true, {
    firstInitDone := true
    mbuf := mbuf
    length := if mbuf.isEmpty then 0 else mbufChainLen mbuf
    curMbuf := mbuf
    curMbufBegin := 0
    prepareCount := if d.firstInitDone then d.prepareCount else 0 })

def rewind (d : PJMbufMemoryDescriptor) : PJMbufMemoryDescriptor :=
  { d with curMbuf := d.mbuf, curMbufBegin := 0 }

/-- The address that is returned, what is stored through `length` unless that is `NULL`, and
the descriptor with its cursor. -/
def getPhysicalSegment (map : PhysicalMap) (offset : Nat) (length : Bool)
    (d : PJMbufMemoryDescriptor) : (UInt64 × Option Nat) × PJMbufMemoryDescriptor :=
  let stored (n : Nat) := if length then some n else none
  if d.mbuf.isEmpty || offset ≥ d.length then ((0, stored 0), d)
  else
    let d := if offset < d.curMbufBegin then d.rewind else d
    match walkMbufs offset d.curMbufBegin d.curMbuf with
    | none => ((0, stored 0), d.rewind)
    | some (begin, cur, next) =>
      let mbufOffset := offset - begin
      let offsetAddr := cur.data + mbufOffset
      let phys := map.dataToPhysical offsetAddr
      let remain := cur.len - mbufOffset
      ((phys, stored (contiguousLength map phys remain offsetAddr 0 remain)),
        { d with curMbuf := cur :: next, curMbufBegin := begin })

def after (map : PhysicalMap) (calls : List (Nat × Bool)) (d : PJMbufMemoryDescriptor) :
    PJMbufMemoryDescriptor :=
  calls.foldl (fun d call => (d.getPhysicalSegment map call.1 call.2).2) d

end PJMbufMemoryDescriptor

/-- A run may go on into the page that begins `j` bytes after `address`. -/
def Adjacent (map : PhysicalMap) (address j : Nat) : Prop :=
  (address + j) % pageSize = 0 →
    map.dataToPhysical (address + j) = map.dataToPhysical address + UInt64.ofNat j

theorem nextPageDelta_eq (small : address < 2 ^ 64) :
    nextPageDelta address = pageSize - address % pageSize := by
  simp only [nextPageDelta,truncPage,pageSize]
  omega

theorem adjacent_inside (before : len < j) (below : j < len + nextPageDelta (address + len))
    (small : address + len < 2 ^ 64) : Adjacent map address j := by
  intro boundary
  rw [nextPageDelta_eq small] at below
  simp only [pageSize] at boundary below
  omega

theorem nextPageDelta_pos (small : address < 2 ^ 64) : 0 < nextPageDelta address := by
  rw [nextPageDelta_eq small]
  exact Nat.sub_pos_of_lt (Nat.mod_lt _ (by decide))

/-- The run found by the loop: it ends with the buffer or before a page elsewhere. -/
structure LongestRun (map : PhysicalMap) (address remain run : Nat) : Prop where
  positive : 0 < run
  inside : run ≤ remain
  adjacent : ∀ j, 0 < j → j < run → Adjacent map address j
  ends : run = remain ∨ ¬Adjacent map address run

/-- The induction is on the fuel; `len` bytes have been found contiguous so far, up to the
beginning of a page that is adjacent itself. -/
theorem contiguousLength_spec (map : PhysicalMap) (address : Nat) (fuel : Nat) :
    ∀ len remain, 0 < remain → remain ≤ fuel → address + len + remain ≤ 2 ^ 64 →
      (∀ j, 0 < j → j ≤ len → Adjacent map address j) →
      LongestRun map address (len + remain)
        (contiguousLength map (map.dataToPhysical address) fuel (address + len) len remain) := by
  induction fuel with
  | zero =>
    intro len remain positive enough
    omega
  | succ fuel ih =>
    intro len remain positive enough inside adjacent
    have small : address + len < 2 ^ 64 := by omega
    have some := nextPageDelta_pos small
    have upTo (bound : Nat) (within : bound ≤ len + nextPageDelta (address + len)) (j : Nat)
        (first : 0 < j) (below : j < bound) : Adjacent map address j := by
      rcases Nat.lt_or_ge len j with beyond | early
      · exact adjacent_inside beyond (by omega) small
      · exact adjacent j first early
    rw [contiguousLength]
    dsimp only
    split
    · rename_i last
      exact ⟨by omega,le_rfl,upTo (len + remain) (by omega),.inl rfl⟩
    rename_i more
    rw [Nat.add_assoc address]
    split
    · rename_i same
      have next := ih (len + nextPageDelta (address + len))
        (remain - nextPageDelta (address + len)) (by omega) (by omega) (by omega) fun j first below => by
          rcases Nat.lt_or_eq_of_le below with below | rfl
          · exact upTo _ le_rfl j first below
          · exact fun _ => same
      have rest : len + nextPageDelta (address + len) + (remain - nextPageDelta (address + len)) =
          len + remain := by omega
      rwa [rest] at next
    · rename_i elsewhere
      refine ⟨by omega,by omega,upTo _ le_rfl,.inr fun adjacent => elsewhere (adjacent ?_)⟩
      rw [nextPageDelta_eq small]
      simp only [pageSize]
      omega

theorem longestRun (map : PhysicalMap) (address remain : Nat) (positive : 0 < remain)
    (inside : address + remain ≤ 2 ^ 64) :
    LongestRun map address remain
      (contiguousLength map (map.dataToPhysical address) remain address 0 remain) := by
  have run := contiguousLength_spec map address remain 0 remain positive le_rfl inside
    fun j first none => by omega
  rwa [Nat.zero_add] at run

theorem LongestRun.contiguous (run : LongestRun map address remain length) (below : j < length) :
    map.dataToPhysical (address + j) = map.dataToPhysical address + UInt64.ofNat j := by
  by_cases here : address / pageSize = (address + j) / pageSize
  · exact map.linear address j here
  · -- the page of the byte begins inside the run
    obtain ⟨first,rest,split,begins,page⟩ : ∃ first rest, j = first + rest ∧
        (address + first) % pageSize = 0 ∧
        (address + first) / pageSize = (address + first + rest) / pageSize := by
      have order : address / pageSize < (address + j) / pageSize :=
        lt_of_le_of_ne (Nat.div_le_div_right (by omega)) here
      simp only [pageSize] at order ⊢
      exact ⟨(address + j) / 4096 * 4096 - address,address + j - (address + j) / 4096 * 4096,
        by omega,by omega,by omega⟩
    have positive : 0 < first := by
      rcases Nat.eq_zero_or_pos first with rfl | positive
      · rw [split,Nat.zero_add] at here
        exact absurd page here
      · exact positive
    rw [split,← Nat.add_assoc,map.linear _ rest page,
      run.adjacent first positive (by omega) begins,UInt64.ofNat_add,UInt64.add_assoc]

structure StaysAdjacent (map : PhysicalMap) (m : Mbuf) (position run : Nat) : Prop where
  positive : 1 ≤ run
  inside : position + run ≤ m.len
  adjacent : ∀ j, 0 < j → j < run → Adjacent map (m.data + position) j

theorem LongestRun.greatest (below : position < m.len)
    (run : LongestRun map (m.data + position) (m.len - position) length) :
    IsGreatest { l | StaysAdjacent map m position l } length := by
  have inside := run.inside
  refine ⟨⟨run.positive,by omega,run.adjacent⟩,fun other stays => ?_⟩
  have within := stays.inside
  rcases run.ends with last | elsewhere
  · omega
  · by_contra longer
    exact elsewhere (stays.adjacent length run.positive (by omega))

@[simp] theorem lenSum_append (first rest : List Mbuf) :
    lenSum (first ++ rest) = lenSum first + lenSum rest := by
  simp [lenSum]

@[simp] theorem lenSum_cons (m : Mbuf) (rest : List Mbuf) :
    lenSum (m :: rest) = m.len + lenSum rest := by
  simp [lenSum]

theorem mbufChainLen_eq (chain : MbufChain) : mbufChainLen chain.mbufs = lenSum chain.mbufs := by
  have sums (mbufs : List Mbuf) (size : Nat) (fits : size + lenSum mbufs < 2 ^ 64) :
      mbufs.foldl (fun size cur => (size + cur.len) % 2 ^ 64) size = size + lenSum mbufs := by
    induction mbufs generalizing size with
    | nil => simp [lenSum]
    | cons m rest ih =>
      rw [lenSum_cons] at fits ⊢
      rw [List.foldl_cons,Nat.mod_eq_of_lt (by omega),ih _ (by omega),Nat.add_assoc]
  have total := sums chain.mbufs 0 (by simpa using chain.total)
  rwa [Nat.zero_add] at total

/-- The walk stops at the buffer that contains the offset. -/
theorem walkMbufs_spec (offset : Nat) (mbufs : List Mbuf) : ∀ begin, begin ≤ offset →
    offset < begin + lenSum mbufs → begin + lenSum mbufs < 2 ^ 64 →
    ∃ passed m rest, mbufs = passed ++ m :: rest ∧ begin + lenSum passed ≤ offset ∧
      offset < begin + lenSum passed + m.len ∧
      walkMbufs offset begin mbufs = some (begin + lenSum passed, m, rest) := by
  induction mbufs with
  | nil =>
    intro begin le lt
    simp [lenSum] at lt
    omega
  | cons m rest ih =>
    intro begin le lt fits
    rw [lenSum_cons] at lt fits
    rw [walkMbufs,Nat.mod_eq_of_lt (show begin + m.len < 2 ^ 64 by omega)]
    by_cases beyond : offset ≥ begin + m.len
    · obtain ⟨passed,m',rest',same,before,inside,found⟩ := ih (begin + m.len) beyond (by omega)
        (by omega)
      refine ⟨m :: passed,m',rest',by rw [same]; rfl,?_,?_,?_⟩
      · rw [lenSum_cons]
        omega
      · rw [lenSum_cons]
        omega
      · rw [if_pos beyond,found,lenSum_cons,Nat.add_assoc]
    · refine ⟨[],m,rest,rfl,by simpa [lenSum] using le,by simpa [lenSum] using beyond,?_⟩
      rw [if_neg beyond]
      rfl

structure Cursor (chain : MbufChain) (d : PJMbufMemoryDescriptor) : Prop where
  mbuf : d.mbuf = chain.mbufs
  length : d.length = lenSum chain.mbufs
  cursor : ∃ passed, chain.mbufs = passed ++ d.curMbuf ∧ d.curMbufBegin = lenSum passed

theorem cursor_init {d : PJMbufMemoryDescriptor} {chain : MbufChain}
    (initialised : d.initWithMbuf superInit chain.mbufs = (true, d')) : Cursor chain d' := by
  unfold PJMbufMemoryDescriptor.initWithMbuf at initialised
  split at initialised
  · cases initialised
  split at initialised
  · cases initialised
  · obtain rfl := (Prod.mk.inj initialised).2
    refine ⟨rfl,?_,[],rfl,rfl⟩
    dsimp only
    split
    · rename_i empty
      rw [List.isEmpty_iff.mp empty]
      rfl
    · exact mbufChainLen_eq chain

theorem Cursor.rewind (cursor : Cursor chain d) : Cursor chain d.rewind :=
  ⟨cursor.mbuf,cursor.length,[],cursor.mbuf.symm,rfl⟩

def Mbuf.addresses (m : Mbuf) : List Nat := (List.range m.len).map (m.data + ·)

def addresses (mbufs : List Mbuf) : List Nat := mbufs.flatMap Mbuf.addresses

structure Contains (mbufs : List Mbuf) (offset : Nat) (passed : List Mbuf) (m : Mbuf)
    (rest : List Mbuf) : Prop where
  split : mbufs = passed ++ m :: rest
  before : lenSum passed ≤ offset
  inside : offset < lenSum passed + m.len

theorem Contains.prefix (one : Contains mbufs offset passed m rest)
    (two : Contains mbufs offset (passed ++ more) m' rest')
    (between : m :: rest = more ++ m' :: rest') : more = [] := by
  cases more with
  | nil => rfl
  | cons first more =>
    obtain ⟨rfl,_⟩ := List.cons.inj between
    have inside := one.inside
    have before := two.before
    simp only [lenSum_append,lenSum_cons] at before
    omega

theorem Contains.unique (one : Contains mbufs offset passed m rest)
    (two : Contains mbufs offset passed' m' rest') : passed = passed' ∧ m = m' := by
  rcases List.append_eq_append_iff.mp (one.split.symm.trans two.split) with
    ⟨more,rfl,between⟩ | ⟨more,rfl,between⟩
  · obtain rfl := one.prefix two between
    rw [List.nil_append] at between
    exact ⟨(List.append_nil _).symm,(List.cons.inj between).1⟩
  · obtain rfl := two.prefix one between
    rw [List.nil_append] at between
    exact ⟨List.append_nil _,(List.cons.inj between).1.symm⟩

theorem addresses_append (first rest : List Mbuf) :
    addresses (first ++ rest) = addresses first ++ addresses rest :=
  List.flatMap_append

theorem addresses_cons (m : Mbuf) (rest : List Mbuf) :
    addresses (m :: rest) = m.addresses ++ addresses rest :=
  List.flatMap_cons

theorem length_addresses (mbufs : List Mbuf) : (addresses mbufs).length = lenSum mbufs := by
  simp [addresses,lenSum,Mbuf.addresses,List.length_flatMap]

theorem Contains.address (contains : Contains mbufs offset passed m rest)
    (inside : offset + j < lenSum passed + m.len) :
    (addresses mbufs)[offset + j]? = some (m.data + (offset - lenSum passed) + j) := by
  have before := contains.before
  have position : offset + j - lenSum passed < m.len := by omega
  have place : m.data + (offset + j - lenSum passed) = m.data + (offset - lenSum passed) + j := by
    omega
  rw [contains.split,addresses_append,addresses_cons,
    List.getElem?_append_right (by rw [length_addresses]; omega),length_addresses,
    List.getElem?_append_left (by simp [Mbuf.addresses,position]),Mbuf.addresses,
    List.getElem?_map,List.getElem?_range position,Option.map_some,place]

/-- What a call is to answer for an offset inside the chain: the address of that byte, and the
length of the longest run from there. -/
structure IsSegment (map : PhysicalMap) (chain : MbufChain) (offset : Nat) (phys : UInt64)
    (len : Nat) : Prop where
  byte : ∃ address, (addresses chain.mbufs)[offset]? = some address ∧
    phys = map.dataToPhysical address
  longest : ∃ passed m rest, Contains chain.mbufs offset passed m rest ∧
    IsGreatest { l | StaysAdjacent map m (offset - lenSum passed) l } len

theorem IsSegment.unique (one : IsSegment map chain offset phys len)
    (two : IsSegment map chain offset phys' len') : phys = phys' ∧ len = len' := by
  obtain ⟨address,there,rfl⟩ := one.byte
  obtain ⟨address',there',rfl⟩ := two.byte
  obtain ⟨passed,m,rest,contains,greatest⟩ := one.longest
  obtain ⟨passed',m',rest',contains',greatest'⟩ := two.longest
  obtain ⟨rfl,rfl⟩ := contains.unique contains'
  obtain rfl := Option.some.inj (there.symm.trans there')
  exact ⟨rfl,greatest.unique greatest'⟩

theorem Cursor.segment (cursor : Cursor chain d) (map : PhysicalMap)
    (below : offset < lenSum chain.mbufs) :
    ∃ phys len d', IsSegment map chain offset phys len ∧ Cursor chain d' ∧
      (∀ j < len, ((addresses chain.mbufs)[offset + j]?).map map.dataToPhysical =
        some (phys + UInt64.ofNat j)) ∧
      ∀ length, d.getPhysicalSegment map offset length =
        ((phys, if length then some len else none), d') := by
  have total := chain.total
  have nonempty : d.mbuf.isEmpty = false := by
    rw [cursor.mbuf]
    cases shape : chain.mbufs with
    | nil => simp [shape,lenSum] at below
    | cons => rfl
  -- the walk starts at a buffer that does not begin behind the offset
  obtain ⟨start,behind,shape⟩ : ∃ start, (Cursor chain start ∧ start.curMbufBegin ≤ offset) ∧
      (if offset < d.curMbufBegin then d.rewind else d) = start := by
    split
    · exact ⟨_,⟨cursor.rewind,Nat.zero_le _⟩,rfl⟩
    · exact ⟨_,⟨cursor,by omega⟩,rfl⟩
  obtain ⟨started,begins⟩ := behind
  obtain ⟨passed,split,begin⟩ := started.cursor
  rw [split,lenSum_append] at below total
  obtain ⟨more,m,rest,walked,before,inside,found⟩ :=
    walkMbufs_spec offset start.curMbuf start.curMbufBegin begins (by omega) (by omega)
  have contains : Contains chain.mbufs offset (passed ++ more) m rest := by
    refine ⟨by rw [split,walked,List.append_assoc],?_,?_⟩
    · rw [lenSum_append]
      omega
    · rw [lenSum_append]
      omega
  rw [begin,← lenSum_append] at before inside found
  have run := longestRun map (m.data + (offset - lenSum (passed ++ more)))
    (m.len - (offset - lenSum (passed ++ more))) (by omega) (by have := m.addressable; omega)
  have whole := run.inside
  refine ⟨_,_,{ start with curMbuf := m :: rest, curMbufBegin := lenSum (passed ++ more) },
    ⟨⟨_,contains.address (j := 0) contains.inside,rfl⟩,_,m,rest,contains,run.greatest (by omega)⟩,
    ⟨started.mbuf,started.length,_,contains.split,rfl⟩,fun j within => ?_,fun length => ?_⟩
  · rw [contains.address (by omega),Option.map_some,Nat.add_zero]
    exact congrArg some (run.contiguous within)
  · unfold PJMbufMemoryDescriptor.getPhysicalSegment
    rw [nonempty,cursor.length,split,lenSum_append]
    dsimp only
    rw [Bool.false_or,if_neg (by simpa using below),shape,begin,found]
    rfl

theorem Cursor.outside (cursor : Cursor chain d) (map : PhysicalMap)
    (beyond : lenSum chain.mbufs ≤ offset) (length : Bool) :
    d.getPhysicalSegment map offset length = ((0, if length then some 0 else none), d) := by
  unfold PJMbufMemoryDescriptor.getPhysicalSegment
  rw [cursor.length]
  dsimp only
  rw [if_pos (by simp [beyond])]

theorem Cursor.step (cursor : Cursor chain d) (map : PhysicalMap) (offset : Nat) (length : Bool) :
    Cursor chain (d.getPhysicalSegment map offset length).2 := by
  rcases Nat.lt_or_ge offset (lenSum chain.mbufs) with below | beyond
  · obtain ⟨phys,len,d',_,cursor',_,answer⟩ := cursor.segment map below
    rw [answer length]
    exact cursor'
  · rw [cursor.outside map beyond length]
    exact cursor

theorem Cursor.after (cursor : Cursor chain d) (map : PhysicalMap) (calls : List (Nat × Bool)) :
    Cursor chain (d.after map calls) := by
  induction calls generalizing d with
  | nil => exact cursor
  | cons call calls ih => exact ih (cursor.step map call.1 call.2)

/-- From `offset` on by the returned lengths, until one is zero: the segments, and the offset
at which that happens. -/
def walkMbufSegments (map : PhysicalMap) :
    Nat → Nat → PJMbufMemoryDescriptor → List (UInt64 × Nat) × Nat
  | 0, offset, _ => ([], offset)
  | fuel + 1, offset, d =>
    match d.getPhysicalSegment map offset true with
    | ((phys, some (len + 1)), d') =>
      let walk := walkMbufSegments map fuel (offset + (len + 1)) d'
      ((phys, len + 1) :: walk.1, walk.2)
    | _ => ([], offset)

def segmentBytes (segment : UInt64 × Nat) : List UInt64 :=
  (List.range segment.2).map fun j => segment.1 + UInt64.ofNat j

theorem Cursor.walk (cursor : Cursor chain d) (map : PhysicalMap) (fuel : Nat)
    (start : offset ≤ lenSum chain.mbufs) (enough : lenSum chain.mbufs - offset ≤ fuel) :
    (walkMbufSegments map fuel offset d).1.flatMap segmentBytes =
        ((addresses chain.mbufs).drop offset).map map.dataToPhysical ∧
      (walkMbufSegments map fuel offset d).2 = lenSum chain.mbufs := by
  have length := length_addresses chain.mbufs
  induction fuel generalizing offset d with
  | zero =>
    rw [walkMbufSegments,List.drop_eq_nil_of_le (by omega)]
    exact ⟨rfl,by omega⟩
  | succ fuel ih =>
    rcases Nat.lt_or_eq_of_le start with below | rfl
    · obtain ⟨phys,len,d',segment,cursor',bytes,answer⟩ := cursor.segment map below
      obtain ⟨passed,m,rest,contains,greatest⟩ := segment.longest
      have positive := greatest.1.positive
      have inside := greatest.1.inside
      have split := congrArg lenSum contains.split
      have before := contains.before
      rw [lenSum_append,lenSum_cons] at split
      obtain ⟨len,rfl⟩ : ∃ less, len = less + 1 := ⟨len - 1,by omega⟩
      obtain ⟨later,stops⟩ := ih cursor'
        (show offset + (len + 1) ≤ lenSum chain.mbufs by omega) (by omega)
      rw [walkMbufSegments,answer true,if_pos rfl]
      refine ⟨?_,stops⟩
      have front : segmentBytes (phys, len + 1) =
          (((addresses chain.mbufs).drop offset).take (len + 1)).map map.dataToPhysical := by
        apply List.ext_getElem?
        intro j
        rw [segmentBytes,List.getElem?_map,List.getElem?_map,List.getElem?_take]
        split
        · rename_i within
          rw [List.getElem?_drop,bytes j within,List.getElem?_range within]
          rfl
        · rename_i outside
          rw [List.getElem?_eq_none (by simpa using outside)]
          rfl
      dsimp only
      rw [List.flatMap_cons,later,front,← List.map_append,← List.drop_drop,
        List.take_append_drop]
    · rw [walkMbufSegments,cursor.outside map le_rfl,List.drop_eq_nil_of_le (by omega)]
      exact ⟨rfl,rfl⟩

/-- Whatever calls a descriptor has had since it was initialised, its answers are those of the
chain: for every offset inside it the address of that byte and the longest run from there, and
nothing beyond its end. Going through it by the returned lengths visits every byte once, in
order. -/
theorem segments_transparent (map : PhysicalMap) (chain : MbufChain)
    (d d' : PJMbufMemoryDescriptor) (superInit : Bool)
    (initialised : d.initWithMbuf superInit chain.mbufs = (true, d'))
    (earlier : List (Nat × Bool)) :
    (∀ offset length other, ((d'.after map earlier).getPhysicalSegment map offset length).1 =
      ((d'.after map other).getPhysicalSegment map offset length).1) ∧
    (∀ offset < mbufChainLen chain.mbufs, ∃ phys len, IsSegment map chain offset phys len ∧
      ∀ length, ((d'.after map earlier).getPhysicalSegment map offset length).1 =
        (phys, if length then some len else none)) ∧
    (∀ offset ≥ mbufChainLen chain.mbufs, ∀ length,
      ((d'.after map earlier).getPhysicalSegment map offset length).1 =
        (0, if length then some 0 else none)) ∧
    (walkMbufSegments map (mbufChainLen chain.mbufs) 0 (d'.after map earlier)).1.flatMap
      segmentBytes =
      (addresses chain.mbufs).map map.dataToPhysical ∧
    (walkMbufSegments map (mbufChainLen chain.mbufs) 0 (d'.after map earlier)).2 =
      mbufChainLen chain.mbufs := by
  rw [mbufChainLen_eq]
  have cursor (calls : List (Nat × Bool)) := (cursor_init initialised).after map calls
  refine ⟨fun offset length other => ?_,fun offset below => ?_,fun offset beyond length => ?_,?_⟩
  · rcases Nat.lt_or_ge offset (lenSum chain.mbufs) with below | beyond
    · obtain ⟨phys,len,_,segment,_,_,answer⟩ := (cursor earlier).segment map below
      obtain ⟨phys',len',_,segment',_,_,answer'⟩ := (cursor other).segment map below
      obtain ⟨rfl,rfl⟩ := segment.unique segment'
      rw [answer,answer']
    · rw [(cursor earlier).outside map beyond,(cursor other).outside map beyond]
  · obtain ⟨phys,len,_,segment,_,_,answer⟩ := (cursor earlier).segment map below
    exact ⟨phys,len,segment,fun length => by rw [answer]⟩
  · rw [(cursor earlier).outside map beyond]
  · have walk := (cursor earlier).walk map (lenSum chain.mbufs) (Nat.zero_le _) le_rfl
    rwa [List.drop_zero] at walk

def pageElsewhere : PhysicalMap where
  dataToPhysical address := UInt64.ofNat (address + if address / pageSize = 1 then 65536 else 0)
  linear address k same := by
    rw [← same,Nat.add_right_comm,UInt64.ofNat_add]

def threeMbufs : MbufChain :=
  ⟨[⟨4000, 200, by decide⟩, ⟨0, 0, by decide⟩, ⟨8192, 100, by decide⟩], by decide⟩

def noDescriptor : PJMbufMemoryDescriptor := ⟨false, [], 0, [], 0, 0⟩

theorem segments_transparent_threeMbufs :
    ((((noDescriptor.initWithMbuf true threeMbufs.mbufs).2.after pageElsewhere
      [(250, true), (10, false)]).getPhysicalSegment pageElsewhere 0 true).1 = (4000, some 96)) ∧
    (walkMbufSegments pageElsewhere 300 0 ((noDescriptor.initWithMbuf true threeMbufs.mbufs).2.after
      pageElsewhere [(250, true), (10, false)])).2 = 300 := by
  obtain ⟨same,_,_,_,stops⟩ := segments_transparent pageElsewhere threeMbufs noDescriptor _ true rfl
    [(250, true), (10, false)]
  refine ⟨(same 0 true []).trans ?_,stops⟩
  decide +kernel

end VirtioOsx
