import VirtioOsx.Lib.OnesComplement

/-! The TCP checksum of a packet to be sent: `virtio_net_enable_tcp_csum` puts the sum of the
pseudo-header in the checksum field, and the device completes it. A frame is a list of
bytes that begins with the Ethernet header, and the host is little-endian. -/
namespace VirtioOsx

open OnesComplement

def etherHdrLen : Nat := 14

def byteAt (frame : List UInt8) (i : Nat) : Nat := (frame.getD i 0).toNat

def load16 (frame : List UInt8) (i : Nat) : Nat := byteAt frame i + 256 * byteAt frame (i + 1)

def load32 (frame : List UInt8) (i : Nat) : Nat := load16 frame i + 65536 * load16 frame (i + 2)

def store16 (frame : List UInt8) (i value : Nat) : List UInt8 :=
  (frame.set i (UInt8.ofNat (value % 256))).set (i + 1) (UInt8.ofNat (value / 256))

def ntohs (value : Nat) : Nat := swap 256 value

def htons (value : Nat) : Nat := swap 256 value

/-- `ip_hl` is the low half of the first byte, in units of four bytes. -/
def ipHdrLen (frame : List UInt8) : Nat := byteAt frame etherHdrLen % 16 * 4

def ipLen (frame : List UInt8) : Nat := ntohs (load16 frame (etherHdrLen + 2))

def ipP (frame : List UInt8) : Nat := byteAt frame (etherHdrLen + 9)

structure ChecksumRequest where
  flags : Nat
  csumStart : Nat
  csumOffset : Nat
  deriving DecidableEq, Repr

def needsCsum : Nat := 1

/-- `csum_l` before it is folded. The halves of an address are those of its 32-bit value. -/
def pseudoHeaderSum (frame : List UInt8) (ipHdrLen : Nat) : Nat :=
  let tcpLen := (ipLen frame + 2 ^ 32 - ipHdrLen) % 2 ^ 32
  let src := load32 frame (etherHdrLen + 12)
  let dst := load32 frame (etherHdrLen + 16)
  (src % 65536 + src / 65536 + dst % 65536 + dst / 65536 + htons (ipP frame) +
    htons (tcpLen % 65536)) % 2 ^ 32

/-- The two folds, the second of which is kept in a `uint16_t`. -/
def partialChecksum (frame : List UInt8) (ipHdrLen : Nat) : Nat :=
  fold 65536 (fold 65536 (pseudoHeaderSum frame ipHdrLen)) % 65536

def virtioNetEnableTcpCsum (needPartial : Bool) (ipHdrLen : Nat) (frame : List UInt8) :
    ChecksumRequest × List UInt8 :=
  let tcpHdr := etherHdrLen + ipHdrLen
  let thSum := if needPartial then partialChecksum frame ipHdrLen else 0
  (⟨needsCsum, (etherHdrLen + ipHdrLen) % 65536, 16⟩, store16 frame (tcpHdr + 16) thSum)

/-- Bytes as 16-bit words in network order; an odd last byte is followed by a zero. -/
def words : List UInt8 → List Nat
  | [] => []
  | [a] => [a.toNat * 256]
  | a :: b :: rest => (a.toNat * 256 + b.toNat) :: words rest

def networkSum (bytes : List UInt8) : Nat := sum 65536 (words bytes)

def storeNetwork (frame : List UInt8) (i value : Nat) : List UInt8 :=
  (frame.set i (UInt8.ofNat (value / 256))).set (i + 1) (UInt8.ofNat (value % 256))

/-- What the device does for a packet that requests its checksum. -/
def completeChecksum (request : ChecksumRequest) (frame : List UInt8) : List UInt8 :=
  storeNetwork frame (request.csumStart + request.csumOffset)
    (complement 65536 (networkSum (frame.drop request.csumStart)))

def tcpLength (frame : List UInt8) : Nat := ipLen frame - ipHdrLen frame

def pseudoHeader (frame : List UInt8) : List UInt8 :=
  (frame.drop (etherHdrLen + 12)).take 4 ++ (frame.drop (etherHdrLen + 16)).take 4 ++
    [0, frame.getD (etherHdrLen + 9) 0] ++
    [UInt8.ofNat (tcpLength frame / 256), UInt8.ofNat (tcpLength frame % 256)]

structure TcpDatagram (frame : List UInt8) : Prop where
  whole : frame.length = etherHdrLen + ipLen frame
  segment : ipHdrLen frame + 20 ≤ ipLen frame

theorem byteAt_lt (frame : List UInt8) (i : Nat) : byteAt frame i < 256 := UInt8.toNat_lt _

theorem load16_lt (frame : List UInt8) (i : Nat) : load16 frame i < 65536 := by
  have low := byteAt_lt frame i
  have high := byteAt_lt frame (i + 1)
  unfold load16
  omega

/-- A word in network order is loaded the other way round. -/
theorem load16_eq_swap (frame : List UInt8) (i : Nat) :
    load16 frame i = swap 256 (byteAt frame i * 256 + byteAt frame (i + 1)) := by
  have low := byteAt_lt frame i
  have high := byteAt_lt frame (i + 1)
  unfold load16 swap
  omega

theorem swap_swap (small : x < 65536) : swap 256 (swap 256 x) = x := by
  unfold swap
  omega

theorem toNat_ofNat_byte (small : x < 256) : (UInt8.ofNat x).toNat = x :=
  UInt8.toNat_ofNat_of_lt small

theorem patched_word (value : Nat) (small : value < 65536) :
    (UInt8.ofNat (value / 256)).toNat * 256 + (UInt8.ofNat (value % 256)).toNat = value := by
  rw [toNat_ofNat_byte (by omega),toNat_ofNat_byte (by omega)]
  omega

theorem take_four {frame : List UInt8} (enough : n + 4 ≤ frame.length) :
    (frame.drop n).take 4 = [frame.getD n 0, frame.getD (n + 1) 0, frame.getD (n + 2) 0,
      frame.getD (n + 3) 0] := by
  rw [List.drop_eq_getElem_cons (by omega),List.drop_eq_getElem_cons (by omega),
    List.drop_eq_getElem_cons (by omega),List.drop_eq_getElem_cons (by omega)]
  simp only [List.take_succ_cons,List.take_zero,List.cons.injEq,and_true,
    List.getD_eq_getElem?_getD]
  refine ⟨?_,?_,?_,?_⟩
  all_goals
    rw [List.getElem?_eq_getElem (by omega)]
    rfl

def networkWord (frame : List UInt8) (i : Nat) : Nat := byteAt frame i * 256 + byteAt frame (i + 1)

theorem tcpLength_lt (frame : List UInt8) : tcpLength frame < 65536 := by
  have small := swap_lt (c := 256) (load16_lt frame (etherHdrLen + 2))
  unfold tcpLength ipLen ntohs
  omega

theorem words_pseudoHeader (datagram : TcpDatagram frame) :
    words (pseudoHeader frame) = [networkWord frame (etherHdrLen + 12),
      networkWord frame (etherHdrLen + 12 + 2), networkWord frame (etherHdrLen + 16),
      networkWord frame (etherHdrLen + 16 + 2), ipP frame, tcpLength frame] := by
  have small := tcpLength_lt frame
  have whole := datagram.whole
  have segment := datagram.segment
  rw [etherHdrLen] at whole
  rw [pseudoHeader,etherHdrLen,take_four (by omega),take_four (by omega)]
  simp only [List.cons_append,List.nil_append,words,patched_word _ small,networkWord,byteAt,ipP,
    etherHdrLen,UInt8.toNat_zero,Nat.zero_mul,Nat.zero_add]

/-- What is added up are the six words of the pseudo-header, each the other way round. -/
theorem pseudoHeaderSum_eq (datagram : TcpDatagram frame) :
    pseudoHeaderSum frame (ipHdrLen frame) = ((words (pseudoHeader frame)).map (swap 256)).sum ∧
      pseudoHeaderSum frame (ipHdrLen frame) < 6 * 65536 := by
  have segment := datagram.segment
  have small := tcpLength_lt frame
  have bound := swap_lt (c := 256) (load16_lt frame (etherHdrLen + 2))
  have length : (ipLen frame + 2 ^ 32 - ipHdrLen frame) % 2 ^ 32 % 65536 = tcpLength frame := by
    unfold tcpLength at *
    rw [ipLen,ntohs] at *
    omega
  have halves (i : Nat) : load32 frame i % 65536 = swap 256 (networkWord frame i) ∧
      load32 frame i / 65536 = swap 256 (networkWord frame (i + 2)) := by
    have low := load16_lt frame i
    rw [networkWord,networkWord,← load16_eq_swap,← load16_eq_swap,load32]
    omega
  have word (i : Nat) : swap 256 (networkWord frame i) < 65536 := by
    rw [networkWord,← load16_eq_swap]
    exact load16_lt frame i
  have protocol : swap 256 (ipP frame) < 65536 :=
    swap_lt (c := 256) (Nat.lt_trans (byteAt_lt frame _) (by decide))
  have last : swap 256 (tcpLength frame) < 65536 := swap_lt (c := 256) small
  have first := word (etherHdrLen + 12)
  have second := word (etherHdrLen + 12 + 2)
  have third := word (etherHdrLen + 16)
  have fourth := word (etherHdrLen + 16 + 2)
  rw [words_pseudoHeader datagram,pseudoHeaderSum,length,(halves _).1,(halves _).2,(halves _).1,
    (halves _).2,htons,htons,Nat.mod_eq_of_lt (by omega)]
  simp only [List.map_cons,List.map_nil,List.sum_cons,List.sum_nil]
  omega

theorem words_lt (bytes : List UInt8) : ∀ w ∈ words bytes, w < 65536 := by
  induction bytes using words.induct with
  | case1 => simp [words]
  | case2 a =>
    have := UInt8.toNat_lt a
    simp [words]
    omega
  | case3 a b rest ih =>
    have := UInt8.toNat_lt a
    have := UInt8.toNat_lt b
    intro w member
    rcases List.mem_cons.mp member with rfl | later
    · omega
    · exact ih w later

theorem represents_network (bytes : List UInt8) :
    Represents 65536 (words bytes).sum (networkSum bytes) :=
  represents_sum (by decide) _ (words_lt bytes)

/-- Six words leave at most five to carry, and then one. -/
theorem fold_fold_lt (few : s < 6 * 65536) : fold 65536 (fold 65536 s) < 65536 := by
  unfold fold
  omega

theorem sum_swap (ws : List Nat) :
    (ws.map (swap 256)).sum ≡ 256 * ws.sum [MOD 65536 - 1] ∧
      ((ws.map (swap 256)).sum = 0 ↔ 256 * ws.sum = 0) := by
  induction ws with
  | nil => exact ⟨.refl 0,.rfl⟩
  | cons w ws ih =>
    have zero := swap_eq_zero (c := 256) (x := w) (by decide)
    rw [List.map_cons,List.sum_cons,List.sum_cons,Nat.mul_add]
    exact ⟨(swap_modEq (by decide) w).add ih.1,by omega⟩

/-- The two folds lose no carry, and give the sum of the pseudo-header the other way round. -/
theorem partialChecksum_eq (datagram : TcpDatagram frame) :
    fold 65536 (fold 65536 (pseudoHeaderSum frame (ipHdrLen frame))) < 65536 ∧
      partialChecksum frame (ipHdrLen frame) = swap 256 (networkSum (pseudoHeader frame)) := by
  obtain ⟨same,few⟩ := pseudoHeaderSum_eq datagram
  have small := fold_fold_lt few
  refine ⟨small,?_⟩
  rw [partialChecksum,Nat.mod_eq_of_lt small]
  obtain ⟨congruent,zero⟩ := sum_swap (words (pseudoHeader frame))
  rw [← same] at congruent zero
  have direct := (represents_fold_fold small).congr congruent.symm zero.symm
  have swapped := (represents_network (pseudoHeader frame)).swap (c := 256) (by decide)
  exact direct.unique swapped

theorem words_append (front rest : List UInt8) (even : front.length % 2 = 0) :
    words (front ++ rest) = words front ++ words rest := by
  induction front using words.induct with
  | case1 => rfl
  | case2 a => simp at even
  | case3 a b front ih =>
    simp only [List.cons_append,words]
    rw [ih (by simp only [List.length_cons] at even; omega)]

def patched (bytes : List UInt8) (a b : UInt8) : List UInt8 :=
  bytes.take 16 ++ a :: b :: bytes.drop 18

theorem set_set_patched {bytes : List UInt8} (long : 18 ≤ bytes.length) (a b : UInt8) :
    (bytes.set 16 a).set 17 b = patched bytes a b := by
  have sixteen : (bytes.take 16).length = 16 := by
    rw [List.length_take]
    omega
  rw [List.set_eq_take_append_cons_drop,if_pos (by rw [List.length_set]; omega),List.take_set,
    List.drop_set_of_lt (by omega),patched,List.take_add_one,
    List.getElem?_eq_getElem (show 16 < bytes.length by omega),Option.toList_some,
    List.set_append_right _ _ (by omega),sixteen]
  simp

theorem patched_patched {bytes : List UInt8} (long : 18 ≤ bytes.length) (a b c d : UInt8) :
    patched (patched bytes a b) c d = patched bytes c d := by
  have sixteen : (bytes.take 16).length = 16 := by
    rw [List.length_take]
    omega
  simp only [patched]
  rw [List.take_append_of_le_length (by omega),List.take_take,List.drop_append,sixteen,
    List.drop_eq_nil_of_le (by omega)]
  rfl

def sumAround (bytes : List UInt8) : Nat :=
  (words (bytes.take 16)).sum + (words (bytes.drop 18)).sum

theorem sum_patched {bytes : List UInt8} (long : 18 ≤ bytes.length) (a b : UInt8) :
    (words (patched bytes a b)).sum = sumAround bytes + (a.toNat * 256 + b.toNat) := by
  rw [patched,words_append _ _ (by rw [List.length_take]; omega),words,List.sum_append,
    List.sum_cons,sumAround]
  omega

/-- Stores to the checksum field of the segment that begins at `start`. -/
theorem drop_stored {frame : List UInt8} (long : start + 18 ≤ frame.length) (a b : UInt8) :
    ((frame.set (start + 16) a).set (start + 16 + 1) b).drop start =
      patched (frame.drop start) a b := by
  rw [List.drop_set,if_neg (by omega),List.drop_set,if_neg (by omega),
    show start + 16 + 1 - start = 17 by omega,show start + 16 - start = 16 by omega]
  exact set_set_patched (by rw [List.length_drop]; omega) a b

/-- Completing the checksum of a segment that holds the sum of its pseudo-header. -/
theorem networkSum_completed (pseudo segment : List UInt8) (even : pseudo.length % 2 = 0)
    (some : 0 < (words pseudo).sum) (long : 18 ≤ segment.length) (a b c d : UInt8)
    (held : a.toNat * 256 + b.toNat = networkSum pseudo)
    (completed : c.toNat * 256 + d.toNat =
      complement 65536 (networkSum (patched segment a b))) :
    networkSum (pseudo ++ patched segment c d) = 0xffff := by
  have value := represents_network (patched segment a b)
  have parts := represents_network pseudo
  rw [sum_patched long,held] at value
  refine (represents_network _).unique (value.complete (by decide) ?_ ?_)
  · rw [words_append _ _ even,List.sum_append]
    omega
  · rw [words_append _ _ even,List.sum_append,sum_patched long,completed]
    have same := parts.congruent.symm
    rw [← Nat.add_assoc]
    refine Nat.ModEq.add_right _ ?_
    rw [Nat.add_comm (sumAround segment)]
    exact same.add_right _

/-- Bytes before the stores, in any case those of an IP header of regular length. -/
theorem pseudoHeader_congr (same : frame'.take 34 = frame.take 34) :
    pseudoHeader frame' = pseudoHeader frame := by
  have byte (i : Nat) (below : i < 34) : frame'.getD i 0 = frame.getD i (0 : UInt8) := by
    have taken := congrArg (fun bytes : List UInt8 => bytes[i]?) same
    simp only [List.getElem?_take_of_lt below] at taken
    rw [List.getD_eq_getElem?_getD,List.getD_eq_getElem?_getD,taken]
  have part (i : Nat) (below : i + 4 ≤ 34) :
      (frame'.drop i).take 4 = (frame.drop i).take 4 := by
    have taken := congrArg (fun bytes => (bytes.drop i).take 4) same
    simp only [List.drop_take,List.take_take] at taken
    rwa [Nat.min_eq_left (by omega)] at taken
  have length : tcpLength frame' = tcpLength frame := by
    simp only [tcpLength,ipLen,ipHdrLen,load16,byteAt,etherHdrLen]
    rw [byte _ (by decide),byte _ (by decide),byte _ (by decide)]
  rw [pseudoHeader,pseudoHeader,length,etherHdrLen,part _ (by decide),part _ (by decide),
    byte _ (by decide)]

theorem take_stored {frame : List UInt8} (behind : 34 ≤ i) (a b : UInt8) :
    ((frame.set i a).set (i + 1) b).take 34 = frame.take 34 := by
  have short (bytes : List UInt8) : (bytes.take 34).length ≤ 34 := List.length_take_le 34 bytes
  have once := short frame
  rw [List.take_set,List.take_set,List.set_eq_of_length_le (a := a) (by omega),
    List.set_eq_of_length_le (by omega)]

theorem networkWord_stored {frame : List UInt8} (inside : i + 1 < frame.length) (a b : UInt8) :
    networkWord ((frame.set i a).set (i + 1) b) i = a.toNat * 256 + b.toNat := by
  have here : i < frame.length := by omega
  simp [networkWord,byteAt,List.getD_eq_getElem?_getD,inside,here]

theorem TcpDatagram.pseudoHeader_even (datagram : TcpDatagram frame) :
    (pseudoHeader frame).length % 2 = 0 := by
  have whole := datagram.whole
  have segment := datagram.segment
  simp only [pseudoHeader,List.length_append,List.length_take,List.length_drop,List.length_cons,
    List.length_nil,etherHdrLen] at whole ⊢
  omega

theorem TcpDatagram.pseudoHeader_pos (datagram : TcpDatagram frame) :
    0 < (words (pseudoHeader frame)).sum := by
  have segment := datagram.segment
  rw [words_pseudoHeader datagram]
  simp only [List.sum_cons,tcpLength]
  omega

/-- A segment whose field was given the sum of its pseudo-header, the other way round. -/
theorem networkSum_completeChecksum {pseudo frame : List UInt8} (even : pseudo.length % 2 = 0)
    (some : 0 < (words pseudo).sum) (long : begin + 18 ≤ frame.length)
    (held : (UInt8.ofNat (value % 256)).toNat * 256 + (UInt8.ofNat (value / 256)).toNat =
      networkSum pseudo) :
    networkSum (pseudo ++
      (completeChecksum ⟨flags, begin, 16⟩ (store16 frame (begin + 16) value)).drop begin) =
        0xffff := by
  have sentLong : begin + 18 ≤ (store16 frame (begin + 16) value).length := by
    rw [store16,List.length_set,List.length_set]
    exact long
  have inSegment : 18 ≤ (frame.drop begin).length := by
    rw [List.length_drop]
    omega
  have word : complement 65536 (networkSum ((store16 frame (begin + 16) value).drop begin)) <
      65536 := by
    unfold complement
    omega
  rw [completeChecksum,storeNetwork,drop_stored sentLong]
  rw [store16,drop_stored long] at word ⊢
  rw [patched_patched inSegment]
  exact networkSum_completed _ _ even some inSegment _ _ _ _ held (patched_word _ word)

/-- The field lies behind an IP header of regular length. -/
theorem pseudoHeader_completeChecksum (behind : 34 ≤ begin + 16) :
    pseudoHeader (completeChecksum ⟨flags, begin, 16⟩ (store16 frame (begin + 16) value)) =
      pseudoHeader frame := by
  refine pseudoHeader_congr ?_
  rw [completeChecksum,storeNetwork,take_stored behind,store16,take_stored behind]

/-- For every datagram with a TCP segment, the checksum field is given the folded sum of the
pseudo-header, and the device's completion makes the segment and its pseudo-header sum to
0xffff. -/
theorem tcp_checksum_completed (frame sent : List UInt8) (request : ChecksumRequest)
    (datagram : TcpDatagram frame)
    (enabled : virtioNetEnableTcpCsum true (ipHdrLen frame) frame = (request, sent)) :
    fold 65536 (fold 65536 (pseudoHeaderSum frame (ipHdrLen frame))) < 65536 ∧
    networkWord sent (etherHdrLen + ipHdrLen frame + 16) = networkSum (pseudoHeader frame) ∧
    request = ⟨needsCsum, etherHdrLen + ipHdrLen frame, 16⟩ ∧
    networkSum (pseudoHeader frame ++
      (completeChecksum request sent).drop (etherHdrLen + ipHdrLen frame)) = 0xffff ∧
    (20 ≤ ipHdrLen frame →
      pseudoHeader (completeChecksum request sent) = pseudoHeader frame) := by
  obtain ⟨small,held⟩ := partialChecksum_eq datagram
  have whole := datagram.whole
  have segment := datagram.segment
  have header : ipHdrLen frame < 64 := by
    unfold ipHdrLen
    omega
  have value := (represents_network (pseudoHeader frame)).word
  have word := swap_lt (c := 256) value
  obtain ⟨rfl,rfl⟩ := Prod.mk.inj enabled
  have start : (etherHdrLen + ipHdrLen frame) % 65536 = etherHdrLen + ipHdrLen frame :=
    Nat.mod_eq_of_lt (by rw [etherHdrLen]; omega)
  rw [if_pos rfl,held,start]
  generalize place : etherHdrLen + ipHdrLen frame = begin at *
  -- the field holds the sum in network order
  have stored : (UInt8.ofNat (swap 256 (networkSum (pseudoHeader frame)) % 256)).toNat * 256 +
      (UInt8.ofNat (swap 256 (networkSum (pseudoHeader frame)) / 256)).toNat =
        networkSum (pseudoHeader frame) := by
    rw [toNat_ofNat_byte (by omega),toNat_ofNat_byte (by omega)]
    exact swap_swap value
  have long : begin + 18 ≤ frame.length := by omega
  refine ⟨small,?_,rfl,?_,fun regular => ?_⟩
  · rw [store16,networkWord_stored (by omega),stored]
  · exact networkSum_completeChecksum datagram.pseudoHeader_even datagram.pseudoHeader_pos long
      stored
  · refine pseudoHeader_completeChecksum ?_
    rw [← place,etherHdrLen]
    omega

def oddDatagram : List UInt8 :=
  List.replicate 14 0 ++
    [0x45, 0, 0, 41, 0, 0, 0, 0, 64, 6, 0, 0, 192, 168, 0, 1, 192, 168, 0, 2] ++
    (List.range 21).map UInt8.ofNat

theorem tcp_checksum_completed_odd : TcpDatagram oddDatagram ∧
    networkWord (virtioNetEnableTcpCsum true 20 oddDatagram).2 50 = 0x816f ∧
    networkSum (pseudoHeader oddDatagram ++ (completeChecksum
      (virtioNetEnableTcpCsum true 20 oddDatagram).1
      (virtioNetEnableTcpCsum true 20 oddDatagram).2).drop 34) = 0xffff := by
  have datagram : TcpDatagram oddDatagram := ⟨by decide,by decide⟩
  have completed := tcp_checksum_completed oddDatagram _ _ datagram rfl
  have start : ipHdrLen oddDatagram = 20 := by decide
  have value : networkSum (pseudoHeader oddDatagram) = 0x816f := by decide
  rw [start,value] at completed
  exact ⟨datagram,completed.2.1,completed.2.2.2.1⟩

end VirtioOsx
