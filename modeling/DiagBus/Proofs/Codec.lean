import DiagBus.Proofs.Bytes
import DiagBus.Proofs.Plans

namespace DiagBus

theorem toList_paddedTo {size : Nat} {bytes : List UInt8} (fits : bytes.length ≤ size)
    (fill : UInt8) :
    (paddedTo size fill bytes).toList = bytes ++ List.replicate (size - bytes.length) fill := by
  have length : (paddedTo size fill bytes).toList.length =
      (bytes ++ List.replicate (size - bytes.length) fill).length := by
    rw [Vector.length_toList, List.length_append, List.length_replicate]
    omega
  refine List.ext_getElem length fun i inside _ => ?_
  rw [Vector.getElem_toList]
  unfold paddedTo
  rw [Vector.getElem_ofFn]
  by_cases early : i < bytes.length
  · rw [List.getElem_append_left early, List.getD_eq_getElem _ _ early]
  · have late : bytes.length ≤ i := by omega
    rw [List.getElem_append_right late, List.getElem_replicate, List.getD_eq_default _ _ late]

theorem le_flexibleLength {length : Nat} (bound : length ≤ 64) : length ≤ flexibleLength length := by
  have all : ∀ n, n < 65 → n ≤ flexibleLength n := by decide
  exact all length (by omega)

theorem Encoder.id_frame (encoder : Encoder) (bytes : List UInt8) :
    (encoder.frame bytes).id = encoder.id := by
  unfold Encoder.frame
  split <;> rfl

/-- Every frame begins with the bytes it was made of and has at least eight. -/
theorem Encoder.payload_frame {encoder : Encoder} {bytes : List UInt8}
    (fits : bytes.length ≤ encoder.frameSize) :
    ∃ fill, (encoder.frame bytes).payload = bytes ++ fill ∧ 8 ≤ bytes.length + fill.length ∧
      bytes.length + fill.length ≤ encoder.frameSize := by
  unfold Encoder.frameSize at fits ⊢
  by_cases flexible : encoder.flexible = true
  · rw [if_pos flexible] at fits ⊢
    have covers : max bytes.length 8 ≤ flexibleLength (max bytes.length 8) :=
      le_flexibleLength (by omega)
    have covered : bytes.length ≤ flexibleLength (max bytes.length 8) :=
      (Nat.le_max_left _ _).trans covers
    have bound := flexibleLength_le (max bytes.length 8)
    refine ⟨(List.replicate (64 - bytes.length) encoder.padding).take
      (flexibleLength (max bytes.length 8) - bytes.length), ?_, ?_, ?_⟩
    · unfold Encoder.frame
      rw [if_pos flexible]
      show List.take (flexibleLength (max bytes.length 8))
        (paddedTo 64 encoder.padding bytes).toList = _
      rw [toList_paddedTo fits, List.take_append, List.take_of_length_le covered]
    · rw [List.length_take, List.length_replicate]
      omega
    · rw [List.length_take, List.length_replicate]
      omega
  · rw [if_neg flexible] at fits ⊢
    refine ⟨List.replicate (8 - bytes.length) encoder.padding, ?_, ?_, ?_⟩
    · unfold Encoder.frame
      rw [if_neg flexible]
      show List.take 8 (paddedTo 8 encoder.padding bytes).toList = _
      rw [toList_paddedTo fits, List.take_of_length_le]
      rw [List.length_append, List.length_replicate]
      omega
    · rw [List.length_replicate]
      omega
    · rw [List.length_replicate]
      omega

theorem takeExactly?_append (bytes rest : List UInt8) :
    takeExactly? bytes.length (bytes ++ rest) = some bytes := by
  unfold takeExactly?
  rw [if_pos (by rw [List.length_append]; omega), List.take_left]

/-- A message in one frame is read whole, and the padding is left out. -/
theorem decode_single {message fill : List UInt8} (some : message ≠ [])
    (short : message.length ≤ 62) :
    Pdu.decode (singleHeader message.length ++ message ++ fill) = .some (.single message) := by
  have positive := List.length_pos_iff.mpr some
  unfold singleHeader
  by_cases small : message.length ≤ 7
  · have nibbles : highNibble message.length.toUInt8 = 0 ∧
        lowNibble message.length.toUInt8 = message.length := by
      have all : ∀ n, n < 8 → highNibble n.toUInt8 = 0 ∧ lowNibble n.toUInt8 = n := by decide
      exact all _ (by omega)
    rw [if_pos small, List.append_assoc, List.singleton_append]
    simp only [Pdu.decode, nibbles.1, nibbles.2, Pdu.decodeSingle, if_pos positive,
      takeExactly?_append, Option.map_some]
  · have length : message.length.toUInt8.toNat = message.length := by
      have all : ∀ n, n < 63 → n.toUInt8.toNat = n := by decide
      exact all _ (by omega)
    have zero : highNibble 0 = 0 ∧ lowNibble 0 = 0 := by decide
    rw [if_neg small, List.append_assoc]
    have room : 7 ≤ (message ++ fill).length := by
      rw [List.length_append]
      omega
    show Pdu.decode (0 :: message.length.toUInt8 :: (message ++ fill)) = _
    simp only [Pdu.decode, zero.1, zero.2, Pdu.decodeSingle, Nat.lt_irrefl, if_false, length, room,
      positive, and_self, if_true, takeExactly?_append, Option.map_some]

/-- A first frame announces the length of the message, in either of its two forms. -/
theorem decode_first {length : Nat} (positive : 0 < length) (bound : length ≤ 0xFFFFFFFF)
    (data : List UInt8) :
    Pdu.decode (firstHeader length ++ data) = some (.first length data) := by
  unfold firstHeader
  by_cases small : length ≤ shortLengthLimit
  · have twelve : length / 256 < 16 := by
      unfold shortLengthLimit at small
      omega
    have nibbles : highNibble (0x10 ||| (length / 256).toUInt8) = 1 ∧
        lowNibble (0x10 ||| (length / 256).toUInt8) = length / 256 := by
      have all : ∀ n, n < 16 → highNibble (0x10 ||| n.toUInt8) = 1 ∧
        lowNibble (0x10 ||| n.toUInt8) = n := by decide
      exact all _ twelve
    have low : length.toUInt8.toNat = length % 256 := by simp
    have whole : length / 256 * 256 + length % 256 = length := by omega
    rw [if_pos small]
    show Pdu.decode ((0x10 ||| (length / 256).toUInt8) :: length.toUInt8 :: data) = _
    simp only [Pdu.decode, nibbles.1, nibbles.2, Pdu.decodeFirst, low, whole, if_pos positive]
  · have nibbles : highNibble 0x10 = 1 ∧ lowNibble 0x10 = 0 := by decide
    have four : (bigEndian 4 length).length = 4 := length_bigEndian 4 length
    have taken : takeExactly? 4 (bigEndian 4 length ++ data) = some (bigEndian 4 length) := by
      have whole := takeExactly?_append (bigEndian 4 length) data
      rw [four] at whole
      exact whole
    have number : ofBigEndian (bigEndian 4 length) = length := by
      rw [ofBigEndian_bigEndian]
      exact Nat.mod_eq_of_lt (by omega)
    have rest : (bigEndian 4 length ++ data).drop 4 = data := List.drop_left' four
    rw [if_neg small]
    show Pdu.decode (0x10 :: 0 :: (bigEndian 4 length ++ data)) = _
    simp only [Pdu.decode, nibbles.1, nibbles.2, Pdu.decodeFirst]
    simp [taken, number, rest]

/-- A consecutive frame is read with its number and all its bytes, padding included. -/
theorem decode_consecutive (number : Nat) (data : List UInt8) :
    Pdu.decode ((0x20 + number % 16).toUInt8 :: data) =
      some (.consecutive (sequenceAfter number) data) := by
  have nibbles : highNibble (0x20 + number % 16).toUInt8 = 2 ∧
      lowNibble (0x20 + number % 16).toUInt8 = number % 16 := by
    have all : ∀ n, n < 16 → highNibble (0x20 + n).toUInt8 = 2 ∧
      lowNibble (0x20 + n).toUInt8 = n := by decide
    exact all _ (Nat.mod_lt _ (by decide))
  simp only [Pdu.decode, nibbles.1, nibbles.2]
  rfl

/-- Flow control is read with the lower four bits of its status. -/
theorem decode_flowControl (status : FlowStatus) (blockSize separation : UInt8)
    (fill : List UInt8) :
    Pdu.decode ((0x30 ||| (status.toByte &&& 0x0F)) :: blockSize :: separation :: fill) =
      some (.flowControl (.ofByte (status.toByte &&& 0x0F)) blockSize separation) := by
  have nibbles : highNibble (0x30 ||| (status.toByte &&& 0x0F)) = 3 ∧
      (lowNibble (0x30 ||| (status.toByte &&& 0x0F))).toUInt8 = status.toByte &&& 0x0F := by
    have all : ∀ byte : UInt8, highNibble (0x30 ||| (byte &&& 0x0F)) = 3 ∧
      (lowNibble (0x30 ||| (byte &&& 0x0F))).toUInt8 = byte &&& 0x0F :=
      forall_byte (by decide +kernel)
    exact all _
  simp only [Pdu.decode, nibbles.1, nibbles.2]

/-- A payload that is read as a unit starts like flow control just if it is flow control. -/
theorem isFlowControl_of_decode {payload : List UInt8} {pdu : Pdu}
    (read : Pdu.decode payload = some pdu) :
    isFlowControl payload = decide (pdu.direction = .output) := by
  unfold Pdu.decode at read
  unfold isFlowControl
  cases payload with
  | nil => cases read
  | cons control rest =>
    simp only [List.head?_cons, Option.any_some]
    simp only [] at read
    split at read
    · rename_i zero
      rw [zero]
      unfold Pdu.decodeSingle at read
      split at read
      · obtain ⟨message, _, rfl⟩ := Option.map_eq_some_iff.mp read
        rfl
      · split at read
        · split at read
          · obtain ⟨message, _, rfl⟩ := Option.map_eq_some_iff.mp read
            rfl
          · cases read
        · cases read
    · rename_i one
      rw [one]
      unfold Pdu.decodeFirst at read
      split at read
      · simp only [] at read
        split at read
        · cases read
          rfl
        · obtain ⟨bytes, _, rfl⟩ := Option.map_eq_some_iff.mp read
          rfl
      · cases read
    · rename_i two
      cases read
      rw [two]
      rfl
    · rename_i three
      rw [three]
      split at read
      · cases read
        rfl
      · cases read
    · cases read

section

variable {encoder : Encoder} {message : List UInt8}

theorem Encoder.length_whole (short : message.length ≤ encoder.singleCapacity) :
    message.length ≤ 62 ∧
      (singleHeader message.length ++ message).length ≤ encoder.frameSize := by
  rw [List.length_append]
  unfold Encoder.singleCapacity Encoder.frameSize at short
  unfold Encoder.frameSize singleHeader
  split at short <;> split <;> simp only [List.length_cons, List.length_nil] <;> omega

theorem Encoder.decode_single (some : message ≠ [])
    (short : message.length ≤ encoder.singleCapacity) :
    Pdu.decode (encoder.frame (singleHeader message.length ++ message)).payload =
      .some (.single message) := by
  obtain ⟨small, fits⟩ := Encoder.length_whole short
  obtain ⟨fill, payload, _, _⟩ := Encoder.payload_frame fits
  rw [payload]
  exact DiagBus.decode_single some small

/-- The header of a first frame leaves room for the start of the message. -/
theorem Encoder.length_start (long : encoder.singleCapacity < message.length) :
    (firstHeader message.length ++
      message.take (encoder.firstRoom message.length)).length = encoder.frameSize := by
  have room := encoder.firstRoom_lt long
  have header := length_firstHeader message.length
  have size := encoder.frameSize_bounds
  rw [List.length_append, List.length_take, Nat.min_eq_left (by omega)]
  unfold Encoder.firstRoom
  omega

/-- A first frame is full, so that no padding is taken for a part of the message. -/
theorem Encoder.decode_first (long : encoder.singleCapacity < message.length)
    (bound : message.length ≤ 0xFFFFFFFF) :
    Pdu.decode (encoder.frame (firstHeader message.length ++
        message.take (encoder.firstRoom message.length))).payload =
      some (.first message.length (message.take (encoder.firstRoom message.length))) := by
  have full := Encoder.length_start long
  obtain ⟨fill, payload, _, within⟩ := Encoder.payload_frame full.le
  have none_left : fill = [] := List.eq_nil_of_length_eq_zero (by omega)
  rw [payload, none_left, List.append_nil]
  exact DiagBus.decode_first (by omega) bound _

/-- A consecutive frame is read with its padding, which never makes it longer than a full one. -/
theorem Encoder.decode_consecutive (encoder : Encoder) (number : Nat) {piece : List UInt8}
    (fits : piece.length ≤ encoder.frameSize - 1) : ∃ fill,
      Pdu.decode (encoder.frame ((0x20 + number % 16).toUInt8 :: piece)).payload =
        some (.consecutive (sequenceAfter number) (piece ++ fill)) ∧
      piece.length + fill.length ≤ encoder.frameSize - 1 := by
  have size := encoder.frameSize_bounds
  have inside : ((0x20 + number % 16).toUInt8 :: piece).length ≤ encoder.frameSize := by
    rw [List.length_cons]
    omega
  obtain ⟨fill, payload, _, within⟩ := Encoder.payload_frame inside
  rw [List.length_cons] at within
  refine ⟨fill, ?_, by omega⟩
  rw [payload]
  exact DiagBus.decode_consecutive number (piece ++ fill)

theorem Encoder.decode_flowControl (encoder : Encoder) (status : FlowStatus)
    (blockSize separation : UInt8) :
    Pdu.decode (encoder.flowControl status blockSize separation).payload =
      some (.flowControl (.ofByte (status.toByte &&& 0x0F)) blockSize separation) := by
  have size := encoder.frameSize_bounds
  have fits : [0x30 ||| (status.toByte &&& 0x0F), blockSize, separation].length ≤
      encoder.frameSize := by
    show 3 ≤ encoder.frameSize
    omega
  obtain ⟨fill, payload, _, _⟩ := Encoder.payload_frame fits
  unfold Encoder.flowControl
  rw [payload]
  exact DiagBus.decode_flowControl status blockSize separation fill

theorem Encoder.decode_continue (encoder : Encoder) (blockSize separation : UInt8) :
    Pdu.decode (encoder.flowControl .continueToSend blockSize separation).payload =
      some (.flowControl .continueToSend blockSize separation) :=
  encoder.decode_flowControl .continueToSend blockSize separation

/-- Every frame of a message but its first is a consecutive frame. -/
theorem Encoder.decode_later {read later : List Frame} {frame : Frame}
    (whole : read ++ frame :: later = encoder.segmentation message) (started : read ≠ []) :
    frame.id = encoder.id ∧
      ∃ sequence data, Pdu.decode frame.payload = some (.consecutive sequence data) := by
  obtain ⟨first, rest, rfl⟩ := List.exists_cons_of_ne_nil started
  unfold Encoder.segmentation at whole
  split at whole
  · have lengths := congrArg List.length whole
    simp at lengths
  · have parts := (List.cons.inj whole).2
    have among : frame ∈ encoder.consecutives 1
        (message.drop (encoder.firstRoom message.length)) := by
      rw [← parts]
      exact List.mem_append_right rest List.mem_cons_self
    unfold Encoder.consecutives at among
    obtain ⟨i, inside, rfl⟩ := List.mem_mapIdx.mp among
    have size := encoder.frameSize_bounds
    have fits := ((length_pieces (by omega) _).2 _ (List.getElem_mem inside)).2
    obtain ⟨fill, read, _⟩ := encoder.decode_consecutive (1 + i) fits
    exact ⟨encoder.id_frame _, _, _, read⟩

/-- Every frame of a message carries the identifier of its sender and is for the flow that
receives. -/
theorem Encoder.decode_segmentation (some : message ≠ []) (bound : message.length ≤ 0xFFFFFFFF) :
    ∀ frame ∈ encoder.segmentation message, frame.id = encoder.id ∧
      isFlowControl frame.payload = false := by
  intro frame member
  have input {pdu : Pdu} (read : Pdu.decode frame.payload = .some pdu)
      (own : pdu.direction = .input) : isFlowControl frame.payload = false := by
    rw [isFlowControl_of_decode read, own]
    rfl
  obtain ⟨early, late, whole⟩ := List.append_of_mem member
  by_cases started : early = []
  · subst started
    unfold Encoder.segmentation at whole
    split at whole
    · rename_i short
      obtain ⟨rfl, _⟩ := List.cons.inj whole
      exact ⟨encoder.id_frame _, input (Encoder.decode_single some short) rfl⟩
    · obtain ⟨rfl, _⟩ := List.cons.inj whole
      exact ⟨encoder.id_frame _, input (Encoder.decode_first (by omega) bound) rfl⟩
  · obtain ⟨same, _, _, read⟩ := Encoder.decode_later whole.symm started
    exact ⟨same, input read rfl⟩

end

end DiagBus
