import DiagBus.Proofs.Codec

namespace DiagBus

/-- A frame that an encoder makes, and how many of its bytes the encoder has a use for. -/
inductive Encoder.Makes (encoder : Encoder) : (used : Nat) → Frame → Prop
  | single {message : List UInt8} {frame : Frame} (made : encoder.single? message = some frame) :
      Makes encoder ((if message.length ≤ 7 then 1 else 2) + message.length) frame
  | first (length : Nat) (data : List UInt8) :
      Makes encoder ((if length ≤ 0xFFF then 2 else 6) + (encoder.first length data).2)
        (encoder.first length data).1
  | consecutive (sequence : UInt8) (data : List UInt8) :
      Makes encoder (1 + (encoder.consecutive sequence data).2) (encoder.consecutive sequence data).1
  | flowControl (status : FlowStatus) (blockSize separation : UInt8) :
      Makes encoder 3 (encoder.flowControl status blockSize separation)

/-- A frame of an encoder's format with this many bytes in use. Classic frames have eight bytes,
flexible data-rate frames the least length of at least eight that covers the bytes in use. -/
structure Encoder.Formats (encoder : Encoder) (used : Nat) (frame : Frame) : Prop where
  id : frame.id = encoder.id
  shape : match frame with
    | .classic _ length _ => encoder.flexible = false ∧ length.val = 8
    | .flexible _ length fast _ => encoder.flexible = true ∧ fast = encoder.fast ∧
        length.val ∈ frameLengths ∧ max used 8 ≤ length ∧
        ∀ other ∈ frameLengths, max used 8 ≤ other → length ≤ other
  padding : ∀ i byte, used ≤ i → frame.bytes[i]? = some byte → byte = encoder.padding

section

variable {encoder : Encoder}

/-- The next length of a flexible data-rate frame is one of its lengths, and the least that will
do. -/
theorem flexibleLength_least {length : Nat} (bound : length ≤ 64) :
    flexibleLength length ∈ frameLengths ∧
      ∀ other ∈ frameLengths, length ≤ other → flexibleLength length ≤ other := by
  have all : ∀ n, n < 65 → flexibleLength n ∈ frameLengths ∧
      ∀ other ∈ frameLengths, n ≤ other → flexibleLength n ≤ other := by decide
  exact all length (by omega)

theorem bytes_paddedTo {size i : Nat} {fill byte : UInt8} {bytes : List UInt8}
    (behind : bytes.length ≤ i) (found : (paddedTo size fill bytes).toList[i]? = some byte) :
    byte = fill := by
  obtain ⟨inside, here⟩ := List.getElem?_eq_some_iff.mp found
  rw [← here, Vector.getElem_toList]
  unfold paddedTo
  rw [Vector.getElem_ofFn, List.getD_eq_default _ _ behind]

/-- The frame of any bytes is of the encoder's format, if the format has room for them. A classic
frame leaves out what it has no room for. -/
theorem Encoder.frame_formats (encoder : Encoder) {bytes : List UInt8} (fits : bytes.length ≤ 64) :
    encoder.Formats bytes.length (encoder.frame bytes) := by
  obtain ⟨valid, least⟩ := flexibleLength_least (show max bytes.length 8 ≤ 64 by omega)
  have covers := le_flexibleLength (show max bytes.length 8 ≤ 64 by omega)
  unfold Encoder.frame
  cases flexible : encoder.flexible with
  | true => exact ⟨rfl, ⟨flexible, rfl, valid, covers, least⟩, fun _ _ => bytes_paddedTo⟩
  | false => exact ⟨rfl, ⟨flexible, rfl⟩, fun _ _ => bytes_paddedTo⟩

theorem length_firstHeader_eq (length : Nat) :
    (firstHeader length).length = if length ≤ 0xFFF then 2 else 6 := by
  unfold firstHeader shortLengthLimit
  split
  · rfl
  · simp [length_bigEndian]

/-- Whatever an encoder makes is of its format. -/
theorem Encoder.Makes.formats {used : Nat} {frame : Frame} (makes : encoder.Makes used frame) :
    encoder.Formats used frame := by
  have size := encoder.frameSize_bounds
  cases makes with
  | @single message frame made =>
    unfold Encoder.single? at made
    split at made
    · rename_i short
      obtain rfl := Option.some.inj made
      have fits : (message.length.toUInt8 :: message).length ≤ 64 := by
        rw [List.length_cons]
        omega
      have used_eq : (message.length.toUInt8 :: message).length = 1 + message.length := by
        rw [List.length_cons, Nat.add_comm]
      rw [if_pos short, ← used_eq]
      exact encoder.frame_formats fits
    · rename_i long
      split at made
      · obtain rfl := Option.some.inj made
        have fits : (0 :: message.length.toUInt8 :: message).length ≤ 64 := by
          rw [List.length_cons, List.length_cons]
          omega
        have used_eq : (0 :: message.length.toUInt8 :: message).length = 2 + message.length := by
          rw [List.length_cons, List.length_cons]
          omega
        rw [if_neg long, ← used_eq]
        exact encoder.frame_formats fits
      · cases made
  | first length data =>
    have header := length_firstHeader_eq length
    have used_eq : (firstHeader length ++ data.take (encoder.first length data).2).length =
        (if length ≤ 0xFFF then 2 else 6) + (encoder.first length data).2 := by
      rw [List.length_append, List.length_take, header, Nat.min_eq_left]
      exact Nat.min_le_left _ _
    rw [← used_eq]
    refine encoder.frame_formats ?_
    rw [used_eq]
    unfold Encoder.first
    simp only [header]
    split <;> omega
  | consecutive sequence data =>
    have used_eq : ((0x20 ||| (sequence &&& 0x0F)) ::
        data.take (encoder.consecutive sequence data).2).length =
          1 + (encoder.consecutive sequence data).2 := by
      rw [List.length_cons, List.length_take, Nat.min_eq_left, Nat.add_comm]
      exact Nat.min_le_left _ _
    rw [← used_eq]
    refine encoder.frame_formats ?_
    rw [used_eq]
    unfold Encoder.consecutive
    simp only []
    omega
  | flowControl status blockSize separation =>
    have fits : [0x30 ||| (status.toByte &&& 0x0F), blockSize, separation].length ≤ 64 := by
      show 3 ≤ 64
      decide
    exact encoder.frame_formats fits

/-- A message that one frame has room for is read back from it. -/
theorem Encoder.single_read {message : List UInt8} (some : 1 ≤ message.length)
    (short : message.length ≤ encoder.singleCapacity) :
    ∃ frame, encoder.single? message = .some frame ∧
      Pdu.decode frame.payload = .some (.single message) := by
  have small := (Encoder.length_whole short).1
  refine ⟨encoder.frame (singleHeader message.length ++ message), ?_,
    Encoder.decode_single (List.length_pos_iff.mp some) short⟩
  unfold Encoder.single? singleHeader
  split
  · rfl
  · rfl

/-- A first frame is read back with the length it announces. -/
theorem Encoder.first_read {length : Nat} (positive : 1 ≤ length)
    (bound : length ≤ encoder.messageLimit) (data : List UInt8) :
    ∃ fill, Pdu.decode (encoder.first length data).1.payload =
      some (.first length (data.take (encoder.first length data).2 ++ fill)) := by
  have size := encoder.frameSize_bounds
  have header := length_firstHeader length
  have fits : (firstHeader length ++ data.take (encoder.first length data).2).length ≤
      encoder.frameSize := by
    rw [List.length_append, List.length_take]
    unfold Encoder.first
    simp only []
    omega
  have limit : length ≤ 0xFFFFFFFF := by
    unfold Encoder.messageLimit shortLengthLimit at bound
    split at bound <;> omega
  obtain ⟨fill, payload, _, _⟩ := Encoder.payload_frame fits
  refine ⟨fill, ?_⟩
  rw [show (encoder.first length data).1.payload = _ from payload, List.append_assoc]
  exact DiagBus.decode_first positive limit _

/-- A consecutive frame is read back with the lower four bits of its number. -/
theorem Encoder.consecutive_read (encoder : Encoder) (sequence : UInt8) (data : List UInt8) :
    ∃ fill, Pdu.decode (encoder.consecutive sequence data).1.payload =
      some (.consecutive (sequence % 16)
        (data.take (encoder.consecutive sequence data).2 ++ fill)) := by
  have size := encoder.frameSize_bounds
  have fits : ((0x20 ||| (sequence &&& 0x0F)) ::
      data.take (encoder.consecutive sequence data).2).length ≤ encoder.frameSize := by
    rw [List.length_cons, List.length_take]
    unfold Encoder.consecutive
    simp only []
    omega
  obtain ⟨fill, payload, _, _⟩ := Encoder.payload_frame fits
  have nibbles : ∀ byte : UInt8, highNibble (0x20 ||| (byte &&& 0x0F)) = 2 ∧
      (lowNibble (0x20 ||| (byte &&& 0x0F))).toUInt8 = byte % 16 :=
    forall_byte (by decide +kernel)
  refine ⟨fill, ?_⟩
  rw [show (encoder.consecutive sequence data).1.payload = _ from payload, List.cons_append]
  simp only [Pdu.decode, (nibbles sequence).1, (nibbles sequence).2]

/-- A status is the one of its byte, unless it is a reserved one in place of one with a name. -/
theorem FlowStatus.ofByte_toByte {status : FlowStatus}
    (proper : ∀ nibble, status = .reserved nibble → 3 ≤ nibble) :
    FlowStatus.ofByte status.toByte = status := by
  cases status with
  | reserved nibble =>
    have unnamed : ∀ byte : UInt8, 3 ≤ byte → FlowStatus.ofByte byte = .reserved byte :=
      forall_byte (by decide +kernel)
    exact unnamed nibble (proper nibble rfl)
  | _ => rfl

/-- Flow control with a status of four bits is read back with the status of its byte. -/
theorem Encoder.flowControl_read (encoder : Encoder) {status : FlowStatus}
    (small : status.toByte < 16) (blockSize separation : UInt8) :
    Pdu.decode (encoder.flowControl status blockSize separation).payload =
      some (.flowControl (.ofByte status.toByte) blockSize separation) := by
  have masked : ∀ byte : UInt8, byte < 16 → byte &&& 0x0F = byte := forall_byte (by decide +kernel)
  rw [encoder.decode_flowControl, masked _ small]

end

/-- Every unit is read back from the frame made for it: a message that one frame has room for, the
length that a first frame announces with the start of the message, the number of a consecutive frame
and its part of the message, and flow control with any status of four bits, but a reserved one in
place of one with a name: it is read as that one. All frames are of the encoder's format and filled up
with its padding. -/
theorem units_are_read_back (encoder : Encoder) :
    (∀ message : List UInt8, 1 ≤ message.length → message.length ≤ encoder.singleCapacity →
      ∃ frame, encoder.single? message = some frame ∧
        Pdu.decode frame.payload = some (.single message)) ∧
    (∀ (length : Nat) (data : List UInt8), 1 ≤ length → length ≤ encoder.messageLimit →
      ∃ frame count fill, encoder.first length data = (frame, count) ∧
        count = min data.length (encoder.frameSize - if length ≤ 4095 then 2 else 6) ∧
        Pdu.decode frame.payload = some (.first length (data.take count ++ fill))) ∧
    (∀ (sequence : UInt8) (data : List UInt8), ∃ frame count fill,
      encoder.consecutive sequence data = (frame, count) ∧
        count = min data.length (encoder.frameSize - 1) ∧
        Pdu.decode frame.payload =
          some (.consecutive (sequence % 16) (data.take count ++ fill))) ∧
    (∀ (status : FlowStatus) (blockSize separation : UInt8), status.toByte < 16 →
      (∀ nibble, status = .reserved nibble → 3 ≤ nibble) →
      Pdu.decode (encoder.flowControl status blockSize separation).payload =
        some (.flowControl status blockSize separation)) ∧
    (∀ named ∈ [FlowStatus.continueToSend, .wait, .overflow], ∀ blockSize separation : UInt8,
      Pdu.decode (encoder.flowControl (.reserved named.toByte) blockSize separation).payload =
        some (.flowControl named blockSize separation)) ∧
    ∀ used frame, encoder.Makes used frame → encoder.Formats used frame := by
  refine ⟨fun message some short => Encoder.single_read some short,
    fun length data positive bound => ?_, fun sequence data => ?_,
    fun status blockSize separation small proper => ?_, fun named member blockSize separation => ?_,
    fun used frame makes => makes.formats⟩
  · obtain ⟨fill, read⟩ := Encoder.first_read positive bound data
    refine ⟨_, _, fill, rfl, ?_, read⟩
    show min _ (encoder.frameSize - (firstHeader length).length) = _
    rw [length_firstHeader_eq]
  · obtain ⟨fill, read⟩ := encoder.consecutive_read sequence data
    exact ⟨_, _, fill, rfl, rfl, read⟩
  · rw [encoder.flowControl_read small, FlowStatus.ofByte_toByte proper]
  · have properties : ∀ status ∈ [FlowStatus.continueToSend, .wait, .overflow],
        status.toByte < 16 ∧ FlowStatus.ofByte status.toByte = status := by decide
    obtain ⟨small, same⟩ := properties named member
    have reserved : (FlowStatus.reserved named.toByte).toByte < 16 := small
    rw [encoder.flowControl_read reserved]
    exact congrArg (fun status => some (Pdu.flowControl status blockSize separation)) same

def sampleEncoder : Encoder where
  id := .standard 0x7E0
  flexible := true
  fast := true
  padding := 0xCC

theorem sample_units_are_read_back :
    (1 ≤ (List.replicate 20 0x55 : List UInt8).length ∧
      (List.replicate 20 0x55 : List UInt8).length ≤ sampleEncoder.singleCapacity ∧
      ∃ frame, sampleEncoder.single? (List.replicate 20 0x55) = some frame ∧
        Pdu.decode frame.payload = some (.single (List.replicate 20 0x55)) ∧
        sampleEncoder.Formats 22 frame) ∧
    (5000 ≤ sampleEncoder.messageLimit ∧
      ∃ frame count fill, sampleEncoder.first 5000 (List.replicate 64 0x11) = (frame, count) ∧
        count = 58 ∧ Pdu.decode frame.payload =
          some (.first 5000 ((List.replicate 64 0x11).take count ++ fill))) ∧
    ((FlowStatus.reserved 5).toByte < 16 ∧
      Pdu.decode (sampleEncoder.flowControl (.reserved 5) 8 0x14).payload =
        some (.flowControl (.reserved 5) 8 0x14)) ∧
    Pdu.decode (sampleEncoder.flowControl (.reserved 1) 8 0x14).payload =
      some (.flowControl .wait 8 0x14) := by
  obtain ⟨single, first, _, control, named, format⟩ := units_are_read_back sampleEncoder
  have some : 1 ≤ (List.replicate 20 0x55 : List UInt8).length := by decide
  have short : (List.replicate 20 0x55 : List UInt8).length ≤ sampleEncoder.singleCapacity := by
    decide
  obtain ⟨frame, made, read⟩ := single _ some short
  have proper : ∀ nibble, FlowStatus.reserved 5 = .reserved nibble → 3 ≤ nibble := by
    rintro nibble ⟨⟩
    decide
  exact ⟨⟨some, short, frame, made, read, format 22 frame (.single made)⟩,
    ⟨by decide, first 5000 (List.replicate 64 0x11) (by decide) (by decide)⟩,
    ⟨by decide, control (.reserved 5) 8 0x14 (by decide) proper⟩,
    named .wait (by decide) 8 0x14⟩

/-- A reserved status of the value 0 is read as the one that asks for more frames. -/
theorem reserved_zero_is_read_as_named :
    (FlowStatus.reserved 0).toByte < 16 ∧
      (sampleEncoder.flowControl (.reserved 0) 8 0x14).payload =
        [0x30, 8, 0x14, 0xCC, 0xCC, 0xCC, 0xCC, 0xCC] ∧
      Pdu.decode (sampleEncoder.flowControl (.reserved 0) 8 0x14).payload =
        some (.flowControl .continueToSend 8 0x14) ∧
      Pdu.decode (sampleEncoder.flowControl (.reserved 0) 8 0x14).payload ≠
        some (.flowControl (.reserved 0) 8 0x14) := by
  have small : (FlowStatus.reserved 0).toByte < 16 := by decide
  have read := sampleEncoder.flowControl_read small 8 0x14
  refine ⟨small, by decide, read, ?_⟩
  rw [read]
  decide

end DiagBus
