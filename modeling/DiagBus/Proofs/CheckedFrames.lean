import DiagBus.Proofs.Checked
import DiagBus.Proofs.Codec
import DiagBus.Proofs.Receiving
import DiagBus.Proofs.Sending

namespace DiagBus

namespace Checked

variable {α : Type}

/-- A list that is as long as the array it is stored in. -/
def array (size : Nat) (list : List α) : Checked (Vector α size) :=
  if same : list.length = size then .ok ⟨list.toArray, same⟩ else .error .mismatch

theorem array_toList {size : Nat} (items : Vector α size) :
    array size items.toList = .ok items := by
  unfold array
  rw [dif_pos items.length_toList]
  rfl

end Checked

/-- The payload is the first part of the array. -/
def Frame.checkedPayload (frame : Frame) : Checked (List UInt8) :=
  Checked.slice frame.bytes 0 frame.length

theorem Frame.checkedPayload_eq (frame : Frame) : frame.checkedPayload = .ok frame.payload := by
  have inside : frame.length ≤ frame.bytes.length := by
    have whole := frame.length_payload
    rw [Frame.payload, List.length_take] at whole
    omega
  exact Checked.slice_eq (Nat.zero_le _) inside

/-- A classic frame is made of an array into which its payload is copied. -/
def Frame.checkedClassic? (id : CanId) (payload : List UInt8) : Checked (Option Frame) :=
  if fits : payload.length < 9 then do
    let bytes ← Checked.overwrite (List.replicate 8 0) 0 payload.length payload
    let bytes ← Checked.array 8 bytes
    .ok (some (.classic id ⟨payload.length, fits⟩ bytes))
  else .ok none

/-- A frame is taken over from a classic controller. -/
def Frame.checkedOfWire? (wire : WireFrame) : Checked (Option Frame) :=
  if wire.remote then .ok none else Frame.checkedClassic? wire.id wire.bytes

/-- A frame is passed on to a classic controller. -/
def Frame.checkedToWire? (frame : Frame) : Checked (Option WireFrame) :=
  match frame with
  | .classic id .. => do
    let bytes ← frame.checkedPayload
    .ok (some { id, bytes })
  | .flexible .. => .ok none

theorem Frame.checkedOfWire?_eq (wire : WireFrame) :
    Frame.checkedOfWire? wire = .ok (Frame.ofWire? wire) := by
  unfold checkedOfWire? ofWire?
  split
  · rfl
  · unfold checkedClassic? classic?
    by_cases fits : wire.bytes.length < 9
    · have inside : wire.bytes.length ≤ (List.replicate 8 (0 : UInt8)).length := by
        rw [List.length_replicate]
        omega
      have filled : (List.replicate 8 (0 : UInt8)).take 0 ++ wire.bytes ++
          (List.replicate 8 0).drop wire.bytes.length = (paddedTo 8 0 wire.bytes).toList := by
        rw [toList_paddedTo (by omega), List.take_zero, List.nil_append, List.drop_replicate]
      simp only [dif_pos fits, Checked.overwrite_eq (Nat.zero_le _) inside (Nat.sub_zero _).symm,
        filled, Checked.array_toList, Checked.ok_bind]
    · rw [dif_neg fits, dif_neg fits]

theorem Frame.checkedToWire?_eq (frame : Frame) :
    frame.checkedToWire? = .ok frame.toWire? := by
  cases frame with
  | classic id length bytes =>
    unfold checkedToWire?
    simp only [Frame.checkedPayload_eq, Checked.ok_bind]
    rfl
  | flexible => rfl

/-- The message of this length behind `offset` bytes, if all of it is there. -/
def Pdu.checkedMessage [Machine] (payload : List UInt8) (offset length : Nat) :
    Checked (Option Pdu) :=
  if length = 0 then .ok none
  else do
    let stop ← Checked.add offset length
    .ok (if stop ≤ payload.length then some (.single ((payload.take stop).drop offset)) else none)

/-- A whole message; its length is in a byte of its own if the nibble is 0. -/
def Pdu.checkedSingle [Machine] (payload : List UInt8) (nibble : Nat) : Checked (Option Pdu) :=
  if 0 < nibble then Pdu.checkedMessage payload 1 nibble
  else if 8 < payload.length then
    match payload[1]? with
    | none => .ok none
    | some length => Pdu.checkedMessage payload 2 length.toNat
  else .ok none

def Pdu.checkedDecode [Machine] (payload : List UInt8) : Checked (Option Pdu) :=
  match payload with
  | [] => .ok none
  | control :: rest =>
    match highNibble control with
    | 0 => Pdu.checkedSingle payload (lowNibble control)
    | 2 => do
      let data ← Checked.slice payload 1 payload.length
      .ok (some (.consecutive (lowNibble control).toUInt8 data))
    | _ => .ok (Pdu.decode (control :: rest))

theorem Pdu.checkedMessage_eq [Machine] (front rest : List UInt8) {length : Nat}
    (positive : 0 < length) (small : front.length + length ≤ 0xFFFFFFFF) :
    Pdu.checkedMessage (front ++ rest) front.length length =
      .ok ((takeExactly? length rest).map .single) := by
  have fits : front.length + length ≤ Machine.largest := small.trans Machine.wide
  unfold Pdu.checkedMessage takeExactly?
  rw [if_neg (by omega), Checked.add_eq fits, Checked.ok_bind, List.length_append, List.drop_take,
    Nat.add_sub_cancel_left, List.drop_left]
  simp only [Nat.add_le_add_iff_left]
  split <;> rfl

theorem Pdu.checkedSingle_eq [Machine] (control : UInt8) (rest : List UInt8) :
    Pdu.checkedSingle (control :: rest) (lowNibble control) =
      .ok (Pdu.decodeSingle (lowNibble control) rest) := by
  have small : lowNibble control < 16 := Nat.mod_lt _ (by decide)
  unfold Pdu.checkedSingle Pdu.decodeSingle
  by_cases own : 0 < lowNibble control
  · rw [if_pos own, if_pos own]
    exact Pdu.checkedMessage_eq [control] rest own (by simp only [List.length_singleton]; omega)
  · rw [if_neg own, if_neg own]
    cases rest with
    | nil => rfl
    | cons length rest =>
      have bound := length.toNat_lt
      by_cases long : 7 ≤ rest.length
      · have longer : 8 < (control :: length :: rest).length := by
          simp only [List.length_cons]
          omega
        rw [if_pos longer]
        by_cases positive : 0 < length.toNat
        · simp only [if_pos (And.intro long positive)]
          exact Pdu.checkedMessage_eq [control, length] rest positive
            (by simp only [List.length_cons, List.length_nil]; omega)
        · have zero : length.toNat = 0 := by omega
          simp [Pdu.checkedMessage, zero]
      · have short : ¬8 < (control :: length :: rest).length := by
          simp only [List.length_cons]
          omega
        simp only [if_neg short, long, false_and, if_false]

/-- Reading a payload has a result, whatever it holds. -/
theorem Pdu.checkedDecode_eq [Machine] (payload : List UInt8) :
    Pdu.checkedDecode payload = .ok (Pdu.decode payload) := by
  cases payload with
  | nil => rfl
  | cons control rest =>
    unfold Pdu.checkedDecode
    show (match highNibble control with
      | 0 => _
      | 2 => _
      | _ => _) = _
    split
    · rename_i single
      simp only [Pdu.checkedSingle_eq, Pdu.decode, single]
    · rename_i consecutive
      have whole : 1 ≤ (control :: rest).length := by simp
      rw [Checked.slice_eq whole le_rfl, Checked.ok_bind, List.take_length]
      simp only [Pdu.decode, consecutive, List.drop_succ_cons, List.drop_zero]
    · rfl

namespace Encoder

variable {encoder : Encoder} {message data : List UInt8}

/-- An array that begins with these bytes. -/
def filled (encoder : Encoder) (bytes : List UInt8) : List UInt8 :=
  bytes ++ List.replicate (64 - bytes.length) encoder.padding

/-- The frame of an array of which the first bytes are used. -/
def checkedBuild (encoder : Encoder) (bytes : List UInt8) (used : Nat) : Checked Frame :=
  if encoder.flexible then do
    let length ← Checked.read frameLengths ((codeOfLength (max used 8)).toNat % 16)
    let bytes ← Checked.array 64 bytes
    if fits : length < 65 then .ok (.flexible encoder.id ⟨length, fits⟩ encoder.fast bytes)
    else .error .range
  else do
    let bytes ← Checked.slice bytes 0 8
    let bytes ← Checked.array 8 bytes
    .ok (.classic encoder.id 8 bytes)

/-- A frame is built, and its payload is shown to whoever traces it. -/
def checkedFrame (encoder : Encoder) (bytes : List UInt8) (used : Nat) : Checked Frame := do
  let frame ← encoder.checkedBuild bytes used
  let _ ← frame.checkedPayload
  .ok frame

/-- The frame of an array after data were copied behind the header. -/
def checkedBehind [Machine] (encoder : Encoder) (bytes : List UInt8) (header : Nat)
    (data : List UInt8) : Checked Frame := do
  let used ← Checked.add header data.length
  let bytes ← Checked.overwrite bytes header used data
  encoder.checkedFrame bytes used

def checkedSingleCapacity (encoder : Encoder) : Checked Nat :=
  Checked.sub encoder.frameSize (if encoder.flexible then 2 else 1)

def checkedSingle [Machine] (encoder : Encoder) (message : List UInt8) : Checked Frame :=
  if message.length ≤ 7 then do
    let bytes ← Checked.write (encoder.filled []) 0 message.length.toUInt8
    encoder.checkedBehind bytes 1 message
  else do
    let bytes ← Checked.write (encoder.filled []) 0 0
    let bytes ← Checked.write bytes 1 message.length.toUInt8
    encoder.checkedBehind bytes 2 message

/-- An array with the header of a first frame, and where it ends. -/
def checkedHeader (encoder : Encoder) (length : Nat) : Checked (List UInt8 × Nat) :=
  if length ≤ shortLengthLimit then do
    let bytes ← Checked.write (encoder.filled []) 0 (0x10 ||| (length / 256).toUInt8)
    let bytes ← Checked.write bytes 1 length.toUInt8
    .ok (bytes, 2)
  else do
    let bytes ← Checked.write (encoder.filled []) 0 0x10
    let bytes ← Checked.write bytes 1 0
    let bytes ← Checked.overwrite bytes 2 6 (bigEndian 4 length)
    .ok (bytes, 6)

def checkedFirst [Machine] (encoder : Encoder) (length : Nat) (data : List UInt8) :
    Checked (Frame × Nat) := do
  let (bytes, header) ← encoder.checkedHeader length
  let room ← Checked.sub encoder.frameSize header
  let part ← Checked.slice data 0 (min data.length room)
  let frame ← encoder.checkedBehind bytes header part
  .ok (frame, min data.length room)

def checkedConsecutive [Machine] (encoder : Encoder) (sequence : UInt8) (data : List UInt8) :
    Checked (Frame × Nat) := do
  let bytes ← Checked.write (encoder.filled []) 0 (0x20 ||| (sequence &&& 0x0F))
  let room ← Checked.sub encoder.frameSize 1
  let part ← Checked.slice data 0 (min data.length room)
  let frame ← encoder.checkedBehind bytes 1 part
  .ok (frame, min data.length room)

def checkedFlowControl (encoder : Encoder) (status : FlowStatus) (blockSize separation : UInt8) :
    Checked Frame := do
  let bytes ← Checked.write (encoder.filled []) 0 (0x30 ||| (status.toByte &&& 0x0F))
  let bytes ← Checked.write bytes 1 blockSize
  let bytes ← Checked.write bytes 2 separation
  encoder.checkedFrame bytes 3

theorem length_filled {bytes : List UInt8} (fits : bytes.length ≤ 64) :
    (encoder.filled bytes).length = 64 := by
  rw [filled, List.length_append, List.length_replicate]
  omega

/-- A byte is written behind the others. -/
theorem write_filled {bytes : List UInt8} (room : bytes.length < 64) (byte : UInt8) :
    Checked.write (encoder.filled bytes) bytes.length byte =
      .ok (encoder.filled (bytes ++ [byte])) := by
  have inside : bytes.length < (encoder.filled bytes).length := by
    rw [length_filled room.le]
    exact room
  have next : 64 - bytes.length = 64 - (bytes ++ [byte]).length + 1 := by
    rw [List.length_append, List.length_singleton]
    omega
  rw [Checked.write_eq inside, filled, filled, next, List.replicate_succ, List.set_append_right _ _
    le_rfl, Nat.sub_self, List.set_cons_zero, List.append_assoc, List.singleton_append]

theorem write_first (byte : UInt8) :
    Checked.write (encoder.filled []) 0 byte = .ok (encoder.filled [byte]) :=
  @write_filled encoder [] (Nat.zero_lt_succ _) byte

theorem write_second (first byte : UInt8) :
    Checked.write (encoder.filled [first]) 1 byte = .ok (encoder.filled [first, byte]) :=
  @write_filled encoder [first] (Nat.lt_of_sub_eq_succ rfl) byte

/-- Data are copied behind the bytes. -/
theorem overwrite_filled {bytes : List UInt8} (room : bytes.length + data.length ≤ 64) :
    Checked.overwrite (encoder.filled bytes) bytes.length (bytes.length + data.length) data =
      .ok (encoder.filled (bytes ++ data)) := by
  have inside : bytes.length + data.length ≤ (encoder.filled bytes).length := by
    rw [length_filled (by omega)]
    exact room
  rw [Checked.overwrite_eq (Nat.le_add_right _ _) inside (by omega), filled, filled,
    List.take_left, List.drop_append, List.drop_of_length_le (Nat.le_add_right _ _),
    List.nil_append, List.drop_replicate, Nat.add_sub_cancel_left, Nat.sub_sub,
    List.length_append]

/-- An array begins with the bytes of the frame that is made of it. -/
theorem checkedBuild_eq {bytes : List UInt8} (fits : bytes.length ≤ encoder.frameSize) :
    encoder.checkedBuild (encoder.filled bytes) bytes.length = .ok (encoder.frame bytes) := by
  have size := encoder.frameSize_bounds
  unfold checkedBuild frame
  unfold frameSize at fits size
  by_cases flexible : encoder.flexible = true
  · rw [if_pos flexible] at fits
    have here : frameLengths[(codeOfLength (max bytes.length 8)).toNat % 16]? =
        some (flexibleLength (max bytes.length 8)) := by
      have inside : (codeOfLength (max bytes.length 8)).toNat % 16 < frameLengths.length :=
        Nat.mod_lt _ (by decide)
      rw [List.getElem?_eq_getElem inside, flexibleLength, lengthOfCode,
        List.getD_eq_getElem _ _ inside]
    have bound : flexibleLength (max bytes.length 8) < 65 :=
      Nat.lt_succ_of_le (flexibleLength_le _)
    simp only [if_pos flexible, Checked.read_eq here, Checked.ok_bind, dif_pos bound, filled,
      ← toList_paddedTo fits, Checked.array_toList]
  · rw [if_neg flexible] at fits
    have inside : 8 ≤ (encoder.filled bytes).length := by
      rw [length_filled (by omega)]
      decide
    have front : (encoder.filled bytes).take 8 = (paddedTo 8 encoder.padding bytes).toList := by
      rw [filled, toList_paddedTo fits, List.take_append, List.take_of_length_le fits,
        List.take_replicate]
      congr 2
      omega
    simp only [if_neg flexible, Checked.slice_eq (Nat.zero_le _) inside, Checked.ok_bind,
      List.drop_zero, front, Checked.array_toList]

theorem checkedFrame_eq {bytes : List UInt8} (fits : bytes.length ≤ encoder.frameSize) :
    encoder.checkedFrame (encoder.filled bytes) bytes.length = .ok (encoder.frame bytes) := by
  unfold checkedFrame
  rw [checkedBuild_eq fits, Checked.ok_bind, Frame.checkedPayload_eq, Checked.ok_bind]

/-- Header and data together are the bytes of the frame. -/
theorem checkedBehind_eq [Machine] {header : List UInt8}
    (fits : header.length + data.length ≤ encoder.frameSize) :
    encoder.checkedBehind (encoder.filled header) header.length data =
      .ok (encoder.frame (header ++ data)) := by
  have wide := Machine.wide
  have size := encoder.frameSize_bounds
  have room : header.length + data.length ≤ Machine.largest := by omega
  have whole : (header ++ data).length = header.length + data.length := List.length_append
  unfold checkedBehind
  rw [Checked.add_eq room, Checked.ok_bind, overwrite_filled (by omega), Checked.ok_bind, ← whole]
  exact checkedFrame_eq (by omega)

theorem checkedSingleCapacity_eq (encoder : Encoder) :
    encoder.checkedSingleCapacity = .ok encoder.singleCapacity := by
  have size := encoder.frameSize_bounds
  refine Checked.sub_eq ?_
  split <;> omega

/-- A message that is not too long for one frame is put into one. -/
theorem checkedSingle_eq [Machine] (fits : message.length ≤ encoder.singleCapacity) :
    ∃ frame, encoder.single? message = some frame ∧ encoder.checkedSingle message = .ok frame := by
  have size := encoder.frameSize_bounds
  unfold singleCapacity at fits
  unfold single? checkedSingle
  by_cases small : message.length ≤ 7
  · have room : [message.length.toUInt8].length + message.length ≤ encoder.frameSize := by
      rw [List.length_singleton]
      omega
    refine ⟨_, if_pos small, ?_⟩
    rw [if_pos small, write_first, Checked.ok_bind]
    exact checkedBehind_eq room
  · have flexible : encoder.flexible = true := by
      by_contra classic
      unfold frameSize at fits
      rw [if_neg classic, if_neg classic] at fits
      exact small fits
    rw [if_pos flexible] at fits
    have room : [0, message.length.toUInt8].length + message.length ≤ encoder.frameSize := by
      simp only [List.length_cons, List.length_nil]
      omega
    refine ⟨_, (if_neg small).trans (if_pos (by omega)), ?_⟩
    rw [if_neg small, write_first, Checked.ok_bind, write_second, Checked.ok_bind]
    exact checkedBehind_eq room

theorem checkedHeader_eq (length : Nat) :
    encoder.checkedHeader length =
      .ok (encoder.filled (firstHeader length), (firstHeader length).length) := by
  unfold checkedHeader firstHeader
  by_cases short : length ≤ shortLengthLimit
  · rw [if_pos short, if_pos short, write_first, Checked.ok_bind, write_second]
    rfl
  · have four : (bigEndian 4 length).length = 4 := length_bigEndian 4 length
    have copied : Checked.overwrite (encoder.filled [0x10, 0]) 2 6 (bigEndian 4 length) =
        .ok (encoder.filled (0x10 :: 0 :: bigEndian 4 length)) := by
      have room : [(0x10 : UInt8), 0].length + (bigEndian 4 length).length ≤ 64 := by
        rw [four]
        decide
      have behind := @overwrite_filled encoder _ _ room
      rw [four] at behind
      exact behind
    rw [if_neg short, if_neg short, write_first, Checked.ok_bind, write_second, Checked.ok_bind,
      copied, Checked.ok_bind, List.length_cons, List.length_cons, four]

/-- The data that a frame has room for behind its header are put into it. -/
theorem checkedBehind_part [Machine] {header : List UInt8} {count : Nat}
    (room : header.length ≤ encoder.frameSize)
    (count_eq : count = min data.length (encoder.frameSize - header.length)) :
    Checked.slice data 0 count = .ok (data.take count) ∧
      encoder.checkedBehind (encoder.filled header) header.length (data.take count) =
        .ok (encoder.frame (header ++ data.take count)) := by
  have taken : (data.take count).length = count := by
    rw [List.length_take]
    omega
  exact ⟨Checked.slice_eq (Nat.zero_le _) (by omega), checkedBehind_eq (by omega)⟩

theorem checkedFirst_eq [Machine] (length : Nat) (data : List UInt8) :
    encoder.checkedFirst length data = .ok (encoder.first length data) := by
  have size := encoder.frameSize_bounds
  have header := length_firstHeader length
  have room : (firstHeader length).length ≤ encoder.frameSize := by omega
  obtain ⟨part, framed⟩ := @checkedBehind_part encoder data _ _ _ room rfl
  unfold checkedFirst first
  simp only [checkedHeader_eq, Checked.ok_bind, Checked.sub_eq room, part, framed]

theorem checkedConsecutive_eq [Machine] (sequence : UInt8) (data : List UInt8) :
    encoder.checkedConsecutive sequence data = .ok (encoder.consecutive sequence data) := by
  have size := encoder.frameSize_bounds
  have room : 1 ≤ encoder.frameSize := by omega
  obtain ⟨part, framed⟩ :=
    @checkedBehind_part encoder data _ [0x20 ||| (sequence &&& 0x0F)] _ room rfl
  rw [List.length_singleton] at part framed
  unfold checkedConsecutive consecutive
  simp only [write_first, Checked.ok_bind, Checked.sub_eq room, part, framed,
    List.singleton_append]

/-- A flow control frame has room for its three bytes. -/
theorem checkedFlowControl_eq (status : FlowStatus) (blockSize separation : UInt8) :
    encoder.checkedFlowControl status blockSize separation =
      .ok (encoder.flowControl status blockSize separation) := by
  have size := encoder.frameSize_bounds
  unfold checkedFlowControl flowControl
  rw [write_first, Checked.ok_bind, write_second, Checked.ok_bind,
    show Checked.write (encoder.filled [_, _]) 2 separation = _ from
      @write_filled encoder [_, _] (Nat.lt_of_sub_eq_succ rfl) separation, Checked.ok_bind]
  exact checkedFrame_eq ((Nat.le_of_sub_eq_zero rfl).trans size.1)

end Encoder

section

variable {encoder : Encoder} {flow : Flow}

def Flow.checkedOffset (flow : Flow) : Checked Nat :=
  Checked.sub flow.total flow.remaining

def checkedNextSequence (sequence : UInt8) : Checked UInt8 := do
  let next ← Checked.addByte sequence 1
  .ok (next &&& 0x0F)

/-- The next frame of a flow; whatever it is, the position of its data is worked out. -/
def Encoder.checkedNextFrame [Machine] (encoder : Encoder) (flow : Flow) :
    Checked (Option (Frame × Flow)) := do
  let offset ← flow.checkedOffset
  match flow.buffer with
  | none => .ok none
  | some buffer =>
    match flow.phase with
    | .singleOut => do
      let frame ← encoder.checkedSingle buffer.bytes
      let remaining ← Checked.sub flow.remaining buffer.size
      .ok (some (frame, { flow with remaining }))
    | .firstOut => do
      let (frame, count) ← encoder.checkedFirst flow.total buffer.bytes
      let remaining ← Checked.sub flow.remaining count
      .ok (some (frame, { flow with remaining }))
    | .consecutiveOut =>
      if buffer.size < offset then .ok none
      else do
        let (frame, count) ← encoder.checkedConsecutive flow.sequence (buffer.bytes.drop offset)
        let sequence ← checkedNextSequence flow.sequence
        let remaining ← Checked.sub flow.remaining count
        .ok (some (frame, { flow with remaining, sequence }))
    | _ => .ok none

/-- The flow after the bytes of a consecutive frame were put into its buffer. -/
def Flow.checkedCollect (flow : Flow) (data : List UInt8) : Checked Flow := do
  let offset ← flow.checkedOffset
  let count := min flow.remaining data.length
  let part ← Checked.slice data 0 count
  let buffer ← match flow.buffer with
    | none => .ok none
    | some buffer => do
      let (_, buffer) ← buffer.checkedWrite offset part
      .ok (some buffer)
  let remaining ← Checked.sub flow.remaining count
  let sequence ← checkedNextSequence flow.sequence
  .ok { flow with buffer, remaining, sequence }

/-- The numbers of a flow are within their bounds. -/
structure Flow.Ranged (flow : Flow) : Prop where
  remaining : flow.remaining ≤ flow.total
  sequence : flow.sequence.toNat ≤ 15
  buffer : ∀ buffer, flow.buffer = some buffer → buffer.size = flow.total

/-- The next frame of a flow can be built: it is a consecutive one, or nothing was sent yet. -/
structure Flow.Sendable (flow : Flow) (encoder : Encoder) : Prop where
  ranged : flow.Ranged
  fresh : flow.phase = .consecutiveOut ∨ flow.remaining = flow.total ∧
    (flow.phase = .singleOut → flow.total ≤ encoder.singleCapacity)

theorem toNat_sequenceAfter (count : Nat) : (sequenceAfter count).toNat ≤ 15 := by
  have small : ∀ n, n < 16 → n.toUInt8.toNat ≤ 15 := by decide
  exact small _ (Nat.mod_lt _ (by decide))

theorem checkedNextSequence_eq {sequence : UInt8} (bound : sequence.toNat ≤ 15) :
    checkedNextSequence sequence = .ok (nextSequence sequence) := by
  have fits : sequence.toNat + (1 : UInt8).toNat ≤ 0xFF := by
    show sequence.toNat + 1 ≤ 0xFF
    omega
  unfold checkedNextSequence
  rw [Checked.addByte_eq fits]
  rfl

theorem Flow.Ranged.empty : ({} : Flow).Ranged :=
  ⟨le_rfl, Nat.zero_le _, by simp⟩

theorem Flow.Ranged.checkedOffset_eq (ranged : flow.Ranged) :
    flow.checkedOffset = .ok flow.offset :=
  Checked.sub_eq ranged.remaining

theorem Flow.checkedCollect_eq (ranged : flow.Ranged) (data : List UInt8) :
    flow.checkedCollect data = .ok (flow.collect data) := by
  have slice := Checked.slice_eq (Nat.zero_le _) (Nat.min_le_right flow.remaining data.length)
  unfold checkedCollect collect
  simp only [ranged.checkedOffset_eq, slice, Checked.sub_eq (Nat.min_le_left _ _),
    checkedNextSequence_eq ranged.sequence, Buffer.checkedWrite_eq, Checked.ok_bind,
    List.drop_zero]
  cases flow.buffer <;> rfl

/-- A flow in the middle of a message is within its bounds. -/
theorem Sent.ranged {message : List UInt8} {emitted : List Frame}
    (sent : Sent encoder message emitted flow) : flow.Ranged := by
  refine ⟨sent.remaining.trans sent.total.ge, ?_, ?_⟩
  · rw [sent.sequence]
    exact toNat_sequenceAfter _
  · intro buffer held
    rw [sent.buffer] at held
    cases held
    exact sent.total.symm

theorem Collecting.ranged {settings : Settings} {length : Nat} {first : List UInt8}
    {arrived : List (UInt8 × List UInt8)}
    (collecting : Collecting settings length first arrived flow) : flow.Ranged := by
  have received := collecting.received
  refine ⟨?_, ?_, ?_⟩
  · rw [collecting.total]
    omega
  · rw [collecting.sequence]
    exact toNat_sequenceAfter _
  · intro buffer held
    obtain ⟨rest, whole, left⟩ := collecting.buffer
    rw [whole] at held
    cases held
    show (assembled first arrived ++ rest).length = flow.total
    rw [List.length_append, collecting.total, left]
    exact received

/-- Whatever frame is next, building it has a result. -/
theorem Encoder.checkedNextFrame_eq [Machine] (sendable : flow.Sendable encoder) :
    encoder.checkedNextFrame flow = .ok (encoder.nextFrame? flow) := by
  obtain ⟨ranged, fresh⟩ := sendable
  unfold checkedNextFrame nextFrame?
  rw [ranged.checkedOffset_eq, Checked.ok_bind]
  cases held : flow.buffer with
  | none => rfl
  | some buffer =>
    have size := ranged.buffer buffer held
    simp only [Option.bind_eq_bind, Option.bind_some]
    cases phase : flow.phase with
    | singleOut =>
      obtain ⟨whole, fits⟩ := fresh.resolve_left (by rw [phase]; decide)
      obtain ⟨frame, single, checked⟩ := checkedSingle_eq (size.le.trans (fits phase))
      have enough : buffer.size ≤ flow.remaining := by omega
      simp only [single, checked, Checked.ok_bind, Checked.sub_eq enough, Option.bind_some]
      rfl
    | firstOut =>
      have whole := (fresh.resolve_left (by rw [phase]; decide)).1
      have enough : (encoder.first flow.total buffer.bytes).2 ≤ flow.remaining := by
        have carried : (encoder.first flow.total buffer.bytes).2 ≤ buffer.size :=
          Nat.min_le_left _ _
        omega
      simp only [checkedFirst_eq, Checked.ok_bind, Checked.sub_eq enough]
      rfl
    | consecutiveOut =>
      have offset : flow.offset + flow.remaining = flow.total := by
        have bound := ranged.remaining
        unfold Flow.offset
        omega
      have inside : ¬buffer.size < flow.offset := by omega
      have enough : (encoder.consecutive flow.sequence (buffer.bytes.drop flow.offset)).2 ≤
          flow.remaining := by
        have carried : (encoder.consecutive flow.sequence (buffer.bytes.drop flow.offset)).2 ≤
            (buffer.bytes.drop flow.offset).length := Nat.min_le_left _ _
        rw [List.length_drop] at carried
        have length : buffer.bytes.length = flow.total := size
        omega
      simp only [if_neg inside, checkedConsecutive_eq, Checked.ok_bind,
        checkedNextSequence_eq ranged.sequence, Checked.sub_eq enough, guard,
        if_pos (Nat.le_of_not_lt inside)]
      rfl
    | _ => rfl

/-- A flow with more left than its message has stops the program. -/
example [Machine] : Encoder.checkedNextFrame ⟨.standard 0, false, false, 0⟩
    { phase := .consecutiveOut, buffer := some ⟨[1]⟩, total := 1, remaining := 2 } =
      .error .overflow := rfl

end

end DiagBus
