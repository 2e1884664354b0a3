import Mathlib
import DiagBus.IsoTp.Segmentation

namespace DiagBus

/-- Bytes cut into pieces of `size`; only the last one may be shorter. -/
def pieces (size : Nat) (bytes : List UInt8) : List (List UInt8) :=
  if size = 0 ∨ bytes = [] then []
  else bytes.take size :: pieces size (bytes.drop size)
termination_by bytes.length
decreasing_by
  rename_i some
  have filled := List.length_pos_iff.mpr (not_or.mp some).2
  simp only [List.length_drop]
  omega

theorem pieces_cons {size : Nat} {bytes : List UInt8} (positive : 0 < size) (some : bytes ≠ []) :
    pieces size bytes = bytes.take size :: pieces size (bytes.drop size) := by
  rw [pieces, if_neg]
  rintro (zero | empty)
  · omega
  · exact some empty

theorem pieces_nil (size : Nat) : pieces size [] = [] := by
  rw [pieces, if_pos (Or.inr rfl)]

/-- Nothing is lost and nothing is repeated. -/
theorem flatten_pieces {size : Nat} (positive : 0 < size) (bytes : List UInt8) :
    (pieces size bytes).flatten = bytes := by
  by_cases empty : bytes = []
  · rw [empty, pieces_nil, List.flatten_nil]
  · have filled := List.length_pos_iff.mpr empty
    rw [pieces_cons positive empty, List.flatten_cons, flatten_pieces positive, List.take_append_drop]
termination_by bytes.length
decreasing_by
  simp only [List.length_drop]
  omega

/-- Every piece is full but the last, and no piece is empty. -/
theorem length_pieces {size : Nat} (positive : 0 < size) (bytes : List UInt8) :
    (∀ piece ∈ (pieces size bytes).dropLast, piece.length = size) ∧
      ∀ piece ∈ pieces size bytes, 0 < piece.length ∧ piece.length ≤ size := by
  by_cases empty : bytes = []
  · simp [empty, pieces_nil]
  · have filled := List.length_pos_iff.mpr empty
    obtain ⟨full, bounds⟩ := length_pieces positive (bytes.drop size)
    rw [pieces_cons positive empty]
    refine ⟨?_, ?_⟩
    · intro piece member
      by_cases last : bytes.drop size = []
      · simp [last, pieces_nil] at member
      · rw [List.dropLast_cons_of_ne_nil (by simp [pieces_cons positive last])] at member
        rcases List.mem_cons.mp member with rfl | later
        · have longer := List.length_pos_iff.mpr last
          simp only [List.length_drop] at longer
          simp only [List.length_take]
          omega
        · exact full piece later
    · intro piece member
      rcases List.mem_cons.mp member with rfl | later
      · simp only [List.length_take]
        omega
      · exact bounds piece later
termination_by bytes.length
decreasing_by
  simp only [List.length_drop]
  omega

/-- The control bytes of the frame of a whole message. -/
def singleHeader (length : Nat) : List UInt8 :=
  if length ≤ 7 then [length.toUInt8] else [0, length.toUInt8]

/-- The consecutive frames of these bytes; sequence numbers count modulo 16. -/
def Encoder.consecutives (encoder : Encoder) (number : Nat) (bytes : List UInt8) : List Frame :=
  (pieces (encoder.frameSize - 1) bytes).mapIdx fun i piece =>
    encoder.frame ((0x20 + (number + i) % 16).toUInt8 :: piece)

/-- How many bytes of a message its first frame has room for. -/
def Encoder.firstRoom (encoder : Encoder) (length : Nat) : Nat :=
  encoder.frameSize - (firstHeader length).length

/-- The frames of a message: a single frame if one has room for all of it, and else a first frame
that announces its length, followed by consecutive frames numbered from 1 on. -/
def Encoder.segmentation (encoder : Encoder) (message : List UInt8) : List Frame :=
  if message.length ≤ encoder.singleCapacity then
    [encoder.frame (singleHeader message.length ++ message)]
  else
    encoder.frame (firstHeader message.length ++ message.take (encoder.firstRoom message.length)) ::
      encoder.consecutives 1 (message.drop (encoder.firstRoom message.length))

theorem Encoder.frameSize_bounds (encoder : Encoder) :
    8 ≤ encoder.frameSize ∧ encoder.frameSize ≤ 64 := by
  unfold Encoder.frameSize
  split <;> omega

theorem Encoder.consecutives_cons (encoder : Encoder) (number : Nat) {bytes : List UInt8}
    (some : bytes ≠ []) :
    encoder.consecutives number bytes =
      encoder.frame ((0x20 + number % 16).toUInt8 :: bytes.take (encoder.frameSize - 1)) ::
        encoder.consecutives (number + 1) (bytes.drop (encoder.frameSize - 1)) := by
  have size := encoder.frameSize_bounds
  unfold Encoder.consecutives
  have shift : (fun i (piece : List UInt8) =>
      encoder.frame ((0x20 + (number + (i + 1)) % 16).toUInt8 :: piece)) =
      fun i piece => encoder.frame ((0x20 + (number + 1 + i) % 16).toUInt8 :: piece) := by
    funext i piece
    rw [Nat.add_comm i 1, Nat.add_assoc]
  rw [pieces_cons (by omega) some, List.mapIdx_cons, shift]
  rfl

theorem Encoder.consecutives_nil (encoder : Encoder) (number : Nat) :
    encoder.consecutives number [] = [] := by
  simp [Encoder.consecutives, pieces_nil]

theorem length_firstHeader (length : Nat) :
    2 ≤ (firstHeader length).length ∧ (firstHeader length).length ≤ 6 := by
  unfold firstHeader
  split <;> simp [length_bigEndian]

/-- A message too long for one frame is also longer than what its first frame carries. -/
theorem Encoder.firstRoom_lt (encoder : Encoder) {length : Nat}
    (long : encoder.singleCapacity < length) :
    0 < encoder.firstRoom length ∧ encoder.firstRoom length < length := by
  have header := length_firstHeader length
  unfold Encoder.singleCapacity at long
  unfold Encoder.firstRoom
  have size := encoder.frameSize_bounds
  split at long <;> omega

/-- The sequence number that the frame after `count` frames carries. -/
def sequenceAfter (count : Nat) : UInt8 :=
  (count % 16).toUInt8

theorem nextSequence_sequenceAfter (count : Nat) :
    nextSequence (sequenceAfter count) = sequenceAfter (count + 1) := by
  have small : ∀ n, n < 16 → nextSequence n.toUInt8 = ((n + 1) % 16).toUInt8 := by decide
  unfold sequenceAfter
  rw [small _ (Nat.mod_lt _ (by decide)), Nat.mod_add_mod]

theorem control_sequenceAfter (count : Nat) :
    0x20 ||| (sequenceAfter count &&& 0x0F) = (0x20 + count % 16).toUInt8 := by
  have small : ∀ n, n < 16 → (0x20 : UInt8) ||| (n.toUInt8 &&& 0x0F) = (0x20 + n).toUInt8 := by
    decide
  exact small _ (Nat.mod_lt _ (by decide))

/-- A sending flow that has handed over the frames `emitted`: what it still has to send are the
other frames of the message. -/
structure Sent (encoder : Encoder) (message : List UInt8) (emitted : List Frame) (flow : Flow) :
    Prop where
  buffer : flow.buffer = some ⟨message⟩
  total : flow.total = message.length
  remaining : flow.remaining ≤ message.length
  frames : emitted ++ encoder.consecutives emitted.length (message.drop flow.offset) =
    encoder.segmentation message
  sequence : flow.sequence = sequenceAfter emitted.length

theorem Sent.offset_add_remaining {encoder : Encoder} {message : List UInt8} {emitted : List Frame}
    {flow : Flow} (sent : Sent encoder message emitted flow) :
    flow.offset + flow.remaining = message.length := by
  have bound := sent.remaining
  unfold Flow.offset
  rw [sent.total]
  omega

/-- When no byte is left, all frames were handed over. -/
theorem Sent.complete {encoder : Encoder} {message : List UInt8} {emitted : List Frame}
    {flow : Flow} (sent : Sent encoder message emitted flow) (done : flow.remaining = 0) :
    emitted = encoder.segmentation message := by
  have whole := sent.offset_add_remaining
  have frames := sent.frames
  rw [List.drop_of_length_le (by omega), Encoder.consecutives_nil, List.append_nil] at frames
  exact frames

/-- The next consecutive frame is the next frame of the message. -/
theorem Sent.nextFrame {encoder : Encoder} {message : List UInt8} {emitted : List Frame}
    {flow : Flow} (sent : Sent encoder message emitted flow) (phase : flow.phase = .consecutiveOut)
    (left : 0 < flow.remaining) :
    ∃ frame, encoder.nextFrame? flow = some (frame, { flow with
        remaining := flow.remaining - (encoder.frameSize - 1)
        sequence := nextSequence flow.sequence }) ∧
      Sent encoder message (emitted ++ [frame]) { flow with
        remaining := flow.remaining - (encoder.frameSize - 1)
        sequence := nextSequence flow.sequence } := by
  have whole := sent.offset_add_remaining
  have size := encoder.frameSize_bounds
  have unsent : message.length - flow.offset = flow.remaining := by omega
  have rest_length : (message.drop flow.offset).length = flow.remaining :=
    List.length_drop.trans unsent
  have some_left : message.drop flow.offset ≠ [] := by
    rw [← List.length_pos_iff, rest_length]
    exact left
  have count : flow.remaining - min flow.remaining (encoder.frameSize - 1) =
      flow.remaining - (encoder.frameSize - 1) := by omega
  have carried : (message.drop flow.offset).take (min flow.remaining (encoder.frameSize - 1)) =
      (message.drop flow.offset).take (encoder.frameSize - 1) := by
    rw [List.take_eq_take_iff, rest_length]
    omega
  refine ⟨encoder.frame ((0x20 + emitted.length % 16).toUInt8 ::
    (message.drop flow.offset).take (encoder.frameSize - 1)), ?_, ?_⟩
  · have inside : flow.offset ≤ Buffer.size ⟨message⟩ := by
      show flow.offset ≤ message.length
      omega
    unfold Encoder.nextFrame?
    rw [sent.buffer]
    simp [phase, inside, Encoder.consecutive, unsent, count, carried, sent.sequence,
      control_sequenceAfter]
  · refine ⟨sent.buffer, sent.total, ?_, ?_, ?_⟩
    · exact (Nat.sub_le _ _).trans sent.remaining
    · have onward : (message.drop flow.offset).drop (encoder.frameSize - 1) =
          message.drop (flow.total - (flow.remaining - (encoder.frameSize - 1))) := by
        rw [List.drop_drop]
        by_cases last : flow.remaining ≤ encoder.frameSize - 1
        · rw [List.drop_of_length_le (by omega), List.drop_of_length_le (by rw [sent.total]; omega)]
        · have here : flow.offset + (encoder.frameSize - 1) =
              flow.total - (flow.remaining - (encoder.frameSize - 1)) := by
            rw [sent.total]
            omega
          rw [here]
      rw [List.append_assoc, List.length_append, List.length_singleton, List.singleton_append]
      show emitted ++ _ :: encoder.consecutives _
        (message.drop (flow.total - (flow.remaining - (encoder.frameSize - 1)))) = _
      rw [← onward, ← encoder.consecutives_cons _ some_left]
      exact sent.frames
    · show nextSequence flow.sequence = _
      rw [sent.sequence, nextSequence_sequenceAfter, List.length_append, List.length_singleton]

/-- A flow that starts with a message that one frame carries. -/
theorem Sent.single {encoder : Encoder} {message : List UInt8} {flow : Flow}
    (short : message.length ≤ encoder.singleCapacity) (phase : flow.phase = .singleOut)
    (buffer : flow.buffer = some ⟨message⟩) (total : flow.total = message.length)
    (remaining : flow.remaining = message.length) (sequence : flow.sequence = 1) :
    ∃ frame, encoder.nextFrame? flow = some (frame, { flow with remaining := 0 }) ∧
      Sent encoder message [frame] { flow with remaining := 0 } := by
  have capacity : encoder.singleCapacity ≤ 62 ∧ encoder.singleCapacity ≠ 0 := by
    unfold Encoder.singleCapacity Encoder.frameSize
    split <;> decide
  have carried : encoder.single? message =
      some (encoder.frame (singleHeader message.length ++ message)) := by
    unfold Encoder.single? singleHeader
    split
    · rfl
    · rw [if_pos (short.trans capacity.1)]
      rfl
  refine ⟨encoder.frame (singleHeader message.length ++ message), ?_, buffer, total,
    Nat.zero_le _, ?_, ?_⟩
  · unfold Encoder.nextFrame?
    rw [buffer]
    simp [phase, carried, remaining, Buffer.size]
  · have none_left : message.drop (flow.total - 0) = [] :=
      List.drop_of_length_le (by rw [total, Nat.sub_zero])
    show [_] ++ encoder.consecutives _ (message.drop (flow.total - 0)) = _
    rw [none_left, Encoder.consecutives_nil, Encoder.segmentation, if_pos short]
    rfl
  · exact sequence

/-- A flow that starts with a message that needs more than one frame. -/
theorem Sent.first {encoder : Encoder} {message : List UInt8} {flow : Flow}
    (long : encoder.singleCapacity < message.length) (phase : flow.phase = .firstOut)
    (buffer : flow.buffer = some ⟨message⟩) (total : flow.total = message.length)
    (remaining : flow.remaining = message.length) (sequence : flow.sequence = 1) :
    ∃ frame, encoder.nextFrame? flow = some (frame, { flow with
        remaining := flow.remaining - encoder.firstRoom message.length }) ∧
      Sent encoder message [frame] { flow with
        remaining := flow.remaining - encoder.firstRoom message.length } := by
  have room := encoder.firstRoom_lt long
  have count : min message.length (encoder.firstRoom message.length) =
      encoder.firstRoom message.length := by omega
  refine ⟨encoder.frame (firstHeader message.length ++
    message.take (encoder.firstRoom message.length)), ?_, buffer, total, ?_, ?_, ?_⟩
  · unfold Encoder.nextFrame? Encoder.first
    rw [buffer]
    simp only [Encoder.firstRoom] at count
    simp [phase, total, count, Encoder.firstRoom]
  · show flow.remaining - _ ≤ _
    omega
  · have here : flow.total - (flow.remaining - encoder.firstRoom message.length) =
        encoder.firstRoom message.length := by omega
    show [_] ++ encoder.consecutives _
      (message.drop (flow.total - (flow.remaining - encoder.firstRoom message.length))) = _
    rw [here, Encoder.segmentation, if_neg (by omega)]
    rfl
  · exact sequence

end DiagBus
