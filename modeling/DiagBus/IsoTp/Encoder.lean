import DiagBus.Frame
import DiagBus.IsoTp.Pdu

namespace DiagBus

/-- How the frames of a connection look. -/
structure Encoder where
  id : CanId
  /-- Whether they are flexible data-rate frames. -/
  flexible : Bool
  /-- The bit rate switch of such frames. -/
  fast : Bool
  /-- Fills the unused bytes. -/
  padding : UInt8

/-- The longest message length that the 12 bits of a first frame hold. -/
def shortLengthLimit : Nat := 0xFFF

/-- The room in a frame. -/
def Encoder.frameSize (encoder : Encoder) : Nat :=
  if encoder.flexible then 64 else 8

/-- The longest message that one frame carries. -/
def Encoder.singleCapacity (encoder : Encoder) : Nat :=
  encoder.frameSize - if encoder.flexible then 2 else 1

/-- The longest message whose length a first frame can announce. -/
def Encoder.messageLimit (encoder : Encoder) : Nat :=
  if encoder.flexible then 0xFFFFFFFF else shortLengthLimit

/-- The frame of these bytes. A flexible data-rate frame takes the next length of at least 8, a
classic one always 8; the bytes behind the given ones are padding. -/
def Encoder.frame (encoder : Encoder) (bytes : List UInt8) : Frame :=
  if encoder.flexible then
    .flexible encoder.id
      ⟨flexibleLength (max bytes.length 8), Nat.lt_succ_of_le (flexibleLength_le _)⟩
      encoder.fast (paddedTo 64 encoder.padding bytes)
  else .classic encoder.id 8 (paddedTo 8 encoder.padding bytes)

/-- The frame of a whole message. Behind 7 bytes the length takes a byte of its own, and behind 62
no frame has room. -/
def Encoder.single? (encoder : Encoder) (message : List UInt8) : Option Frame :=
  if message.length ≤ 7 then some (encoder.frame (message.length.toUInt8 :: message))
  else if message.length ≤ 62 then some (encoder.frame (0 :: message.length.toUInt8 :: message))
  else none

/-- The control bytes of a first frame: the length in 12 bits, or in 32 bits if it needs them. -/
def firstHeader (length : Nat) : List UInt8 :=
  if length ≤ shortLengthLimit then [0x10 ||| (length / 256).toUInt8, length.toUInt8]
  else 0x10 :: 0 :: bigEndian 4 length

/-- The first frame of a message of `length` bytes, and how many bytes of `data` it carries. -/
def Encoder.first (encoder : Encoder) (length : Nat) (data : List UInt8) : Frame × Nat :=
  let header := firstHeader length
  let count := min data.length (encoder.frameSize - header.length)
  (encoder.frame (header ++ data.take count), count)

/-- A consecutive frame, and how many bytes of `data` it carries. -/
def Encoder.consecutive (encoder : Encoder) (sequence : UInt8) (data : List UInt8) : Frame × Nat :=
  let count := min data.length (encoder.frameSize - 1)
  (encoder.frame ((0x20 ||| (sequence &&& 0x0F)) :: data.take count), count)

/-- A flow control frame; of the status its lower four bits. -/
def Encoder.flowControl (encoder : Encoder) (status : FlowStatus) (blockSize separation : UInt8) :
    Frame :=
  encoder.frame [0x30 ||| (status.toByte &&& 0x0F), blockSize, separation]

end DiagBus
