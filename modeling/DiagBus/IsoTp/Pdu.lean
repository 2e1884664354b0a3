import DiagBus.Bytes
import DiagBus.Clock

namespace DiagBus

/-- What a receiver answers to a first frame or at the end of a block. -/
inductive FlowStatus
  | continueToSend
  | wait
  | overflow
  | reserved (nibble : UInt8)
  deriving DecidableEq

def FlowStatus.ofByte (byte : UInt8) : FlowStatus :=
  if byte = 0 then .continueToSend
  else if byte = 1 then .wait
  else if byte = 2 then .overflow
  else .reserved byte

def FlowStatus.toByte : FlowStatus → UInt8
  | .continueToSend => 0
  | .wait => 1
  | .overflow => 2
  | .reserved nibble => nibble

theorem FlowStatus.toByte_ofByte (byte : UInt8) : (FlowStatus.ofByte byte).toByte = byte := by
  unfold FlowStatus.ofByte
  split
  · simp_all [FlowStatus.toByte]
  split
  · simp_all [FlowStatus.toByte]
  split
  · simp_all [FlowStatus.toByte]
  · rfl

/-- A protocol data unit. The data of a first or consecutive frame run to the end of the frame and
may include padding. -/
inductive Pdu
  /-- A whole message. -/
  | single (message : List UInt8)
  /-- The start of a message of `length` bytes. -/
  | first (length : Nat) (data : List UInt8)
  /-- A later part of a message, with a sequence number of four bits. -/
  | consecutive (sequence : UInt8) (data : List UInt8)
  /-- The receiver's answer: its status, the frames per block and the separation time byte. -/
  | flowControl (status : FlowStatus) (blockSize separation : UInt8)
  deriving DecidableEq

/-- The upper four bits. -/
def highNibble (byte : UInt8) : Nat :=
  byte.toNat / 16

/-- The lower four bits. -/
def lowNibble (byte : UInt8) : Nat :=
  byte.toNat % 16

/-- The first `count` bytes, if there are that many. -/
def takeExactly? (count : Nat) (bytes : List UInt8) : Option (List UInt8) :=
  if count ≤ bytes.length then some (bytes.take count) else none

/-- A whole message behind its length. The length follows in a byte of its own if the nibble is 0,
which only frames of more than 8 bytes may do. -/
def Pdu.decodeSingle (nibble : Nat) (rest : List UInt8) : Option Pdu :=
  if 0 < nibble then (takeExactly? nibble rest).map .single
  else
    match rest with
    | length :: rest =>
      if 7 ≤ rest.length ∧ 0 < length.toNat then (takeExactly? length.toNat rest).map .single
      else none
    | [] => none

/-- The start of a message behind its length of 12 bits, or of 32 bits if those are all 0. -/
def Pdu.decodeFirst (nibble : Nat) (rest : List UInt8) : Option Pdu :=
  match rest with
  | low :: rest =>
    let length := nibble * 256 + low.toNat
    if 0 < length then some (.first length rest)
    else (takeExactly? 4 rest).map fun bytes => .first (ofBigEndian bytes) (rest.drop 4)
  | [] => none

/-- Reads a payload; malformed ones are no unit. -/
def Pdu.decode (payload : List UInt8) : Option Pdu :=
  match payload with
  | [] => none
  | control :: rest =>
    match highNibble control with
    | 0 => Pdu.decodeSingle (lowNibble control) rest
    | 1 => Pdu.decodeFirst (lowNibble control) rest
    | 2 => some (.consecutive (lowNibble control).toUInt8 rest)
    | 3 =>
      match rest with
      | blockSize :: separation :: _ =>
        some (.flowControl (.ofByte (lowNibble control).toUInt8) blockSize separation)
      | _ => none
    | _ => none

/-- Whether a payload starts like flow control, be it complete or not. -/
def isFlowControl (payload : List UInt8) : Bool :=
  payload.head?.any fun control => highNibble control = 3

/-- The milliseconds a separation time byte stands for. Times below a millisecond count as one;
reserved values ask for no delay. -/
def separationTime (byte : UInt8) : Tick :=
  if byte ≤ 0x7F then byte.toUInt32
  else if 0xF1 ≤ byte ∧ byte ≤ 0xF9 then 1
  else 0

end DiagBus
