namespace DiagBus

/-- A frame identifier of 11 or 29 bits. -/
inductive CanId
  | standard (value : Fin 0x800)
  | extended (value : Fin 0x20000000)
  deriving DecidableEq

-- The zero is written out, because with more of algebra imported another one would be found.
/-- A standard identifier can be written as a number. -/
instance (priority := high) CanId.standardNumeral : @NeZero Nat Zero.ofOfNat0 0x800 :=
  ⟨by decide⟩

/-- The standard identifier of this value, if 11 bits hold it. -/
def CanId.standard? (value : Nat) : Option CanId :=
  if h : value < 0x800 then some (.standard ⟨value, h⟩) else none

/-- The extended identifier of this value, if 29 bits hold it. -/
def CanId.extended? (value : Nat) : Option CanId :=
  if h : value < 0x20000000 then some (.extended ⟨value, h⟩) else none

def CanId.isExtended : CanId → Bool
  | .standard _ => false
  | .extended _ => true

/-- The payload lengths a frame can announce, by data length code. -/
def frameLengths : List Nat :=
  [0, 1, 2, 3, 4, 5, 6, 7, 8, 12, 16, 20, 24, 32, 48, 64]

/-- The payload length of a data length code; only its low four bits count. -/
def lengthOfCode (code : UInt8) : Nat :=
  frameLengths.getD (code.toNat % 16) 0

/-- The least data length code whose length covers `length`, and 15 beyond 64 bytes. -/
def codeOfLength (length : Nat) : UInt8 :=
  if length ≤ 8 then length.toUInt8
  else if length ≤ 12 then 9
  else if length ≤ 16 then 10
  else if length ≤ 20 then 11
  else if length ≤ 24 then 12
  else if length ≤ 32 then 13
  else if length ≤ 48 then 14
  else 15

/-- The next length a flexible data-rate frame can have. -/
def flexibleLength (length : Nat) : Nat :=
  lengthOfCode (codeOfLength length)

theorem lengthOfCode_le (code : UInt8) : lengthOfCode code ≤ 64 := by
  have bound : ∀ n, n < 16 → frameLengths.getD n 0 ≤ 64 := by decide
  exact bound _ (Nat.mod_lt _ (by decide))

theorem flexibleLength_le (length : Nat) : flexibleLength length ≤ 64 :=
  lengthOfCode_le _

/-- The first `size` bytes of `bytes` followed by as many `fill` bytes as needed. -/
def paddedTo (size : Nat) (fill : UInt8) (bytes : List UInt8) : Vector UInt8 size :=
  Vector.ofFn fun i => bytes.getD i fill

/-- A frame on the bus. The array is as large as the format allows; the payload is its first
`length` bytes, and what lies behind them is kept because two frames with different arrays differ. -/
inductive Frame
  /-- A classic frame of up to 8 bytes. -/
  | classic (id : CanId) (length : Fin 9) (bytes : Vector UInt8 8)
  /-- A flexible data-rate frame of up to 64 bytes; `fast` switches the bit rate for the data. -/
  | flexible (id : CanId) (length : Fin 65) (fast : Bool) (bytes : Vector UInt8 64)
  deriving DecidableEq

/-- The length of a classic frame can be written as a number. -/
instance (priority := high) Frame.lengthNumeral : @NeZero Nat Zero.ofOfNat0 9 :=
  ⟨by decide⟩

/-- The classic frame with this payload, if 8 bytes hold it. -/
def Frame.classic? (id : CanId) (payload : List UInt8) : Option Frame :=
  if h : payload.length < 9 then
    some (.classic id ⟨payload.length, h⟩ (paddedTo 8 0 payload))
  else none

/-- The flexible data-rate frame with this payload, if it has one of the lengths of such frames. -/
def Frame.flexible? (id : CanId) (payload : List UInt8) (fast : Bool) : Option Frame :=
  if h : payload.length < 65 then
    if flexibleLength payload.length = payload.length then
      some (.flexible id ⟨payload.length, h⟩ fast (paddedTo 64 0 payload))
    else none
  else none

def Frame.id : Frame → CanId
  | .classic id _ _ => id
  | .flexible id _ _ _ => id

/-- The number of payload bytes. -/
def Frame.length : Frame → Nat
  | .classic _ length _ => length
  | .flexible _ length _ _ => length

/-- All bytes of the frame's array, also those behind the payload. -/
def Frame.bytes : Frame → List UInt8
  | .classic _ _ bytes => bytes.toList
  | .flexible _ _ _ bytes => bytes.toList

def Frame.payload (frame : Frame) : List UInt8 :=
  frame.bytes.take frame.length

def Frame.isEmpty (frame : Frame) : Bool :=
  frame.length = 0

/-- The data length code. -/
def Frame.code (frame : Frame) : UInt8 :=
  codeOfLength frame.length

def Frame.isFlexible : Frame → Bool
  | .classic .. => false
  | .flexible .. => true

/-- The bit rate switch; a classic frame has none. -/
def Frame.fast? : Frame → Option Bool
  | .classic .. => none
  | .flexible _ _ fast _ => some fast

def Frame.isExtended (frame : Frame) : Bool :=
  frame.id.isExtended

/-- A frame as a classic controller passes it on: bytes of any number, or a remote request. -/
structure WireFrame where
  id : CanId
  bytes : List UInt8
  remote : Bool := false

/-- A frame taken over from a classic controller. Remote requests and payloads of more than
8 bytes have no counterpart. -/
def Frame.ofWire? (wire : WireFrame) : Option Frame :=
  if wire.remote then none else Frame.classic? wire.id wire.bytes

/-- A frame for a classic controller; flexible data-rate frames have no counterpart. -/
def Frame.toWire? : Frame → Option WireFrame
  | .classic id length bytes => some { id, bytes := bytes.toList.take length }
  | .flexible .. => none

theorem Frame.length_payload (frame : Frame) : frame.payload.length = frame.length := by
  cases frame with
  | classic id length bytes =>
    simp only [Frame.payload, Frame.bytes, Frame.length, List.length_take, Vector.length_toList]
    omega
  | flexible id length fast bytes =>
    simp only [Frame.payload, Frame.bytes, Frame.length, List.length_take, Vector.length_toList]
    omega

end DiagBus
