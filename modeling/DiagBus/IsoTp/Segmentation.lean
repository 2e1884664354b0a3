import DiagBus.IsoTp.Encoder
import DiagBus.IsoTp.Flow

namespace DiagBus

/-- The next frame of a sending flow, and the flow without the bytes in it. -/
def Encoder.nextFrame? (encoder : Encoder) (flow : Flow) : Option (Frame × Flow) := do
  let buffer ← flow.buffer
  match flow.phase with
  | .singleOut =>
    let frame ← encoder.single? buffer.bytes
    return (frame, { flow with remaining := flow.remaining - buffer.size })
  | .firstOut =>
    let (frame, count) := encoder.first flow.total buffer.bytes
    return (frame, { flow with remaining := flow.remaining - count })
  | .consecutiveOut =>
    guard (flow.offset ≤ buffer.size)
    let (frame, count) := encoder.consecutive flow.sequence (buffer.bytes.drop flow.offset)
    return (frame, { flow with
      remaining := flow.remaining - count, sequence := nextSequence flow.sequence })
  | _ => none

end DiagBus
