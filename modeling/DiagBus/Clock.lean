namespace DiagBus

/-- A reading of the clock, or a span of time, in milliseconds modulo 2^32. -/
abbrev Tick := UInt32

/-- Whether `time` lies before `limit`. For instants less than half the range of the clock apart
the answer does not depend on where the clock wraps. -/
def Tick.before (time limit : Tick) : Bool :=
  time - limit > 0x7FFFFFFF

/-- The instant `delay` after `start`, around the end of the clock if need be. -/
def Tick.after (start delay : Tick) : Tick :=
  start + delay

/-- Only differences of instants matter, so moving both by the same span changes nothing. -/
theorem Tick.before_shift (time limit span : Tick) :
    (time + span).before (limit + span) = time.before limit := by
  have same : time + span - (limit + span) = time - limit := by grind
  unfold Tick.before
  rw [same]

theorem Tick.after_shift (start delay offset : Tick) :
    (start + offset).after delay = start.after delay + offset := by
  unfold Tick.after
  grind

end DiagBus
