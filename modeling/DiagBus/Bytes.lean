namespace DiagBus

/-- The low `width` bytes of a number, the most significant first. -/
def bigEndian : (width : Nat) → (value : Nat) → List UInt8
  | 0, _ => []
  | width + 1, value => (value >>> (8 * width)).toUInt8 :: bigEndian width value

/-- The number that bytes spell, the most significant first. -/
def ofBigEndian (bytes : List UInt8) : Nat :=
  bytes.foldl (fun value byte => value * 256 + byte.toNat) 0

theorem length_bigEndian (width value : Nat) : (bigEndian width value).length = width := by
  induction width with
  | zero => rfl
  | succ width ih => simp only [bigEndian, List.length_cons, ih]

end DiagBus
