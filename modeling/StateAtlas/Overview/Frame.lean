/-!
Frames: pieces of a stream of bytes, each behind its length.

The length takes four bytes, the highest first, and is bounded, so that a peer cannot ask for room
without end.  `Frame.split` takes the complete frames off the front of a stream and keeps the rest
until more bytes have come.
-/

namespace StateAtlas.Frame

/-- How many bytes a frame can have. -/
def maxLength : Nat := 8 * 1024 * 1024

/-- How many bytes the length of a frame takes. -/
def headerLength : Nat := 4

/-- The bytes of a number below `256 ^ width`, the highest first. -/
def bigEndian : Nat → Nat → List UInt8
  | 0, _ => []
  | width + 1, n => bigEndian width (n / 256) ++ [UInt8.ofNat (n % 256)]

/-- The number that bytes are, the highest first. -/
def ofBigEndian (bs : List UInt8) : Nat := bs.foldl (fun n b => n * 256 + b.toNat) 0

@[simp] theorem length_bigEndian (width n : Nat) : (bigEndian width n).length = width := by
  induction width generalizing n with
  | zero => rfl
  | succ width ih => simp [bigEndian, ih]

theorem ofBigEndian_bigEndian (width n : Nat) (h : n < Nat.pow 256 width) :
    ofBigEndian (bigEndian width n) = n := by
  induction width generalizing n with
  | zero => simp at h; simp [bigEndian, ofBigEndian, h]
  | succ width ih =>
    have hn : n / 256 < Nat.pow 256 width := by
      rw [Nat.pow_eq, Nat.pow_succ, Nat.mul_comm] at h
      exact Nat.div_lt_of_lt_mul h
    have hlast : (UInt8.ofNat (n % 256)).toNat = n % 256 := by simp
    have hfirst := ih _ hn
    rw [ofBigEndian] at hfirst
    rw [ofBigEndian, bigEndian, List.foldl_append, hfirst, List.foldl_cons, List.foldl_nil, hlast]
    omega

/-- A frame as it stands in the stream. -/
def encode (body : List UInt8) : List UInt8 := bigEndian headerLength body.length ++ body

/-- What a stream holds. -/
structure Split where
  /-- The complete frames, in order. -/
  frames : List (List UInt8)
  /-- What follows them. -/
  rest : List UInt8
  /-- Whether the rest asks for a frame that is too long. -/
  isBroken : Bool
deriving DecidableEq, Repr

/-- The complete frames of a stream. -/
def split (bs : List UInt8) : Split :=
  if bs.length < headerLength then ⟨[], bs, false⟩
  else
    let length := ofBigEndian (bs.take headerLength)
    if maxLength < length then ⟨[], bs, true⟩
    else
      let body := bs.drop headerLength
      if body.length < length then ⟨[], bs, false⟩
      else
        let later := split (body.drop length)
        { later with frames := body.take length :: later.frames }
termination_by bs.length
decreasing_by
  simp only [List.length_drop, headerLength] at *
  omega

/-- Whether a stream can end with what is left of it.  A length is taken in at once, so a stream may
end right behind one. -/
def canEnd (rest : List UInt8) : Bool := rest.isEmpty || rest.length = headerLength

end StateAtlas.Frame
