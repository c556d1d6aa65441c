import ToInet.Lib.Bytes

namespace ToInet.Lib

-- A stream cipher adds its key stream from the current position on. Encryption
-- and decryption are the same operation.
def xorStream (keystream : Nat → UInt8) : Nat → Bytes → Bytes
  | _, [] => []
  | pos, b :: rest => (b ^^^ keystream pos) :: xorStream keystream (pos + 1) rest

variable (keystream : Nat → UInt8)

@[simp] theorem length_xorStream (pos : Nat) (data : Bytes) :
    (xorStream keystream pos data).length = data.length := by
  induction data generalizing pos with
  | nil => rfl
  | cons b rest ih => simp [xorStream, ih]

theorem xorStream_append (pos : Nat) (data more : Bytes) :
    xorStream keystream pos (data ++ more) =
      xorStream keystream pos data ++ xorStream keystream (pos + data.length) more := by
  induction data generalizing pos with
  | nil => rfl
  | cons b rest ih =>
      simp only [List.cons_append, xorStream, ih, List.length_cons]
      rw [Nat.add_right_comm, Nat.add_assoc]

theorem drop_xorStream (pos n : Nat) (data : Bytes) :
    (xorStream keystream pos data).drop n = xorStream keystream (pos + n) (data.drop n) := by
  induction data generalizing pos n with
  | nil => simp [xorStream]
  | cons b rest ih =>
      cases n with
      | zero => rfl
      | succ n =>
          rw [xorStream, List.drop_succ_cons, List.drop_succ_cons, ih]
          rw [Nat.add_right_comm, Nat.add_assoc]

@[simp] theorem xorStream_involutive (pos : Nat) (data : Bytes) :
    xorStream keystream pos (xorStream keystream pos data) = data := by
  induction data generalizing pos with
  | nil => rfl
  | cons b rest ih => rw [xorStream, xorStream, ih, UInt8.xor_assoc, UInt8.xor_self, UInt8.xor_zero]

-- Encrypts consecutive packets, each at its place in the stream.
def xorPackets : Nat → List Bytes → List Bytes
  | _, [] => []
  | pos, p :: ps => xorStream keystream pos p :: xorPackets (pos + p.length) ps

end ToInet.Lib
