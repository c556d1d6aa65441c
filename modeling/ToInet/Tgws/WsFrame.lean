import ToInet.Lib.Stream
import ToInet.Lib.WebSocket

namespace ToInet.Tgws

open ToInet.Lib ToInet.Lib.WebSocket

-- The array that is written to out, for the mask that SecureRandom chose.
def sendWsFrame (mask : Mask) (data : Bytes) (opcode : Nat) : Bytes :=
  let size := data.length
  let length :=
    if size ≤ 125 then [toByte (size ||| 0x80 : Nat)]
    else if size ≤ 65535 then
      [toByte (126 ||| 0x80 : Nat), toByte (size >>> 8 : Nat), toByte (size &&& 0xFF : Nat)]
    else toByte (127 ||| 0x80 : Nat) :: beBytes 8 size
  let maskedData := data.mapIdx fun i b => b ^^^ mask.val.getD (i % 4) 0
  toByte (0x80 ||| opcode : Nat) :: length ++ mask.val ++ maskedData

-- None for an end of the stream before the buffer is full.
def readFully (input : Input) (size : Nat) : Option (Bytes × Input) := Input.fillLoop size size input []

-- How a call ends without data: null, or an exception for a negative array size.
inductive Stop where
  | null
  | exception
deriving DecidableEq, Repr

def orNull {α : Type} (value : Option α) : Except Stop α := value.elim (.error .null) .ok

@[simp] theorem orNull_some {α : Type} (a : α) : orNull (some a) = .ok a := rfl

@[simp] theorem ok_bind {α β : Type} (a : α) (next : α → Except Stop β) :
    ((Except.ok a : Except Stop α) >>= next) = next a := rfl

theorem orNull_eq_ok {α : Type} {value : Option α} {a : α} (h : orNull value = .ok a) :
    value = some a := by
  cases value with
  | none => cases h
  | some b => exact congrArg some (Except.ok.inj h)

theorem bind_eq_ok {α β : Type} {first : Except Stop α} {next : α → Except Stop β} {b : β}
    (h : first >>= next = .ok b) : ∃ a, first = .ok a ∧ next a = .ok b := by
  cases first with
  | error stop => cases h
  | ok a => exact ⟨a, rfl, h⟩

def shiftInByte (len : BitVec 64) (b : UInt8) : BitVec 64 := len <<< 8 ||| b.toBitVec.setWidth 64

def readLength (len : Nat) (input : Input) : Except Stop (BitVec 64 × Input) :=
  if len = 126 then do
    let (ext, input) ← orNull (readFully input 2)
    let value ← orNull (u16At ext 0)
    return (BitVec.ofNat 64 value, input)
  else if len = 127 then do
    let (ext, input) ← orNull (readFully input 8)
    return (ext.foldl shiftInByte 0, input)
  else return (BitVec.ofNat 64 len, input)

-- The part of the loop of readWsFrame that reads one frame: its opcode and data.
def readFrame (input : Input) : Except Stop (Nat × Bytes × Input) := do
  let (b0, input) ← orNull input.readByte
  let (b1, input) ← orNull input.readByte
  let opcode := b0 &&& 0x0F
  let (len, input) ← readLength (b1 &&& 0x7F) input
  -- len.toInt() keeps the low 32 bits.
  let size := (len.setWidth 32).toInt
  if size < 0 then throw .exception
  let (data, input) ← orNull (readFully input size.toNat)
  return (opcode, data, input)

inductive FrameAction where
  | close
  | sendPong
  | skip
  | deliver
deriving DecidableEq, Repr

def frameAction (opcode : Nat) : FrameAction :=
  if opcode = 0x08 then .close
  else if opcode = 0x09 then .sendPong
  else if opcode = 0x0A then .skip
  else if opcode = 0x01 ∨ opcode = 0x02 then .deliver
  else .skip

-- The data of the pongs sent on the way and the outcome, with the input that
-- remains. The fuel bounds the number of frames.
def readWsFrame : Nat → Input → List Bytes × Option (Except Stop (Bytes × Input))
  | 0, _ => ([], none)
  | fuel + 1, input =>
      match readFrame input with
      | .error stop => ([], some (.error stop))
      | .ok (opcode, data, input) =>
          match frameAction opcode with
          | .close => ([], some (.error .null))
          | .sendPong =>
              let (sent, result) := readWsFrame fuel input
              (data :: sent, result)
          | .skip => readWsFrame fuel input
          | .deliver => ([], some (.ok (data, input)))

structure Reading where
  returned : List Bytes
  pongs : List Bytes
  stop : Stop
deriving DecidableEq, Repr

-- Calls readWsFrame until it returns no data, as the reader of bridgeWs does.
def readWsFrames (frames : Nat) : Nat → Input → Option Reading
  | 0, _ => none
  | fuel + 1, input =>
      match readWsFrame frames input with
      | (_, none) => none
      | (pongs, some (.error stop)) => some { returned := [], pongs, stop }
      | (pongs, some (.ok (data, input))) => do
          let later ← readWsFrames frames fuel input
          return { later with returned := data :: later.returned, pongs := pongs ++ later.pongs }

end ToInet.Tgws
