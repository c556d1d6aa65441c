import ToInet.Lib.Ctr
import ToInet.Lib.MachineInt

namespace ToInet.Tgws

open ToInet.Lib

-- AES in counter mode: the key stream of a key and an initial counter block.
abbrev AesCtr := Bytes → Bytes → Nat → UInt8

structure Cipher where
  keystream : Nat → UInt8
  pos : Nat

def Cipher.update (dec : Cipher) (input : Bytes) : Bytes × Cipher :=
  (xorStream dec.keystream dec.pos input, { dec with pos := dec.pos + input.length })

-- sliceArray of an array and subList of a list; both throw beyond the end.
def slice (data : Bytes) (start stop : Nat) : Option Bytes :=
  if stop ≤ data.length then some ((data.take stop).drop start) else none

def clearPrefix (data : Bytes) (count : Nat) : Option Bytes :=
  if count ≤ data.length then some (data.drop count) else none

structure MsgSplitter where
  protoInt : Int
  dec : Cipher
  cipherBuf : Bytes
  plainBuf : Bytes
  disabled : Bool

def abridgedTag : Int := toInt32 0xEFEFEFEF
def intermediateTag : Int := toInt32 0xEEEEEEEE
def paddedTag : Int := toInt32 0xDDDDDDDD

namespace MsgSplitter

def create (aesCtr : AesCtr) (relayInit : Bytes) (protoInt : Int) : Option MsgSplitter := do
  let key ← slice relayInit 8 40
  let iv ← slice relayInit 40 56
  let dec : Cipher := { keystream := aesCtr key iv, pos := 0 }
  let (_, dec) := dec.update (List.replicate 64 0)
  return { protoInt, dec, cipherBuf := [], plainBuf := [], disabled := false }

-- How both framings end: null until the whole packet is there, zero when the length
-- is malformed. The sum with the header length can overflow.
def wholeLen (avail payloadLen headerLen : Nat) : Option Int :=
  if payloadLen ≤ 0 then some 0
  else
    let packetLen := toInt32 (headerLen + payloadLen)
    if (avail : Int) < packetLen then none else some packetLen

-- The outer Option is the exception of an index out of bounds, the inner one the
-- source's null.
def nextAbridgedLen (plainBuf : Bytes) (offset avail : Nat) : Option (Option Int) := do
  let first ← byteAt plainBuf offset
  if first = 0x7F ∨ first = 0xFF then
    if avail < 4 then return none
    let b1 ← byteAt plainBuf (offset + 1)
    let b2 ← byteAt plainBuf (offset + 2)
    let b3 ← byteAt plainBuf (offset + 3)
    return wholeLen avail ((b1 ||| b2 <<< 8 ||| b3 <<< 16) * 4) 4
  else
    return wholeLen avail ((first &&& 0x7F) * 4) 1

-- The mask clears the sign bit, so that the length itself is never negative.
def nextIntermediateLen (plainBuf : Bytes) (offset avail : Nat) : Option (Option Int) := do
  if avail < 4 then return none
  let b0 ← byteAt plainBuf offset
  let b1 ← byteAt plainBuf (offset + 1)
  let b2 ← byteAt plainBuf (offset + 2)
  let b3 ← byteAt plainBuf (offset + 3)
  return wholeLen avail ((b0 ||| b1 <<< 8 ||| b2 <<< 16 ||| b3 <<< 24) &&& 0x7FFFFFFF) 4

def nextPacketLen (protoInt : Int) (plainBuf : Bytes) (offset avail : Nat) : Option (Option Int) :=
  if avail ≤ 0 then some none
  else if protoInt = abridgedTag then nextAbridgedLen plainBuf offset avail
  else if protoInt = intermediateTag ∨ protoInt = paddedTag then
    nextIntermediateLen plainBuf offset avail
  else some (some 0)

-- The loop of split: the parts, the final offset and whether it disabled the
-- splitter. It gives none when it throws or runs out of fuel.
def splitLoop (protoInt : Int) (cipherBuf plainBuf : Bytes) :
    Nat → Nat → Option (List Bytes × Nat × Bool)
  | 0, _ => none
  | fuel + 1, offset =>
      let bufLen := cipherBuf.length
      if offset < bufLen then do
        match ← nextPacketLen protoInt plainBuf offset (bufLen - offset) with
        | none => return ([], offset, false)
        | some packetLen =>
            if packetLen ≤ 0 then
              let part ← slice cipherBuf offset bufLen
              return ([part], bufLen, true)
            else
              let next := offset + packetLen.toNat
              let part ← slice cipherBuf offset next
              let (parts, last, disabled) ← splitLoop protoInt cipherBuf plainBuf fuel next
              return (part :: parts, last, disabled)
      else return ([], offset, false)

def split (splitter : MsgSplitter) (chunk : Bytes) : Option (List Bytes × MsgSplitter) :=
  if chunk = [] then some ([], splitter)
  else if splitter.disabled then some ([chunk], splitter)
  else do
    let (plainBytes, dec) := splitter.dec.update chunk
    let cipherBuf := splitter.cipherBuf ++ chunk
    let plainBuf := splitter.plainBuf ++ plainBytes
    let (parts, offset, disabled) ←
      splitLoop splitter.protoInt cipherBuf plainBuf (cipherBuf.length + 1) 0
    let cipherBuf ← clearPrefix cipherBuf offset
    let plainBuf ← clearPrefix plainBuf offset
    return (parts, { splitter with dec, cipherBuf, plainBuf, disabled })

def flush (splitter : MsgSplitter) : List Bytes × MsgSplitter :=
  if splitter.cipherBuf = [] then ([], splitter)
  else ([splitter.cipherBuf], { splitter with cipherBuf := [], plainBuf := [] })

inductive Call where
  | split (chunk : Bytes)
  | flush
deriving DecidableEq, Repr

def Call.input : Call → Bytes
  | .split chunk => chunk
  | .flush => []

def call (splitter : MsgSplitter) : Call → Option (List Bytes × MsgSplitter)
  | .split chunk => splitter.split chunk
  | .flush => some splitter.flush

-- What each of the calls returns, and the splitter they leave.
def run (splitter : MsgSplitter) : List Call → Option (List (List Bytes) × MsgSplitter)
  | [] => some ([], splitter)
  | c :: calls => do
      let (parts, next) ← splitter.call c
      let (returned, last) ← next.run calls
      return (parts :: returned, last)

end MsgSplitter

end ToInet.Tgws
