import ToInet.Lib.Bytes

-- The server name of a ClientHello, as packets.c of byedpi changes it.
namespace ToInet.Byedpi.Packets

open ToInet.Lib

def antohs (data : Bytes) (i : Nat) : Nat := (data.getD i 0).toNat * 256 + (data.getD (i + 1) 0).toNat

-- The bytes from i on become those of data, as far as the buffer goes.
def overwrite (buffer : Bytes) (i : Nat) (data : Bytes) : Bytes :=
  (buffer.take i ++ data ++ buffer.drop (i + data.length)).take buffer.length

def shtona (buffer : Bytes) (i : Nat) (x : Int) : Bytes := overwrite buffer i (beBytes 2 x)

-- The extensions are looked through with as many steps as there are bytes.
def findTlsExt (type : Nat) (data : Bytes) (size : Nat) : Nat → Nat → Nat
  | 0, _ => 0
  | fuel + 1, skip =>
      if skip + 4 < size then
        if type = antohs data skip then skip
        else findTlsExt type data size fuel (skip + (antohs data (skip + 2) + 4))
      else 0

def findTlsExtOffset (type : Nat) (data : Bytes) (skip : Nat) : Nat :=
  if data.length ≤ skip + 2 then 0
  else
    let size := min data.length (antohs data skip + (skip + 2))
    findTlsExt type data size data.length (skip + 2)

def chelloExtOffset (type : Nat) (data : Bytes) : Nat :=
  let sidLen := (data.getD 43 0).toNat
  if data.length < 44 ∨ data.length < 44 + sidLen + 2 then 0
  else findTlsExtOffset type data (44 + sidLen + 2 + antohs data (44 + sidLen) + 2)

-- The result -1, or what C leaves undefined: a name that ends behind its buffer, of which a negative number of bytes
-- would be moved.
inductive SniError where
  | refused
  | undefined
deriving DecidableEq

-- The buffer, and what has been written behind its end, which is undefined too unless it is nothing.
structure SniChange where
  buffer : Bytes
  behind : Bytes
deriving DecidableEq

-- The name is written where the old one stood, and all behind the old one is moved, so that a longer name pushes it
-- over the end of the buffer.
def changeTlsSni (host buffer : Bytes) : Except SniError SniChange :=
  let sni := chelloExtOffset 0x00 buffer
  let pad := chelloExtOffset 0x15 buffer
  let oldSz : Int := ((antohs buffer (sni + 2) : Int) - 5) % 2 ^ 16
  let freeSz : Int := antohs buffer (pad + 2)
  let newSz : Int := host.length % 2 ^ 16
  let diff := newSz - oldSz
  if sni = 0 ∨ pad = 0 ∨ freeSz ≠ (buffer.length : Int) - pad - 4 ∨ freeSz < diff then .error .refused
  else if (buffer.length : Int) < sni + 9 + oldSz ∨ (buffer.length : Int) < sni + 9 + newSz then .error .undefined
  else
    let lengths := shtona (shtona (shtona (shtona buffer (sni + 2) (oldSz + diff + 5)) (sni + 4) (oldSz + diff + 3))
      (sni + 7) (oldSz + diff)) (pad + 2) (freeSz - diff)
    let others := lengths.drop (sni + 9 + oldSz.toNat)
    let moved := overwrite lengths (sni + 9 + newSz.toNat) others
    .ok { buffer := overwrite moved (sni + 9) (host.take newSz.toNat)
          behind := others.drop (buffer.length - (sni + 9 + newSz.toNat)) }

-- The name is changed once more. What is written behind the buffer covers what has been written there before.
def SniChange.change (last : SniChange) (host : Bytes) : Except SniError SniChange :=
  (changeTlsSni host last.buffer).map fun next =>
    { next with behind := next.behind ++ last.behind.drop next.behind.length }

end ToInet.Byedpi.Packets
