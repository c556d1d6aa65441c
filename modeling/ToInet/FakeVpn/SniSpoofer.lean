import ToInet.Lib.Bytes

namespace ToInet.FakeVpn

open ToInet.Lib

-- Offsets found by the walk over the extensions, under the source's names.
structure SniOffsets where
  sniExtOffset : Nat
  sniListLenOffset : Nat
  sniNameLenOffset : Nat
  oldDomainOffset : Nat
  oldDomainLen : Nat
deriving DecidableEq, Repr

-- The body of the branch extType == 0x0000. Every way out that leaves
-- oldDomainOffset at -1 ends in null, as an index exception does.
def readServerName (clientHello : Bytes) (pos extDataLen : Nat) : Option SniOffsets :=
  let p := pos + 4
  if p + 2 ≤ pos + 4 + extDataLen then do
    let _listLen ← u16At clientHello p
    let p := p + 2
    if p + 3 ≤ pos + 4 + extDataLen then do
      let nameType ← byteAt clientHello p
      if nameType = 0 then do
        let oldDomainLen ← u16At clientHello (p + 1)
        return {
          sniExtOffset := pos
          sniListLenOffset := pos + 4
          sniNameLenOffset := p + 1
          oldDomainOffset := p + 3
          oldDomainLen }
      else none
    else none
  else none

-- The loop while (pos < extEnd). Each round moves pos by at least four, so
-- fuel extEnd - pos is never exhausted.
def findSni (clientHello : Bytes) (extEnd : Nat) : Nat → Nat → Option SniOffsets
  | 0, _ => none
  | fuel + 1, pos =>
      if pos < extEnd then
        if pos + 4 > extEnd then none
        else do
          let extType ← u16At clientHello pos
          let extDataLen ← u16At clientHello (pos + 2)
          if extType = 0 then readServerName clientHello pos extDataLen
          else findSni clientHello extEnd fuel (pos + 4 + extDataLen)
      else none

def returnNullIf (condition : Prop) [Decidable condition] : Option Unit :=
  if condition then none else some ()

@[simp] theorem returnNullIf_eq_some {condition : Prop} [Decidable condition] (u : Unit) :
    returnNullIf condition = some u ↔ ¬condition := by
  by_cases h : condition <;> simp [returnNullIf, h]

-- The checks in front of the loop: the offset of the extensions length and its value.
def extensionsAt (clientHello : Bytes) : Option (Nat × Nat) := do
  returnNullIf (clientHello.length < 43)
  returnNullIf ((← byteAt clientHello 0) ≠ 0x16)
  returnNullIf ((← byteAt clientHello 5) ≠ 0x01)
  let pos := 43
  let sessionIdLen ← byteAt clientHello pos
  let pos := pos + (1 + sessionIdLen)
  returnNullIf (pos + 2 > clientHello.length)
  let cipherSuitesLen ← u16At clientHello pos
  let pos := pos + (2 + cipherSuitesLen)
  returnNullIf (pos + 1 > clientHello.length)
  let compMethodsLen ← byteAt clientHello pos
  let pos := pos + (1 + compMethodsLen)
  returnNullIf (pos + 2 > clientHello.length)
  let extLen ← u16At clientHello pos
  returnNullIf (pos + 2 + extLen > clientHello.length)
  return (pos, extLen)

def locateSni (clientHello : Bytes) : Option (Nat × Nat × SniOffsets) := do
  let (extLenOffset, extLen) ← extensionsAt clientHello
  let pos := extLenOffset + 2
  let extEnd := pos + extLen
  let sni ← findSni clientHello extEnd (extEnd - pos) pos
  return (extLenOffset, extLen, sni)

def updateLength (out : Bytes) (offset oldLen : Nat) (delta : Int) (bytesCount : Nat) : Option Bytes :=
  overwrite out offset (beBytes bytesCount (oldLen + delta))

-- The three copies into the output array. A name that runs past the end of the
-- record gives the last copy a negative count.
def replaceDomain (clientHello newDomainBytes : Bytes) (sni : SniOffsets) : Option Bytes := do
  let delta : Int := newDomainBytes.length - sni.oldDomainLen
  let size : Int := clientHello.length + delta
  if size < 0 then none
  let out := List.replicate size.toNat 0
  let out ← arraycopy clientHello 0 out 0 sni.oldDomainOffset
  let out ← arraycopy newDomainBytes 0 out sni.oldDomainOffset newDomainBytes.length
  arraycopy clientHello (sni.oldDomainOffset + sni.oldDomainLen) out
    (sni.oldDomainOffset + newDomainBytes.length)
    (clientHello.length - (sni.oldDomainOffset + sni.oldDomainLen))

def updateLengths (clientHello out : Bytes) (extLenOffset extLen : Nat) (sni : SniOffsets)
    (delta : Int) : Option Bytes := do
  let out ← updateLength out sni.sniNameLenOffset sni.oldDomainLen delta 2
  let oldListLen ← u16At clientHello sni.sniListLenOffset
  let out ← updateLength out sni.sniListLenOffset oldListLen delta 2
  let oldExtDataLen ← u16At clientHello (sni.sniExtOffset + 2)
  let out ← updateLength out (sni.sniExtOffset + 2) oldExtDataLen delta 2
  let out ← updateLength out extLenOffset extLen delta 2
  let oldHsLen ← u24At clientHello 6
  let out ← updateLength out 6 oldHsLen delta 3
  let oldRecLen ← u16At clientHello 3
  updateLength out 3 oldRecLen delta 2

-- Every null of the source, returned or caught, is none here.
def spoofSni (clientHello : Bytes) (newDomain : String) : Option Bytes := do
  let (extLenOffset, extLen, sni) ← locateSni clientHello
  let newDomainBytes := toByteArray newDomain
  let out ← replaceDomain clientHello newDomainBytes sni
  updateLengths clientHello out extLenOffset extLen sni (newDomainBytes.length - sni.oldDomainLen)

end ToInet.FakeVpn
