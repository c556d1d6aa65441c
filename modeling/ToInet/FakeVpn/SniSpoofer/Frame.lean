import ToInet.FakeVpn.ClientHello
import ToInet.FakeVpn.SniSpoofer

namespace ToInet.FakeVpn

open ToInet.Lib

theorem replaceDomain_append (head old tail newDomainBytes : Bytes) (sni : SniOffsets)
    (ho : sni.oldDomainOffset = head.length) (hl : sni.oldDomainLen = old.length) :
    replaceDomain (head ++ old ++ tail) newDomainBytes sni = some (head ++ newDomainBytes ++ tail) := by
  have hsize : ((head ++ old ++ tail).length : Int) + (newDomainBytes.length - sni.oldDomainLen) =
      (head.length + newDomainBytes.length + tail.length : Nat) := by
    simp only [List.length_append, hl]
    omega
  have hcount : ((head ++ old ++ tail).length : Int) - (sni.oldDomainOffset + sni.oldDomainLen) =
      tail.length := by
    simp only [List.length_append, ho, hl]
    omega
  have h₁ := arraycopy_append [] head (old ++ tail) [] (List.replicate head.length 0)
    (List.replicate newDomainBytes.length 0 ++ List.replicate tail.length 0) (by simp)
  have h₂ := arraycopy_append [] newDomainBytes [] head (List.replicate newDomainBytes.length 0)
    (List.replicate tail.length 0) (by simp)
  have h₃ := arraycopy_append (head ++ old) tail [] (head ++ newDomainBytes)
    (List.replicate tail.length 0) [] (by simp)
  simp only [List.nil_append, List.append_nil, List.append_assoc, List.length_nil,
    List.length_append] at h₁ h₂ h₃
  simp only [replaceDomain, hsize, hcount, if_neg (Int.not_lt.mpr (Int.natCast_nonneg _))]
  simp only [ho, hl, Int.toNat_natCast, List.replicate_add, List.append_assoc, h₁, h₂, h₃,
    Option.bind_eq_bind, Option.bind_some]

-- A message as the six length fields that a new host name changes, the name, and what lies between.
structure Frame where
  start : Bytes
  kind : Bytes
  middle : Bytes
  before : Bytes
  entryType : Bytes
  tail : Bytes
  start_length : start.length = 3
  kind_length : kind.length = 1
  before_length : 2 ≤ before.length
  entryType_length : entryType.length = 1

namespace Frame

variable (frame : Frame)

def extLenOffset : Nat := 9 + frame.middle.length

def sniExtOffset : Nat := frame.extLenOffset + frame.before.length

def sniOffsets (oldDomainLen : Nat) : SniOffsets where
  sniExtOffset := frame.sniExtOffset
  sniListLenOffset := frame.sniExtOffset + 4
  sniNameLenOffset := frame.sniExtOffset + 7
  oldDomainOffset := frame.sniExtOffset + 9
  oldDomainLen

-- Up to the extensions, and up to the host name.
def head (lengths : Lengths) : Bytes :=
  frame.start ++ beBytes 2 lengths.record ++ frame.kind ++ beBytes 3 lengths.handshake ++ frame.middle ++
    beBytes 2 lengths.extensions

def front (lengths : Lengths) : Bytes :=
  frame.head lengths ++ frame.before ++ beBytes 2 lengths.extension ++ beBytes 2 lengths.list ++ frame.entryType ++
    beBytes 2 lengths.name

def layout (lengths : Lengths) (hostName : Bytes) : Bytes := frame.front lengths ++ hostName ++ frame.tail

variable (lengths : Lengths) (hostName : Bytes)

theorem length_head : (frame.head lengths).length = frame.extLenOffset + 2 := by
  simp [head, frame.start_length, frame.kind_length, extLenOffset]
  omega

theorem length_front : (frame.front lengths).length = frame.sniExtOffset + 9 := by
  simp [front, length_head, frame.entryType_length, sniExtOffset]
  omega

theorem storesAt_record : StoresAt (fun n => frame.layout { lengths with record := n } hostName) 3 2 :=
  ⟨frame.start, _, frame.start_length, fun n => by simp only [layout, front, head, List.append_assoc]; rfl⟩

theorem storesAt_handshake : StoresAt (fun n => frame.layout { lengths with handshake := n } hostName) 6 3 :=
  ⟨frame.start ++ beBytes 2 lengths.record ++ frame.kind, _, by simp [frame.start_length, frame.kind_length],
    fun n => by
    simp only [layout, front, head, List.append_assoc]; rfl⟩

theorem storesAt_extensions :
    StoresAt (fun n => frame.layout { lengths with extensions := n } hostName) frame.extLenOffset 2 :=
  ⟨frame.start ++ beBytes 2 lengths.record ++ frame.kind ++ beBytes 3 lengths.handshake ++ frame.middle, _,
    by simp [frame.start_length, frame.kind_length, extLenOffset]; omega, fun n => by
      simp only [layout, front, head, List.append_assoc]; rfl⟩

theorem storesAt_extension :
    StoresAt (fun n => frame.layout { lengths with extension := n } hostName) (frame.sniExtOffset + 2) 2 :=
  ⟨frame.head lengths ++ frame.before, _, by simp [length_head, sniExtOffset]; omega, fun n => by
    simp only [layout, front, head, List.append_assoc]; rfl⟩

theorem storesAt_list : StoresAt (fun n => frame.layout { lengths with list := n } hostName)
    (frame.sniExtOffset + 4) 2 :=
  ⟨frame.head lengths ++ frame.before ++ beBytes 2 lengths.extension, _, by simp [length_head, sniExtOffset]; omega,
    fun n => by simp only [layout, front, head, List.append_assoc]; rfl⟩

theorem storesAt_name : StoresAt (fun n => frame.layout { lengths with name := n } hostName)
    (frame.sniExtOffset + 7) 2 :=
  ⟨frame.head lengths ++ frame.before ++ beBytes 2 lengths.extension ++ beBytes 2 lengths.list ++ frame.entryType, _,
    by simp [length_head, sniExtOffset, frame.entryType_length]; omega, fun n => by
      simp only [layout, front, head, List.append_assoc]; rfl⟩

theorem updateLengths_layout (old new : Bytes) (delta : Int) (h0 : lengths.Nonneg) (hf : lengths.Fits) :
    updateLengths (frame.layout lengths old) (frame.layout lengths new) frame.extLenOffset
        lengths.extensions.toNat (frame.sniOffsets lengths.name.toNat) delta =
      some (frame.layout (lengths.shift delta) new) := by
  obtain ⟨hname0, hlist0, hextension0, hextensions0, hhandshake0, hrecord0⟩ := h0
  obtain ⟨hname, hlist, hextension, hextensions, hhandshake, hrecord⟩ := hf
  have hreadList := (frame.storesAt_list lengths old).read lengths.list hlist0 hlist
  have hreadExtension :=
    (frame.storesAt_extension lengths old).read lengths.extension hextension0 hextension
  have hreadHandshake :=
    (frame.storesAt_handshake lengths old).read lengths.handshake hhandshake0 hhandshake
  have hreadRecord := (frame.storesAt_record lengths old).read lengths.record hrecord0 hrecord
  have hwriteName := (frame.storesAt_name lengths new).write lengths.name (lengths.name + delta)
  have hwriteList := (frame.storesAt_list { lengths with name := lengths.name + delta } new).write
    lengths.list (lengths.list + delta)
  have hwriteExtension := (frame.storesAt_extension
    { lengths with name := lengths.name + delta, list := lengths.list + delta } new).write
    lengths.extension (lengths.extension + delta)
  have hwriteExtensions := (frame.storesAt_extensions
    { lengths with
      name := lengths.name + delta
      list := lengths.list + delta
      extension := lengths.extension + delta } new).write
    lengths.extensions (lengths.extensions + delta)
  have hwriteHandshake := (frame.storesAt_handshake
    { lengths.shift delta with handshake := lengths.handshake, record := lengths.record } new).write
    lengths.handshake (lengths.handshake + delta)
  have hwriteRecord := (frame.storesAt_record
    { lengths.shift delta with record := lengths.record } new).write
    lengths.record (lengths.record + delta)
  simp only [Lengths.shift] at hwriteHandshake hwriteRecord
  simp only [updateLengths, updateLength, sniOffsets, u16At_eq_fieldAt, u24At_eq_fieldAt,
    Int.toNat_of_nonneg, hname0, hlist0, hextension0, hextensions0, hhandshake0, hrecord0,
    hreadList, hreadExtension, hreadHandshake, hreadRecord, hwriteName, hwriteList,
    hwriteExtension, hwriteExtensions, hwriteHandshake, hwriteRecord,
    Option.bind_eq_bind, Option.bind_some, Lengths.shift]

-- The six enclosing lengths move by the change of the name's length; the bytes around them keep
-- their values and their order.
theorem spoofSni_layout {old : Bytes} (newDomain : String) (h0 : lengths.Nonneg) (hf : lengths.Fits)
    (hname : lengths.name = old.length)
    (hloc : locateSni (frame.layout lengths old) =
      some (frame.extLenOffset, lengths.extensions.toNat, frame.sniOffsets old.length)) :
    spoofSni (frame.layout lengths old) newDomain =
      some (frame.layout (lengths.shift ((toByteArray newDomain).length - old.length)) (toByteArray newDomain)) := by
  have hcopy := replaceDomain_append (frame.front lengths) old frame.tail (toByteArray newDomain)
    (frame.sniOffsets old.length) (frame.length_front lengths).symm rfl
  have hupdate := frame.updateLengths_layout lengths old (toByteArray newDomain)
    ((toByteArray newDomain).length - old.length) h0 hf
  rw [hname, Int.toNat_natCast] at hupdate
  rw [spoofSni, hloc]
  simp only [Option.bind_eq_bind, Option.bind_some]
  rw [layout, hcopy, Option.bind_some]
  exact hupdate

-- Bytes that no length field and no name holds.
def Kept (i : Nat) : Prop :=
  i < 3 ∨ i = 5 ∨ (9 ≤ i ∧ i < frame.extLenOffset) ∨
    (frame.extLenOffset + 2 ≤ i ∧ i < frame.sniExtOffset + 2) ∨ i = frame.sniExtOffset + 6

variable {frame} in
theorem byteAt_kept {i : Nat} (h : frame.Kept i) :
    ∃ v, ∀ lengths hostName, byteAt (frame.layout lengths hostName) i = v := by
  obtain hstart | rfl | ⟨hlow, hhigh⟩ | ⟨hlow, hhigh⟩ | rfl := h
  · exact ⟨_, fun lengths hostName => byteAt_part []
      (by simp only [layout, front, head, List.append_assoc, List.nil_append]; rfl) (Nat.zero_le _)
      (by simpa [frame.start_length] using hstart)⟩
  · refine ⟨byteAt frame.kind 0, fun lengths hostName => ?_⟩
    have hfront : (frame.start ++ beBytes 2 lengths.record).length = 5 := by simp [frame.start_length]
    have hpart := @byteAt_part (frame.layout lengths hostName) frame.kind _ 5 (frame.start ++ beBytes 2 lengths.record)
      (by simp only [layout, front, head, List.append_assoc]; rfl) hfront.le (by rw [hfront, frame.kind_length]; omega)
    rwa [hfront] at hpart
  · refine ⟨byteAt frame.middle (i - 9), fun lengths hostName => ?_⟩
    have hfront :
        (frame.start ++ beBytes 2 lengths.record ++ frame.kind ++ beBytes 3 lengths.handshake).length = 9 := by
      simp [frame.start_length, frame.kind_length]
    have hpart := @byteAt_part (frame.layout lengths hostName) frame.middle _ i
      (frame.start ++ beBytes 2 lengths.record ++ frame.kind ++ beBytes 3 lengths.handshake)
      (by simp only [layout, front, head, List.append_assoc]; rfl) (by omega)
      (by rw [hfront]; exact hhigh)
    rwa [hfront] at hpart
  · refine ⟨byteAt frame.before (i - (frame.extLenOffset + 2)), fun lengths hostName => ?_⟩
    have hpart := @byteAt_part (frame.layout lengths hostName) frame.before _ i (frame.head lengths)
      (by simp only [layout, front, List.append_assoc]; rfl) (by rw [length_head]; omega)
      (by rw [length_head]; unfold sniExtOffset at hhigh; omega)
    rwa [length_head] at hpart
  · refine ⟨byteAt frame.entryType 0, fun lengths hostName => ?_⟩
    have hfront : (frame.head lengths ++ frame.before ++ beBytes 2 lengths.extension ++ beBytes 2 lengths.list).length =
        frame.sniExtOffset + 6 := by
      simp [length_head, sniExtOffset]
      omega
    have hpart := @byteAt_part (frame.layout lengths hostName) frame.entryType _ (frame.sniExtOffset + 6)
      (frame.head lengths ++ frame.before ++ beBytes 2 lengths.extension ++ beBytes 2 lengths.list)
      (by simp only [layout, front, List.append_assoc]; rfl) hfront.le
      (by rw [hfront, frame.entryType_length]; omega)
    rwa [hfront, Nat.sub_self] at hpart

variable {frame} in
theorem byteAt_eq {i : Nat} (h : frame.Kept i) (lengths other : Lengths) (hostName otherName : Bytes) :
    byteAt (frame.layout other otherName) i = byteAt (frame.layout lengths hostName) i := by
  obtain ⟨v, hv⟩ := byteAt_kept h
  rw [hv, hv]

variable {frame} in
theorem u16At_eq {i : Nat} (h : frame.Kept i) (hnext : frame.Kept (i + 1)) (lengths other : Lengths)
    (hostName otherName : Bytes) :
    u16At (frame.layout other otherName) i = u16At (frame.layout lengths hostName) i := by
  rw [u16At, u16At, byteAt_eq h lengths other hostName otherName, byteAt_eq hnext lengths other hostName otherName]

-- The numbers that the fields keep of any numbers.
theorem layout_wrap : frame.layout lengths.wrap hostName = frame.layout lengths hostName := by
  simp only [layout, front, head, Lengths.wrap, beBytes_emod]

theorem layout_wrap_shift (delta : Int) :
    frame.layout (lengths.wrap.shift delta) hostName = frame.layout (lengths.shift delta) hostName := by
  simp only [layout, front, head, Lengths.wrap, Lengths.shift, beBytes_emod_add]

-- Any message with room for its fields has this form.
theorem exists_of_length (bytes : Bytes) {extLenOffset sniExtOffset oldDomainLen : Nat} (hext : 9 ≤ extLenOffset)
    (hsni : extLenOffset + 2 ≤ sniExtOffset) (hend : sniExtOffset + 9 + oldDomainLen ≤ bytes.length) :
    ∃ (frame : Frame) (lengths : Lengths),
      bytes = frame.layout lengths ((bytes.drop (sniExtOffset + 9)).take oldDomainLen) ∧ lengths.Nonneg ∧
        lengths.Fits ∧ frame.extLenOffset = extLenOffset ∧ frame.sniExtOffset = sniExtOffset := by
  have hlength {i width : Nat} (h : i + width ≤ bytes.length) : ((bytes.drop i).take width).length = width := by
    rw [List.length_take, List.length_drop]
    omega
  have hfield (i width : Nat) (h : i + width ≤ bytes.length) : beNat ((bytes.drop i).take width) < 256 ^ width := by
    have hlt := beNat_lt ((bytes.drop i).take width)
    rwa [hlength h] at hlt
  have hrecord := hfield 3 2 (by omega)
  have hhandshake := hfield 6 3 (by omega)
  have hextensions := hfield extLenOffset 2 (by omega)
  have hextension := hfield (sniExtOffset + 2) 2 (by omega)
  have hlist := hfield (sniExtOffset + 4) 2 (by omega)
  have hname := hfield (sniExtOffset + 7) 2 (by omega)
  have hjoin (i n j : Nat) (h : i + n = j) : (bytes.drop i).take n ++ bytes.drop j = bytes.drop i := by
    rw [← h, slice_append_drop]
  refine ⟨⟨bytes.take 3, (bytes.drop 5).take 1, (bytes.drop 9).take (extLenOffset - 9),
      (bytes.drop (extLenOffset + 2)).take (sniExtOffset - extLenOffset), (bytes.drop (sniExtOffset + 6)).take 1,
      bytes.drop (sniExtOffset + 9 + oldDomainLen), hlength (i := 0) (by omega), hlength (by omega),
      by rw [hlength (by omega)]; omega, hlength (by omega)⟩,
    ⟨beNat ((bytes.drop (sniExtOffset + 7)).take 2), beNat ((bytes.drop (sniExtOffset + 4)).take 2),
      beNat ((bytes.drop (sniExtOffset + 2)).take 2), beNat ((bytes.drop extLenOffset).take 2),
      beNat ((bytes.drop 6).take 3), beNat ((bytes.drop 3).take 2)⟩, ?_, ?_, ?_, ?_, ?_⟩
  · simp only [layout, front, head, List.append_assoc]
    rw [beBytes_slice (by omega), beBytes_slice (by omega), beBytes_slice (by omega), beBytes_slice (by omega),
      beBytes_slice (by omega), beBytes_slice (by omega), hjoin (sniExtOffset + 9) _ _ rfl,
      hjoin (sniExtOffset + 7) 2 _ rfl, hjoin (sniExtOffset + 6) 1 _ rfl, hjoin (sniExtOffset + 4) 2 _ rfl,
      hjoin (sniExtOffset + 2) 2 _ rfl, hjoin (extLenOffset + 2) _ (sniExtOffset + 2) (by omega),
      hjoin extLenOffset 2 _ rfl, hjoin 9 _ extLenOffset (by omega), hjoin 6 3 9 rfl, hjoin 5 1 6 rfl,
      hjoin 3 2 5 rfl, List.take_append_drop]
  · simp only [Lengths.Nonneg]
    omega
  · simp only [Lengths.Fits]
    omega
  · simp only [Frame.extLenOffset]
    rw [hlength (by omega)]
    omega
  · simp only [Frame.sniExtOffset, Frame.extLenOffset]
    rw [hlength (by omega), hlength (by omega)]
    omega

end Frame

end ToInet.FakeVpn
