import ToInet.FakeVpn.SniSpoofer.Frame
import ToInet.FakeVpn.SniSpoofer.Marks

namespace ToInet.FakeVpn

open ToInet.Lib
open ToInet.Lib.TlsExtension (encodeAll encodeAll_cons length_encode)

namespace ClientHello

variable (hello : ClientHello) (lengths : Lengths) (hostName : Bytes)

-- Offset of the extensions length.
def extLenOffset : Nat := 43 + hello.parameters.length

def sniExtOffset : Nat := hello.extLenOffset + 2 + (encodeAll hello.before).length

-- The walk passes every extension in front of server_name.
omit lengths hostName in
theorem walks_encode (before : List TlsExtension) (htype : ∀ extension ∈ before, extension.type ≠ 0)
    (front rest : Bytes) :
    Walks (front ++ encodeAll before ++ rest) front.length
      (front.length + (encodeAll before).length) := by
  induction before generalizing front with
  | nil => exact .here _
  | cons extension before ih =>
      have hlen : (encodeAll (extension :: before)).length =
          4 + extension.data.length + (encodeAll before).length := by
        rw [encodeAll_cons, List.length_append, length_encode, Nat.add_comm extension.data.length]
      -- The step leaves the encoded extension behind as part of the front.
      have hstep := ih (fun e he => htype e (List.mem_cons_of_mem _ he))
        (front ++ beBytes 2 extension.type ++ beBytes 2 extension.data.length ++ extension.data)
      have ht : u16At (front ++ encodeAll (extension :: before) ++ rest) front.length =
          some extension.type := by
        rw [u16At_eq_fieldAt]
        exact fieldAt_of_eq _ (by rw [encodeAll_cons, TlsExtension.encode]; simp only [List.append_assoc]; rfl) rfl
          extension.type_lt
      have hl : u16At (front ++ encodeAll (extension :: before) ++ rest) (front.length + 2) =
          some extension.data.length := by
        rw [u16At_eq_fieldAt]
        exact fieldAt_of_eq (front ++ beBytes 2 extension.type)
          (by rw [encodeAll_cons, TlsExtension.encode]; simp only [List.append_assoc]; rfl) (by simp)
          extension.length_lt
      have ha : front ++ encodeAll (extension :: before) ++ rest =
          front ++ beBytes 2 extension.type ++ beBytes 2 extension.data.length ++
            extension.data ++ encodeAll before ++ rest := by
        rw [encodeAll_cons, TlsExtension.encode]
        simp only [List.append_assoc]
      have hpos : (front ++ beBytes 2 extension.type ++ beBytes 2 extension.data.length ++
          extension.data).length = front.length + 4 + extension.data.length := by
        simp only [List.length_append, length_beBytes]
      refine .step ht (htype extension (by simp)) hl ?_
      rw [hpos] at hstep
      rw [ha, hlen, ← Nat.add_assoc, ← Nat.add_assoc]
      exact hstep

end ClientHello

theorem replaceDomain_of_gt (clientHello newDomainBytes : Bytes) (sni : SniOffsets)
    (h : clientHello.length < sni.oldDomainOffset + sni.oldDomainLen) :
    replaceDomain clientHello newDomainBytes sni = none := by
  have hc : (clientHello.length : Int) - (sni.oldDomainOffset + sni.oldDomainLen) < 0 := by omega
  simp only [replaceDomain, arraycopy_negative _ _ _ _ _ hc, Option.bind_eq_bind]
  split_ifs <;> simp

namespace ClientHello

variable (hello : ClientHello) (lengths : Lengths) (hostName : Bytes)

def sniOffsets (oldDomainLen : Nat) : SniOffsets where
  sniExtOffset := hello.sniExtOffset
  sniListLenOffset := hello.sniExtOffset + 4
  sniNameLenOffset := hello.sniExtOffset + 7
  oldDomainOffset := hello.sniExtOffset + 9
  oldDomainLen

-- Everything in front of the server_name extension.
def front : Bytes :=
  hello.header lengths ++ hello.parameters ++ beBytes 2 lengths.extensions ++
    encodeAll hello.before

theorem length_front : (hello.front lengths).length = hello.sniExtOffset := by
  simp [front, length_header, sniExtOffset, extLenOffset]
  omega

def frame : Frame where
  start := [0x16] ++ hello.recordVersion
  kind := [0x01]
  middle := hello.versionAndRandom ++ hello.parameters
  before := encodeAll hello.before ++ beBytes 2 0
  entryType := [0]
  tail := hello.moreNames ++ encodeAll hello.after
  start_length := by simp [hello.recordVersion_length]
  kind_length := rfl
  before_length := by simp
  entryType_length := rfl

theorem layout_eq_frame : hello.layout lengths hostName = hello.frame.layout lengths hostName := by
  simp only [layout, header, sniHead, frame, Frame.layout, Frame.front, Frame.head, List.append_assoc]

theorem frame_extLenOffset : hello.frame.extLenOffset = hello.extLenOffset := by
  simp [Frame.extLenOffset, frame, extLenOffset, hello.versionAndRandom_length]
  omega

theorem frame_sniExtOffset : hello.frame.sniExtOffset = hello.sniExtOffset := by
  rw [Frame.sniExtOffset, frame_extLenOffset, sniExtOffset]
  simp [frame]
  omega

theorem frame_sniOffsets (oldDomainLen : Nat) : hello.frame.sniOffsets oldDomainLen =
    hello.sniOffsets oldDomainLen := by
  rw [Frame.sniOffsets, sniOffsets, frame_sniExtOffset]

theorem parametersEnd_layout : ParametersEnd (hello.layout lengths hostName) hello.extLenOffset := by
  have hh := hello.length_header lengths
  refine ⟨hello.sessionId.length, hello.cipherSuites.length, hello.compressionMethods.length, ?_, ?_, ?_, ?_⟩
  · exact byteAt_toByte_of_eq (hello.header lengths)
      (by simp only [layout, parameters, List.append_assoc, List.cons_append]; rfl) hh.symm hello.sessionId_lt
  · rw [u16At_eq_fieldAt]
    exact fieldAt_of_eq (hello.header lengths ++ (toByte hello.sessionId.length :: hello.sessionId))
      (by simp only [layout, parameters, List.append_assoc, List.cons_append]; rfl)
      (by simp [hh]; omega) hello.cipherSuites_lt
  · exact byteAt_toByte_of_eq
      (hello.header lengths ++ (toByte hello.sessionId.length :: hello.sessionId) ++
        (beBytes 2 hello.cipherSuites.length ++ hello.cipherSuites))
      (by simp only [layout, parameters, List.append_assoc, List.cons_append]; rfl)
      (by simp [hh]; omega) hello.compressionMethods_lt
  · rw [extLenOffset, hello.length_parameters]
    omega

def marks : Marks where
  extLenOffset := hello.extLenOffset
  extLen := lengths.extensions.toNat
  sniExtOffset := hello.sniExtOffset
  extDataLen := lengths.extension.toNat
  oldDomainLen := lengths.name.toNat

theorem marksOf_layout (h0 : lengths.Nonneg) (hf : lengths.Fits) :
    MarksOf (hello.layout lengths hostName) (hello.marks lengths) := by
  have hextensions := (hello.frame.storesAt_extensions lengths hostName).read lengths.extensions h0.2.2.2.1 hf.2.2.2.1
  have hextension := (hello.frame.storesAt_extension lengths hostName).read lengths.extension h0.2.2.1 hf.2.2.1
  have hname := (hello.frame.storesAt_name lengths hostName).read lengths.name h0.1 hf.1
  rw [← u16At_eq_fieldAt, ← layout_eq_frame, frame_extLenOffset] at hextensions
  rw [← u16At_eq_fieldAt, ← layout_eq_frame, frame_sniExtOffset] at hextension hname
  have hwalks := walks_encode hello.before hello.before_type
    (hello.header lengths ++ hello.parameters ++ beBytes 2 lengths.extensions)
    (sniHead lengths ++ hostName ++ hello.moreNames ++ encodeAll hello.after)
  have hfront : (hello.header lengths ++ hello.parameters ++ beBytes 2 lengths.extensions).length =
      hello.extLenOffset + 2 := by
    simp [length_header, extLenOffset]
    omega
  have htype : u16At (hello.layout lengths hostName) hello.sniExtOffset = some 0 := by
    rw [u16At_eq_fieldAt]
    exact fieldAt_of_eq (hello.front lengths) (by simp only [layout, front, sniHead, List.append_assoc]; rfl)
      (hello.length_front lengths).symm (by decide)
  have hnameType : byteAt (hello.layout lengths hostName) (hello.sniExtOffset + 6) = some 0 :=
    byteAt_of_eq (b := 0)
      (hello.front lengths ++ beBytes 2 0 ++ beBytes 2 lengths.extension ++ beBytes 2 lengths.list)
      (by simp only [layout, front, sniHead, List.append_assoc]; rfl) (by simp [length_front])
  have hwalks : Walks (hello.layout lengths hostName) (hello.extLenOffset + 2) hello.sniExtOffset := by
    rw [hfront] at hwalks
    simpa only [layout, List.append_assoc, sniExtOffset] using hwalks
  exact ⟨hello.parametersEnd_layout lengths hostName, hextensions, hwalks, htype, hextension, hnameType, hname⟩

omit lengths hostName in
theorem locateSni_encode (hf : hello.lengths.Fits) :
    locateSni hello.encode = some (hello.extLenOffset, hello.lengths.extensions.toNat,
      hello.sniOffsets hello.hostName.length) := by
  have h0 : byteAt hello.encode 0 = some 0x16 :=
    byteAt_of_eq (b := 0x16) [] (by simp only [encode, layout, header, List.append_assoc]; rfl) rfl
  have h5 : byteAt hello.encode 5 = some 0x01 :=
    byteAt_of_eq (b := 0x01) ([0x16] ++ hello.recordVersion ++ beBytes 2 hello.lengths.record)
      (by simp only [encode, layout, header, List.append_assoc]; rfl) (by simp [hello.recordVersion_length])
  have hname : hello.lengths.name.toNat = hello.hostName.length := by simp [lengths]
  have hlength := hello.length_layout hello.lengths hello.hostName
  have hextension : hello.lengths.extension.toNat = 5 + hello.hostName.length + hello.moreNames.length := by
    simp only [lengths]
    omega
  have hextensions : hello.lengths.extensions.toNat = (encodeAll hello.before).length + 9 +
      hello.hostName.length + hello.moreNames.length + (encodeAll hello.after).length := by
    simp only [lengths]
    omega
  rw [locateSni_of_marks h0 h5 (hello.marksOf_layout hello.lengths hello.hostName hello.lengths_nonneg hf), if_pos]
  · simp only [marks, Marks.sniOffsets, sniOffsets, hname]
  · simp only [marks, Marks.extEnd, encode, hlength, hextension, hextensions, sniExtOffset, extLenOffset]
    omega

end ClientHello

theorem spoofSni_encode (hello : ClientHello) (newDomain : String) (hf : hello.lengths.Fits) :
    spoofSni hello.encode newDomain =
      some (hello.layout
        (hello.lengths.shift ((toByteArray newDomain).length - hello.hostName.length))
        (toByteArray newDomain)) := by
  have hloc := hello.locateSni_encode hf
  rw [ClientHello.encode, ClientHello.layout_eq_frame] at hloc ⊢
  rw [ClientHello.layout_eq_frame]
  rw [← hello.frame_extLenOffset, ← hello.frame_sniOffsets] at hloc
  exact hello.frame.spoofSni_layout hello.lengths newDomain hello.lengths_nonneg hf (by simp [ClientHello.lengths]) hloc

theorem spoofSni_replaces_hostName (hello : ClientHello) (newDomain : String)
    (hf : hello.lengths.Fits)
    (hnew : (hello.lengths.shift
      ((toByteArray newDomain).length - hello.hostName.length)).Fits) :
    ∃ out, spoofSni hello.encode newDomain = some out ∧
      out = hello.layout
        (hello.lengths.shift ((toByteArray newDomain).length - hello.hostName.length))
        (toByteArray newDomain) ∧
      IsClientHello out (toByteArray newDomain) := by
  refine ⟨_, spoofSni_encode hello newDomain hf, rfl,
    hello.withHostName (toByteArray newDomain), ?_, rfl, ?_⟩
  · rw [hello.lengths_withHostName]
    exact hnew
  · rw [hello.encode_withHostName]

-- One extension on either side of server_name.
def sampleHello : ClientHello where
  recordVersion := [3, 1]
  versionAndRandom := 3 :: 3 :: List.replicate 32 7
  sessionId := [9]
  cipherSuites := [0x13, 0x01]
  compressionMethods := [0]
  before := [⟨0x1a1a, [7], by decide, by decide⟩]
  hostName := toByteArray "a.ru"
  moreNames := []
  after := [⟨0x2a2a, [2, 3, 4], by decide, by decide⟩]
  recordVersion_length := by decide
  versionAndRandom_length := by decide
  sessionId_lt := by decide
  cipherSuites_lt := by decide
  compressionMethods_lt := by decide
  before_type := by simp

theorem spoofSni_replaces_hostName_sample :
    ∃ out, spoofSni sampleHello.encode "web.max.ru" = some out ∧
      out = sampleHello.layout
        (sampleHello.lengths.shift
          ((toByteArray "web.max.ru").length - sampleHello.hostName.length))
        (toByteArray "web.max.ru") ∧
      IsClientHello out (toByteArray "web.max.ru") :=
  spoofSni_replaces_hostName sampleHello "web.max.ru" (by decide) (by decide)

end ToInet.FakeVpn
