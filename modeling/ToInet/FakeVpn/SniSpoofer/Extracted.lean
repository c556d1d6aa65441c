import ToInet.FakeVpn.SniSpoofer.Prefix
import ToInet.Byedpi.ByeDpiRouter.ExtractDomain.Prefix

-- Whether ByeDpiRouter finds the new name in a message that SniSpoofer has changed, and whether the
-- change can be taken back.
namespace ToInet.FakeVpn

open ToInet.Lib
open ToInet.Byedpi.ByeDpiRouter

section

variable {bytes : Bytes} {marks : Marks}

-- ByeDpiRouter reads the same numbers, and wants the data of the extension and the name within the
-- extensions.
theorem byte_of_byteAt {i v : Nat} (h : byteAt bytes i = some v) : byte bytes i = v := by
  obtain ⟨b, hb, rfl⟩ := Option.map_eq_some_iff.mp h
  rw [byte, List.getD_eq_getElem?_getD, hb]
  rfl

theorem word_of_u16At {i v : Nat} (h : u16At bytes i = some v) : word bytes i = v := by
  simp only [u16At, Option.bind_eq_bind, Option.pure_def, Option.bind_eq_some_iff, Option.some.injEq] at h
  obtain ⟨high, hhigh, low, hlow, rfl⟩ := h
  rw [word, byte_of_byteAt hhigh, byte_of_byteAt hlow]

theorem extensionsIn_of_marks (h : MarksOf bytes marks) :
    extensionsIn bytes bytes.length = some (marks.extLenOffset + 2, min marks.extEnd bytes.length) := by
  obtain ⟨sessionIdLen, cipherSuitesLen, compMethodsLen, hsession, hsuites, hmethods, hoffset⟩ := h.parameters
  have hsuitesBound := u16At_bound hsuites
  have hmethodsBound := byteAt_bound hmethods
  have hextensionsBound := u16At_bound h.extensions
  have hpos : 43 + (1 + sessionIdLen) + (2 + cipherSuitesLen) + (1 + compMethodsLen) = marks.extLenOffset := by omega
  rw [show 44 + sessionIdLen = 43 + (1 + sessionIdLen) by omega] at hsuites
  rw [show 46 + sessionIdLen + cipherSuitesLen = 43 + (1 + sessionIdLen) + (2 + cipherSuitesLen) by omega] at hmethods
  unfold extensionsIn
  dsimp only
  rw [byte_of_byteAt hsession, word_of_u16At hsuites, byte_of_byteAt hmethods, hpos, word_of_u16At h.extensions,
    if_neg (by omega), if_neg (by omega), if_neg (by omega), if_neg (by omega)]
  rfl

-- A name can only be found where the walk leads to.
theorem findServerName_of_walks {endOffset fuel offset target : Nat} {name : Bytes} (h : Walks bytes offset target)
    (hfound : findServerName bytes endOffset fuel offset = some name) :
    ∃ left, findServerName bytes endOffset left target = some name := by
  induction h generalizing fuel with
  | here => exact ⟨fuel, hfound⟩
  | step htype hne hlen _ ih =>
      cases fuel with
      | zero => cases hfound
      | succ fuel =>
          rw [findServerName_succ, entryName, word_of_u16At htype, if_neg hne, word_of_u16At hlen,
            Option.none_or] at hfound
          split at hfound
          · exact ih hfound
          · cases hfound

theorem exists_fuel_of_walks {endOffset fuel offset target : Nat} (h : Walks bytes offset target)
    (hend : target + 4 ≤ endOffset) (hfuel : endOffset - offset ≤ fuel) :
    ∃ left, findServerName bytes endOffset fuel offset = findServerName bytes endOffset (left + 1) target := by
  induction h generalizing fuel with
  | here offset =>
      obtain ⟨left, rfl⟩ : ∃ k, fuel = k + 1 := ⟨fuel - 1, by omega⟩
      exact ⟨left, rfl⟩
  | @step offset extType extLen target htype hne hlen hrest ih =>
      have hle := hrest.le
      obtain ⟨fuel, rfl⟩ : ∃ k, fuel = k + 1 := ⟨fuel - 1, by omega⟩
      obtain ⟨left, hleft⟩ := @ih fuel hend (by omega)
      refine ⟨left, ?_⟩
      rw [findServerName_succ, if_pos (by omega), entryName, word_of_u16At htype, if_neg hne, word_of_u16At hlen,
        Option.none_or, hleft]

theorem tlsServerName_eq_some_of_marks (h : MarksOf bytes marks) {name : Bytes}
    (hname : name.length = marks.oldDomainLen) :
    tlsServerName bytes bytes.length = some name ↔
      marks.sniExtOffset + 4 + marks.extDataLen ≤ min marks.extEnd bytes.length ∧
        marks.sniExtOffset + 9 + marks.oldDomainLen ≤ min marks.extEnd bytes.length ∧
        name = (bytes.drop (marks.sniExtOffset + 9)).take marks.oldDomainLen := by
  have hentry : entryName bytes (min marks.extEnd bytes.length) marks.sniExtOffset =
      serverName bytes (min marks.extEnd bytes.length) (marks.sniExtOffset + 4) marks.extDataLen := by
    rw [entryName, word_of_u16At h.extType, if_pos rfl, word_of_u16At h.extension]
  have hserver {found : Bytes} :
      serverName bytes (min marks.extEnd bytes.length) (marks.sniExtOffset + 4) marks.extDataLen = some found ↔
        marks.sniExtOffset + 4 + marks.extDataLen ≤ min marks.extEnd bytes.length ∧
        marks.sniExtOffset + 9 + marks.oldDomainLen ≤ min marks.extEnd bytes.length ∧
        found = (bytes.drop (marks.sniExtOffset + 9)).take marks.oldDomainLen := by
    rw [serverName_eq_some, show marks.sniExtOffset + 4 + 2 = marks.sniExtOffset + 6 by omega,
      show marks.sniExtOffset + 4 + 5 = marks.sniExtOffset + 9 by omega,
      show marks.sniExtOffset + 4 + 3 = marks.sniExtOffset + 7 by omega, byte_of_byteAt h.nameType,
      word_of_u16At h.name]
    simp
  rw [tlsServerName, extensionsIn_of_marks h, Option.bind_some]
  dsimp only
  constructor
  · intro hfound
    obtain ⟨fuel, hfound⟩ := findServerName_of_walks h.walks hfound
    cases fuel with
    | zero => cases hfound
    | succ fuel =>
        rw [findServerName_succ, hentry] at hfound
        split at hfound
        · obtain hhere | ⟨hnot, hlater⟩ := Option.or_eq_some_iff.mp hfound
          · exact hserver.mp hhere
          -- An entry further behind would leave room for the name here.
          · obtain ⟨start, hstart, _, hend, hslice⟩ := findServerName_eq_some hlater
            have hlength := congrArg List.length hslice
            rw [List.length_take, List.length_drop, hname, Nat.min_eq_left (by omega)] at hlength
            rw [word_of_u16At h.extension] at hstart
            rw [hserver.mpr ⟨by omega, by omega, rfl⟩] at hnot
            cases hnot
        · cases hfound
  · rintro ⟨hext, hend, rfl⟩
    obtain ⟨left, hleft⟩ := @exists_fuel_of_walks bytes (min marks.extEnd bytes.length) (min marks.extEnd bytes.length)
      _ _ h.walks (by omega) (by omega)
    rw [hleft, findServerName_succ, if_pos (by omega), hentry, hserver.mpr ⟨hext, hend, rfl⟩, Option.some_or]

end

section

variable {frame : Frame} {lengths : Lengths} {hostName : Bytes}

theorem parametersEnd_layout (h : ParametersEnd (frame.layout lengths hostName) frame.extLenOffset) (other : Lengths)
    (otherName : Bytes) : ParametersEnd (frame.layout other otherName) frame.extLenOffset := by
  have hkept {i : Nat} (hlow : 9 ≤ i) (hhigh : i < frame.extLenOffset) : frame.Kept i :=
    .inr (.inr (.inl ⟨hlow, hhigh⟩))
  obtain ⟨sessionIdLen, cipherSuitesLen, compMethodsLen, hsession, hsuites, hmethods, hoffset⟩ := h
  refine ⟨sessionIdLen, cipherSuitesLen, compMethodsLen, ?_, ?_, ?_, hoffset⟩
  · rw [← hsession, Frame.byteAt_eq (hkept (by omega) (by omega))]
  · rw [← hsuites, Frame.u16At_eq (hkept (by omega) (by omega)) (hkept (by omega) (by omega))]
  · rw [← hmethods, Frame.byteAt_eq (hkept (by omega) (by omega))]

-- The bytes between the length of the extensions and the length of the one with the name are kept.
theorem u16At_layout {offset : Nat} (hlow : frame.extLenOffset + 2 ≤ offset) (hhigh : offset ≤ frame.sniExtOffset)
    (other : Lengths) (otherName : Bytes) :
    u16At (frame.layout other otherName) offset = u16At (frame.layout lengths hostName) offset :=
  Frame.u16At_eq (.inr (.inr (.inr (.inl ⟨by omega, by omega⟩))))
    (.inr (.inr (.inr (.inl ⟨by omega, by omega⟩)))) _ _ _ _

theorem walks_layout {offset target : Nat} (h : Walks (frame.layout lengths hostName) offset target)
    (hlow : frame.extLenOffset + 2 ≤ offset) (htarget : target ≤ frame.sniExtOffset) (other : Lengths)
    (otherName : Bytes) : Walks (frame.layout other otherName) offset target := by
  induction h with
  | here => exact .here _
  | step htype hne hlen hrest ih =>
      have hle := hrest.le
      refine .step ?_ hne ?_ (ih (by omega) htarget)
      · rw [u16At_layout hlow (by omega), htype]
      · rw [u16At_layout (by omega) (by omega), hlen]

theorem marksOf_layout {marks : Marks} (h : MarksOf (frame.layout lengths hostName) marks)
    (hext : frame.extLenOffset = marks.extLenOffset) (hsni : frame.sniExtOffset = marks.sniExtOffset)
    {other : Lengths} (h0 : other.Nonneg) (hf : other.Fits) (otherName : Bytes) :
    MarksOf (frame.layout other otherName)
      { marks with
        extLen := other.extensions.toNat
        extDataLen := other.extension.toNat
        oldDomainLen := other.name.toNat } := by
  have hextensions := (frame.storesAt_extensions other otherName).read other.extensions h0.2.2.2.1 hf.2.2.2.1
  have hextension := (frame.storesAt_extension other otherName).read other.extension h0.2.2.1 hf.2.2.1
  have hname := (frame.storesAt_name other otherName).read other.name h0.1 hf.1
  rw [← u16At_eq_fieldAt, hext] at hextensions
  rw [← u16At_eq_fieldAt, hsni] at hextension hname
  have hle := h.walks.le
  have hparameters := parametersEnd_layout (hext ▸ h.parameters) other otherName
  have htype : u16At (frame.layout other otherName) marks.sniExtOffset = some 0 := by
    rw [← h.extType, u16At_layout (by omega) (by omega)]
  have hnameType : byteAt (frame.layout other otherName) (marks.sniExtOffset + 6) = some 0 := by
    rw [← h.nameType, Frame.byteAt_eq (.inr (.inr (.inr (.inr (by rw [hsni])))))]
  exact ⟨hext ▸ hparameters, hextensions, walks_layout h.walks (by rw [hext]) (by rw [hsni]) other otherName, htype,
    hextension, hnameType, hname⟩

end

-- What the change does to the lengths: the name has to lie within the extensions, and so has the data
-- of its extension, unless the length of the data is one that comes round to a small number.
def Marks.Sound (marks : Marks) (newDomainLen : Nat) : Prop :=
  marks.sniExtOffset + 9 + marks.oldDomainLen ≤ marks.extEnd ∧
    ((marks.sniExtOffset + 4 + marks.extDataLen ≤ marks.extEnd ∧
        marks.oldDomainLen + 5 ≤ marks.extDataLen + newDomainLen) ∨
      65541 + marks.oldDomainLen ≤ marks.extDataLen + newDomainLen)

variable (texts : Texts) (clientHello : Bytes) (newDomain : String)

-- The other parser finds the new name, and changing the message back with the text of the old one
-- gives the message.
def ReadsBack (out : Bytes) : Prop :=
  extractDomain texts out out.length = some newDomain ∧
    ∃ name, hostNameOf clientHello = some name ∧
      spoofSni out (String.ofList (texts.charset.decode name)) = some clientHello

-- The lengths are sound, and the text of the old name is encoded as the old name.
def Sound : Prop :=
  ∃ marks, MarksOf clientHello marks ∧ marks.Sound (toByteArray newDomain).length ∧
    let name := (clientHello.drop (marks.sniExtOffset + 9)).take marks.oldDomainLen
    toByteArray (String.ofList (texts.charset.decode name)) = name

variable {texts clientHello newDomain}

theorem extractDomain_eq_some_iff {out : Bytes} (hfirst : byteAt out 0 = some 0x16)
    (hversion : byteAt out 1 = some 0x03) (hkind : byteAt out 5 = some 1)
    (hlength : 16 ≤ out.length) (hdomain : ∀ c ∈ newDomain.toList, c.toNat < 128) :
    extractDomain texts out out.length = some newDomain ↔
      tlsServerName out out.length = some (toByteArray newDomain) := by
  have hhttp : isHttp texts out out.length = false := by
    obtain ⟨b, rest, rfl⟩ : ∃ b rest, out = b :: rest := List.exists_cons_of_length_pos (by omega)
    obtain ⟨other, hother, hb⟩ := Option.map_eq_some_iff.mp hfirst
    obtain rfl : b = other := Option.some.inj hother
    obtain rfl : b = 0x16 := UInt8.toNat_inj.mp hb
    rw [isHttp, show min 8 (0x16 :: rest : Bytes).length = 7 + 1 by omega, List.take_succ_cons,
      texts.charset.decode_cons_ascii (by decide)]
    rfl
  have htls : isTls out = true := by
    rw [isTls, byte_of_byteAt hfirst, byte_of_byteAt hversion, byte_of_byteAt hkind]
    rfl
  rw [extractDomain, if_neg (by omega), hhttp, if_neg Bool.false_ne_true, if_pos htls, Option.map_eq_some_iff]
  constructor
  · rintro ⟨name, hname, htext⟩
    have hbytes : name = toByteArray newDomain :=
      texts.charset.eq_toByteArray_of_decode hdomain (by rw [← htext, String.toList_ofList])
    rw [hname, hbytes]
  · intro hname
    exact ⟨_, hname, by rw [texts.charset.decode_text, String.ofList_toList]⟩

theorem layout_hostName {frame : Frame} {lengths other : Lengths} {hostName otherName : Bytes}
    (h : frame.layout lengths hostName = frame.layout other otherName) : hostName = otherName := by
  rw [Frame.layout, Frame.layout, List.append_assoc, List.append_assoc] at h
  obtain ⟨_, hname⟩ := List.append_inj h (by rw [Frame.length_front, Frame.length_front])
  exact List.append_cancel_right hname

-- A change and the change back leave the lengths as the fields keep them.
theorem layout_shift_back (frame : Frame) (lengths : Lengths) (hostName : Bytes) (delta : Int) :
    frame.layout ((lengths.shift delta).wrap.shift (-delta)) hostName = frame.layout lengths hostName := by
  rw [Frame.layout_wrap_shift]
  congr 1
  simp [Lengths.shift]

theorem Frame.marks_sniOffsets {frame : Frame} {marks : Marks} (h : frame.sniExtOffset = marks.sniExtOffset) :
    marks.sniOffsets = frame.sniOffsets marks.oldDomainLen := by
  rw [Marks.sniOffsets, Frame.sniOffsets, h]

variable {marks : Marks}

theorem hostNameOf_of_marks {name : Bytes} (hfirst : byteAt clientHello 0 = some 0x16)
    (hkind : byteAt clientHello 5 = some 1) (hm : MarksOf clientHello marks) (h : hostNameOf clientHello = some name) :
    locateSni clientHello = some (marks.extLenOffset, marks.extLen, marks.sniOffsets) ∧
      marks.extEnd ≤ clientHello.length ∧ marks.sniExtOffset + 4 ≤ marks.extEnd ∧
      marks.sniExtOffset + 9 + marks.oldDomainLen ≤ clientHello.length ∧
      name = (clientHello.drop (marks.sniExtOffset + 9)).take marks.oldDomainLen := by
  have hloc := locateSni_of_marks hfirst hkind hm
  rw [hostNameOf, hloc] at h
  rw [hloc]
  split at h
  · rename_i hfound
    rw [if_pos hfound]
    obtain ⟨hend, hhead, _⟩ := hfound
    rw [Option.bind_some] at h
    dsimp only [Marks.sniOffsets] at h
    split at h
    · rename_i hnameEnd
      exact ⟨rfl, hend, hhead, hnameEnd, (Option.some.inj h).symm⟩
    · cases h
  · cases h

theorem exists_frame (hm : MarksOf clientHello marks)
    (hend : marks.sniExtOffset + 9 + marks.oldDomainLen ≤ clientHello.length) :
    ∃ (frame : Frame) (lengths : Lengths),
      clientHello =
          frame.layout lengths ((clientHello.drop (marks.sniExtOffset + 9)).take marks.oldDomainLen) ∧
        lengths.Nonneg ∧ lengths.Fits ∧ frame.extLenOffset = marks.extLenOffset ∧
        frame.sniExtOffset = marks.sniExtOffset ∧ lengths.extensions = marks.extLen ∧
        lengths.extension = marks.extDataLen ∧ lengths.name = marks.oldDomainLen := by
  have hle := hm.walks.le
  have hoffset := hm.parameters.le
  obtain ⟨frame, lengths, hlayout, h0, hf, hext, hsni⟩ :=
    Frame.exists_of_length clientHello (show 9 ≤ marks.extLenOffset by omega) hle hend
  generalize (clientHello.drop (marks.sniExtOffset + 9)).take marks.oldDomainLen = name at hlayout ⊢
  have hextensions := (frame.storesAt_extensions lengths name).read lengths.extensions h0.2.2.2.1 hf.2.2.2.1
  have hextension := (frame.storesAt_extension lengths name).read lengths.extension h0.2.2.1 hf.2.2.1
  have hname := (frame.storesAt_name lengths name).read lengths.name h0.1 hf.1
  rw [← u16At_eq_fieldAt, ← hlayout, hext, hm.extensions, Option.some.injEq] at hextensions
  rw [← u16At_eq_fieldAt, ← hlayout, hsni, hm.extension, Option.some.injEq] at hextension
  rw [← u16At_eq_fieldAt, ← hlayout, hsni, hm.name, Option.some.injEq] at hname
  obtain ⟨hname0, _, hextension0, hextensions0, _⟩ := h0
  exact ⟨frame, lengths, hlayout, ⟨hname0, by omega, hextension0, hextensions0, by omega⟩, hf, hext, hsni, by omega,
    by omega, by omega⟩

-- The message is got back if SniSpoofer finds the name again, and the text is that of the old name.
theorem spoofSni_back_iff {frame : Frame} {lengths changed : Lengths} {name domain : Bytes} {text : String}
    (hchanged : (lengths.shift (domain.length - name.length)).wrap = changed) (hname : lengths.name = name.length)
    (hdomain : domain.length < 256 ^ 2) (hfirst : byteAt (frame.layout changed domain) 0 = some 0x16)
    (hkind : byteAt (frame.layout changed domain) 5 = some 1) (hm : MarksOf (frame.layout changed domain) marks)
    (hext : frame.extLenOffset = marks.extLenOffset) (hsni : frame.sniExtOffset = marks.sniExtOffset)
    (hextLen : marks.extLen = changed.extensions.toNat) (hold : marks.oldDomainLen = domain.length) :
    spoofSni (frame.layout changed domain) text = some (frame.layout lengths name) ↔
      (marks.extEnd ≤ (frame.layout changed domain).length ∧ marks.sniExtOffset + 4 ≤ marks.extEnd ∧
          5 ≤ marks.extDataLen) ∧ toByteArray text = name := by
  have hloc := locateSni_of_marks hfirst hkind hm
  have hnew : changed.name = domain.length := by
    simp only [← hchanged, Lengths.wrap, Lengths.shift]
    omega
  have h0 : changed.Nonneg := hchanged ▸ Lengths.wrap_nonneg _
  have hf : changed.Fits := hchanged ▸ Lengths.wrap_fits _
  by_cases hfound : marks.extEnd ≤ (frame.layout changed domain).length ∧
      marks.sniExtOffset + 4 ≤ marks.extEnd ∧ 5 ≤ marks.extDataLen
  · rw [if_pos hfound, ← hext, hextLen, Frame.marks_sniOffsets hsni, hold] at hloc
    rw [frame.spoofSni_layout _ text h0 hf hnew hloc, Option.some.injEq, and_iff_right hfound]
    constructor
    · exact layout_hostName
    · rintro rfl
      rw [← hchanged, show ((toByteArray text).length : Int) - domain.length =
        -(domain.length - (toByteArray text).length) by omega, layout_shift_back]
  · rw [if_neg hfound] at hloc
    refine iff_of_false (fun h => ?_) fun h => hfound h.1
    rw [spoofSni, hloc] at h
    cases h

theorem Frame.length_layout (frame : Frame) (lengths : Lengths) (hostName : Bytes) :
    (frame.layout lengths hostName).length = frame.sniExtOffset + 9 + hostName.length + frame.tail.length := by
  rw [layout, List.length_append, List.length_append, length_front]

theorem emod_cases {n : Int} (hlow : -65536 ≤ n) (hhigh : n < 131072) :
    (n < 0 ∧ n % 65536 = n + 65536) ∨ (0 ≤ n ∧ n < 65536 ∧ n % 65536 = n) ∨ (65536 ≤ n ∧ n % 65536 = n - 65536) := by
  omega

-- What both readers want of the changed lengths, where the fields keep them modulo 65536.
theorem sound_iff {newDomainLen tail extLen extDataLen : Nat} (hle : marks.extLenOffset + 2 ≤ marks.sniExtOffset)
    (hhead : marks.sniExtOffset + 4 ≤ marks.extEnd)
    (hend : marks.extEnd ≤ marks.sniExtOffset + 9 + marks.oldDomainLen + tail)
    (hsize : marks.sniExtOffset + 9 + marks.oldDomainLen + tail ≤ 16384)
    (hsizeOut : marks.sniExtOffset + 9 + newDomainLen + tail ≤ 16384) (hlt : marks.extDataLen < 65536)
    (hlen : (extLen : Int) = (marks.extLen + (newDomainLen - marks.oldDomainLen)) % 65536)
    (hdataLen : (extDataLen : Int) = (marks.extDataLen + (newDomainLen - marks.oldDomainLen)) % 65536) :
    (marks.sniExtOffset + 4 + extDataLen ≤
          min (marks.extLenOffset + 2 + extLen) (marks.sniExtOffset + 9 + newDomainLen + tail) ∧
        marks.sniExtOffset + 9 + newDomainLen ≤
          min (marks.extLenOffset + 2 + extLen) (marks.sniExtOffset + 9 + newDomainLen + tail)) ∧
      marks.extLenOffset + 2 + extLen ≤ marks.sniExtOffset + 9 + newDomainLen + tail ∧
      marks.sniExtOffset + 4 ≤ marks.extLenOffset + 2 + extLen ∧ 5 ≤ extDataLen ↔ marks.Sound newDomainLen := by
  simp only [Marks.extEnd, Marks.Sound] at *
  obtain hext | hext | hext :=
    emod_cases (show -65536 ≤ (marks.extLen + (newDomainLen - marks.oldDomainLen) : Int) by omega)
    (by omega) <;>
  obtain hdata | hdata | hdata := emod_cases
    (show -65536 ≤ (marks.extDataLen + (newDomainLen - marks.oldDomainLen) : Int) by omega) (by omega) <;>
  omega

theorem readsBack_of_marks {out : Bytes} (hdomain : ∀ c ∈ newDomain.toList, c.toNat < 128)
    (hfirst : byteAt clientHello 0 = some 0x16) (hversion : byteAt clientHello 1 = some 0x03)
    (hsize : clientHello.length ≤ 16384) (hout : spoofSni clientHello newDomain = some out)
    (hsizeOut : out.length ≤ 16384) (hm : MarksOf clientHello marks) :
    ReadsBack texts clientHello newDomain out ↔
      marks.Sound (toByteArray newDomain).length ∧
        let name := (clientHello.drop (marks.sniExtOffset + 9)).take marks.oldDomainLen
        toByteArray (String.ofList (texts.charset.decode name)) = name := by
  obtain ⟨name, hname⟩ : ∃ name, hostNameOf clientHello = some name := by
    by_contra hnone
    rw [spoofSni_eq_none newDomain (Option.eq_none_iff_forall_ne_some.mpr fun name h => hnone ⟨name, h⟩)] at hout
    cases hout
  have hkind : byteAt clientHello 5 = some 1 := by
    obtain ⟨⟨extLenOffset, extLen, sni⟩, hloc, _⟩ := Option.bind_eq_some_iff.mp hname
    exact (exists_marks hloc).1
  obtain ⟨hloc, hend, hhead, hnameEnd, hslice⟩ := hostNameOf_of_marks hfirst hkind hm hname
  obtain ⟨frame, lengths, hlayout, h0, hf, hext, hsni, hextensions, hextension, hnameLen⟩ := exists_frame hm hnameEnd
  have hlength : name.length = marks.oldDomainLen := by
    rw [hslice, List.length_take, List.length_drop]
    omega
  rw [← hslice] at hlayout
  dsimp only
  rw [← hslice, ReadsBack, hname]
  simp only [Option.some.injEq, exists_eq_left']
  clear hslice hname
  -- The changed message is the layout of the changed lengths.
  generalize hchanged : (lengths.shift ((toByteArray newDomain).length - name.length)).wrap = changed
  have houtLayout : out = frame.layout changed (toByteArray newDomain) := by
    have hspoof := @Frame.spoofSni_layout frame lengths name newDomain h0 hf (by omega) ?_
    · rw [← hlayout, hout, Option.some.injEq] at hspoof
      rw [hspoof, ← hchanged, Frame.layout_wrap]
    · rw [← hlayout, hloc, hext, hextensions, Int.toNat_natCast, Frame.marks_sniOffsets hsni, hlength]
  have houtLength := frame.length_layout changed (toByteArray newDomain)
  have hlayoutLength := frame.length_layout lengths name
  rw [← houtLayout, hsni] at houtLength
  rw [← hlayout, hsni, hlength] at hlayoutLength
  have hmarks := marksOf_layout (hlayout ▸ hm) hext hsni (hchanged ▸ Lengths.wrap_nonneg _ : changed.Nonneg)
    (hchanged ▸ Lengths.wrap_fits _) (toByteArray newDomain)
  have hbyte {i v : Nat} (hkept : frame.Kept i) (h : byteAt clientHello i = some v) :
      byteAt (frame.layout changed (toByteArray newDomain)) i = some v := by
    rw [← h, hlayout, Frame.byteAt_eq hkept]
  have hfirst := hbyte (.inl (by decide)) hfirst
  have hkind := hbyte (.inr (.inl rfl)) hkind
  have hversion := hbyte (.inl (by decide)) hversion
  have hfront := frame.length_front changed
  have hoffset := hm.parameters.le
  have hle := hm.walks.le
  have hnewName : ((frame.layout changed (toByteArray newDomain)).drop (marks.sniExtOffset + 9)).take
      (toByteArray newDomain).length = toByteArray newDomain := by
    rw [Frame.layout, List.append_assoc, ← hsni, ← hfront, List.drop_left, List.take_left]
  have hchangedName : changed.name.toNat = (toByteArray newDomain).length := by
    simp only [← hchanged, Lengths.wrap, Lengths.shift]
    omega
  have hchangedExtension : (changed.extension.toNat : Int) =
      (marks.extDataLen + ((toByteArray newDomain).length - marks.oldDomainLen)) % 65536 := by
    simp only [← hchanged, Lengths.wrap, Lengths.shift]
    omega
  have hchangedExtensions : (changed.extensions.toNat : Int) =
      (marks.extLen + ((toByteArray newDomain).length - marks.oldDomainLen)) % 65536 := by
    simp only [← hchanged, Lengths.wrap, Lengths.shift]
    omega
  rw [houtLayout, extractDomain_eq_some_iff hfirst hversion hkind (by rw [← houtLayout]; omega) hdomain,
    tlsServerName_eq_some_of_marks hmarks hchangedName.symm, hchangedName, hnewName]
  conv_lhs => rw [hlayout]
  rw [spoofSni_back_iff hchanged (by omega) (by omega) hfirst hkind hmarks hext hsni rfl hchangedName, ← houtLayout,
    ← and_assoc]
  refine and_congr_left fun _ => ?_
  obtain ⟨_, _, hextensionLt, _⟩ := hf
  rw [and_iff_left rfl, Marks.extEnd, houtLength]
  exact sound_iff hle hhead (by omega) (by omega) (by omega) (by omega) hchangedExtensions hchangedExtension

-- Both parsers and the way back agree exactly if the lengths in the message were right about its name.
theorem readsBack_iff (texts : Texts) (clientHello : Bytes) (newDomain : String) {out : Bytes}
    (hdomain : ∀ c ∈ newDomain.toList, c.toNat < 128) (hfirst : byteAt clientHello 0 = some 0x16)
    (hversion : byteAt clientHello 1 = some 0x03) (hsize : clientHello.length ≤ 16384)
    (hout : spoofSni clientHello newDomain = some out) (hsizeOut : out.length ≤ 16384) :
    ReadsBack texts clientHello newDomain out ↔ Sound texts clientHello newDomain := by
  constructor
  · intro h
    obtain ⟨found, hloc, _⟩ := Option.bind_eq_some_iff.mp hout
    obtain ⟨_, marks, hm⟩ := exists_marks (show locateSni clientHello = some (found.1, found.2.1, found.2.2) from hloc)
    exact ⟨marks, hm, (readsBack_of_marks hdomain hfirst hversion hsize hout hsizeOut hm).mp h⟩
  · rintro ⟨marks, hm, hsound⟩
    exact (readsBack_of_marks hdomain hfirst hversion hsize hout hsizeOut hm).mpr hsound

theorem readsBack_sample :
    ReadsBack sampleTexts sampleHello.encode "web.max.ru"
        (sampleHello.layout (sampleHello.lengths.shift
          ((toByteArray "web.max.ru").length - sampleHello.hostName.length)) (toByteArray "web.max.ru")) ↔
      Sound sampleTexts sampleHello.encode "web.max.ru" :=
  readsBack_iff sampleTexts sampleHello.encode "web.max.ru" (forall_mem_of_all (by decide)) (by decide) (by decide)
    (by decide)
    (spoofSni_encode sampleHello "web.max.ru" (by decide)) (by decide)

-- The extension with the name has nine bytes of data, and its length says forty.
def longHello : Bytes := sampleHello.layout { sampleHello.lengths with extension := 40 } sampleHello.hostName

theorem not_readsBack_longHello :
    ¬∀ (texts : Texts) (clientHello : Bytes) (newDomain : String) (out : Bytes),
      (∀ c ∈ newDomain.toList, c.toNat < 128) → byteAt clientHello 0 = some 0x16 →
      byteAt clientHello 1 = some 0x03 → clientHello.length ≤ 16384 → spoofSni clientHello newDomain = some out →
      out.length ≤ 16384 → ReadsBack texts clientHello newDomain out := by
  intro h
  have hlength : (spoofSni longHello "web.max.ru").map List.length = some 84 := by decide
  have hnone : (spoofSni longHello "web.max.ru").bind
      (fun out => extractDomain sampleTexts out out.length) = none := by decide
  obtain ⟨out, hout, hsize⟩ := Option.map_eq_some_iff.mp hlength
  rw [hout, Option.bind_some] at hnone
  obtain ⟨hfound, _⟩ := h sampleTexts longHello "web.max.ru" out (forall_mem_of_all (by decide)) (by decide) (by decide)
    (by decide) hout
    (by omega)
  rw [hnone] at hfound
  cases hfound

end ToInet.FakeVpn
