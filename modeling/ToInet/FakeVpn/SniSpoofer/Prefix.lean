import ToInet.FakeVpn.SniSpoofer.Theorems

namespace ToInet.FakeVpn

open ToInet.Lib

variable {clientHello : Bytes} {extLenOffset extLen : Nat} {sni : SniOffsets}

theorem u16At_mono {a : Bytes} {i v : Nat} (more : Bytes) (h : u16At a i = some v) :
    u16At (a ++ more) i = some v := by
  rw [u16At_eq_fieldAt] at h ⊢
  exact fieldAt_mono more h

theorem u24At_mono {a : Bytes} {i v : Nat} (more : Bytes) (h : u24At a i = some v) :
    u24At (a ++ more) i = some v := by
  rw [u24At_eq_fieldAt] at h ⊢
  exact fieldAt_mono more h

theorem extensionsAt_spec (h : extensionsAt clientHello = some (extLenOffset, extLen)) :
    43 < extLenOffset ∧ u16At clientHello extLenOffset = some extLen ∧
      extLenOffset + 2 + extLen ≤ clientHello.length := by
  simp only [extensionsAt, Option.bind_eq_bind, Option.pure_def, Option.bind_eq_some_iff,
    returnNullIf_eq_some, exists_const, Option.some.injEq, Prod.mk.injEq] at h
  obtain ⟨_, _, _, _, _, _, _, _, _, _, _, _, _, _, _, _, _, hlen, hend, rfl, rfl⟩ := h
  exact ⟨by omega, hlen, by omega⟩

theorem extensionsAt_mono (more : Bytes) (h : extensionsAt clientHello = some (extLenOffset, extLen)) :
    extensionsAt (clientHello ++ more) = some (extLenOffset, extLen) := by
  simp only [extensionsAt, Option.bind_eq_bind, Option.pure_def, Option.bind_eq_some_iff,
    returnNullIf_eq_some, exists_const, Option.some.injEq] at h ⊢
  obtain ⟨hsize, b0, h0, hb0, b5, h5, hb5, sid, hsid, hcsEnd, cs, hcs, hcmEnd, cm, hcm, hextEnd,
    ext, hext, hbodyEnd, hr⟩ := h
  have hl : (clientHello ++ more).length = clientHello.length + more.length := List.length_append
  exact ⟨by omega, b0, byteAt_mono more h0, hb0, b5, byteAt_mono more h5, hb5,
    sid, byteAt_mono more hsid, by omega, cs, u16At_mono more hcs, by omega,
    cm, byteAt_mono more hcm, by omega, ext, u16At_mono more hext, by omega, hr⟩

-- What the walk guarantees about the offsets it returns.
structure Located (clientHello : Bytes) (start : Nat) (sni : SniOffsets) : Prop where
  start_le : start ≤ sni.sniExtOffset
  list_eq : sni.sniListLenOffset = sni.sniExtOffset + 4
  name_eq : sni.sniNameLenOffset = sni.sniExtOffset + 7
  domain_eq : sni.oldDomainOffset = sni.sniExtOffset + 9
  extension_read : ∃ n, u16At clientHello (sni.sniExtOffset + 2) = some n
  list_read : ∃ n, u16At clientHello (sni.sniExtOffset + 4) = some n
  name_read : u16At clientHello (sni.sniExtOffset + 7) = some sni.oldDomainLen

theorem findSni_spec (extEnd fuel pos : Nat) (h : findSni clientHello extEnd fuel pos = some sni) :
    Located clientHello pos sni := by
  obtain ⟨hwalks, _, extDataLen, hlen, hread⟩ := walks_of_findSni h
  obtain ⟨_, hlist, _, hname, _, hlistEq, hnameEq, hdomain⟩ := readServerName_eq_some.mp hread
  exact ⟨hwalks.le, hlistEq, hnameEq, hdomain, ⟨extDataLen, hlen⟩, hlist, hname⟩

theorem readServerName_mono {pos extDataLen : Nat} (more : Bytes)
    (h : readServerName clientHello pos extDataLen = some sni) :
    readServerName (clientHello ++ more) pos extDataLen = some sni := by
  obtain ⟨hlen, ⟨n, hn⟩, htype, hname, hrest⟩ := readServerName_eq_some.mp h
  exact readServerName_eq_some.mpr ⟨hlen, ⟨n, u16At_mono more hn⟩, byteAt_mono more htype,
    u16At_mono more hname, hrest⟩

theorem findSni_mono (more : Bytes) (extEnd fuel pos : Nat)
    (h : findSni clientHello extEnd fuel pos = some sni) :
    findSni (clientHello ++ more) extEnd fuel pos = some sni := by
  induction fuel generalizing pos with
  | zero => cases h
  | succ fuel ih =>
      obtain ⟨hend, extType, extDataLen, ht, hl, h⟩ := findSni_succ_eq_some.mp h
      refine findSni_succ_eq_some.mpr
        ⟨hend, extType, extDataLen, u16At_mono more ht, u16At_mono more hl, ?_⟩
      split at h <;> rename_i htype
      · rw [if_pos htype]
        exact readServerName_mono more h
      · rw [if_neg htype]
        exact ih _ h

theorem locateSni_mono (more : Bytes) (h : locateSni clientHello = some (extLenOffset, extLen, sni)) :
    locateSni (clientHello ++ more) = some (extLenOffset, extLen, sni) := by
  obtain ⟨hat, hfind⟩ := locateSni_eq_some.mp h
  exact locateSni_eq_some.mpr ⟨extensionsAt_mono more hat, findSni_mono more _ _ _ hfind⟩

-- The host name that would be replaced. The record has to hold all of it.
def hostNameOf (clientHello : Bytes) : Option Bytes :=
  (locateSni clientHello).bind fun (_, _, sni) =>
    if sni.oldDomainOffset + sni.oldDomainLen ≤ clientHello.length then
      some ((clientHello.drop sni.oldDomainOffset).take sni.oldDomainLen)
    else none

theorem hostNameOf_eq_some {name : Bytes} :
    hostNameOf clientHello = some name ↔
      ∃ extLenOffset extLen sni head tail,
        locateSni clientHello = some (extLenOffset, extLen, sni) ∧
        clientHello = head ++ name ++ tail ∧
        sni.oldDomainOffset = head.length ∧ sni.oldDomainLen = name.length := by
  constructor
  · intro h
    obtain ⟨⟨extLenOffset, extLen, sni⟩, hloc, h⟩ := Option.bind_eq_some_iff.mp h
    by_cases hend : sni.oldDomainOffset + sni.oldDomainLen ≤ clientHello.length
    · simp only [hend, if_true, Option.some.injEq] at h
      refine ⟨extLenOffset, extLen, sni, clientHello.take sni.oldDomainOffset,
        clientHello.drop (sni.oldDomainOffset + sni.oldDomainLen), hloc, ?_, ?_, ?_⟩
      · rw [← h, ← List.drop_drop, List.append_assoc, List.take_append_drop, List.take_append_drop]
      · rw [List.length_take]
        omega
      · rw [← h, List.length_take, List.length_drop]
        omega
    · simp [hend] at h
  · rintro ⟨extLenOffset, extLen, sni, head, tail, hloc, hsplit, ho, hl⟩
    rw [hostNameOf, hloc]
    simp only [Option.bind_some, ho, hl]
    rw [hsplit, if_pos (by simp), List.append_assoc, List.drop_left, List.take_left]

theorem hostNameOf_mono {name : Bytes} (more : Bytes) (h : hostNameOf clientHello = some name) :
    hostNameOf (clientHello ++ more) = some name := by
  obtain ⟨extLenOffset, extLen, sni, head, tail, hloc, hsplit, ho, hl⟩ := hostNameOf_eq_some.mp h
  exact hostNameOf_eq_some.mpr ⟨extLenOffset, extLen, sni, head, tail ++ more,
    locateSni_mono more hloc, by rw [hsplit, List.append_assoc], ho, hl⟩

theorem updateLength_spec (out : Bytes) (k offset oldLen : Nat) (delta : Int) (bytesCount : Nat)
    (hoffset : offset + bytesCount ≤ k) (hk : k ≤ out.length) :
    ∃ next, updateLength out offset oldLen delta bytesCount = some next ∧
      next.length = out.length ∧ next.drop k = out.drop k ∧
      ∀ more, updateLength (out ++ more) offset oldLen delta bytesCount = some (next ++ more) := by
  obtain ⟨next, hnext⟩ := overwrite_exists out offset
    (beBytes bytesCount (oldLen + delta)) (by rw [length_beBytes]; omega)
  exact ⟨next, hnext, length_overwrite hnext,
    drop_overwrite hnext (by rw [length_beBytes]; omega), fun more => overwrite_mono more hnext⟩

-- All six updates lie in front of the new name and read the old message, so
-- bytes behind it pass through unseen.
theorem updateLengths_spec (extLen : Nat) (hloc : Located clientHello (extLenOffset + 2) sni)
    (hoffset : 43 < extLenOffset) (out : Bytes) (hin : sni.oldDomainOffset ≤ clientHello.length)
    (hout : sni.oldDomainOffset ≤ out.length) (delta : Int) :
    ∃ next, updateLengths clientHello out extLenOffset extLen sni delta = some next ∧
      next.drop sni.oldDomainOffset = out.drop sni.oldDomainOffset ∧
      ∀ more, updateLengths (clientHello ++ more) (out ++ more) extLenOffset extLen sni delta =
        some (next ++ more) := by
  have hstart := hloc.start_le
  have hdomain := hloc.domain_eq
  obtain ⟨oldListLen, hlist⟩ := hloc.list_read
  obtain ⟨oldExtDataLen, hext⟩ := hloc.extension_read
  obtain ⟨oldHsLen, hhs⟩ := fieldAt_exists clientHello 6 3 (by omega)
  obtain ⟨oldRecLen, hrec⟩ := fieldAt_exists clientHello 3 2 (by omega)
  rw [← hloc.list_eq] at hlist
  rw [← u24At_eq_fieldAt] at hhs
  rw [← u16At_eq_fieldAt] at hrec
  obtain ⟨o₁, h₁, hl₁, hd₁, hm₁⟩ := updateLength_spec out sni.oldDomainOffset
    sni.sniNameLenOffset sni.oldDomainLen delta 2 (by rw [hloc.name_eq]; omega) hout
  obtain ⟨o₂, h₂, hl₂, hd₂, hm₂⟩ := updateLength_spec o₁ sni.oldDomainOffset
    sni.sniListLenOffset oldListLen delta 2 (by rw [hloc.list_eq]; omega) (by omega)
  obtain ⟨o₃, h₃, hl₃, hd₃, hm₃⟩ := updateLength_spec o₂ sni.oldDomainOffset
    (sni.sniExtOffset + 2) oldExtDataLen delta 2 (by omega) (by omega)
  obtain ⟨o₄, h₄, hl₄, hd₄, hm₄⟩ := updateLength_spec o₃ sni.oldDomainOffset
    extLenOffset extLen delta 2 (by omega) (by omega)
  obtain ⟨o₅, h₅, hl₅, hd₅, hm₅⟩ := updateLength_spec o₄ sni.oldDomainOffset
    6 oldHsLen delta 3 (by omega) (by omega)
  obtain ⟨o₆, h₆, _, hd₆, hm₆⟩ := updateLength_spec o₅ sni.oldDomainOffset
    3 oldRecLen delta 2 (by omega) (by omega)
  refine ⟨o₆, ?_, by rw [hd₆, hd₅, hd₄, hd₃, hd₂, hd₁], fun more => ?_⟩
  · simp only [updateLengths, h₁, hlist, h₂, hext, h₃, h₄, hhs, h₅, hrec, h₆, Option.bind_eq_bind,
      Option.bind_some]
  · simp only [updateLengths, hm₁ more, u16At_mono more hlist, hm₂ more, u16At_mono more hext, hm₃ more,
      hm₄ more, u24At_mono more hhs, hm₅ more, u16At_mono more hrec, hm₆ more, Option.bind_eq_bind,
      Option.bind_some]

-- With no change of length every field is written back.
theorem updateLengths_zero (hloc : Located clientHello (extLenOffset + 2) sni)
    (hoffset : 43 < extLenOffset) (hread : u16At clientHello extLenOffset = some extLen)
    (hin : sni.oldDomainOffset ≤ clientHello.length) :
    updateLengths clientHello clientHello extLenOffset extLen sni 0 = some clientHello := by
  have hstart := hloc.start_le
  have hdomain := hloc.domain_eq
  obtain ⟨oldListLen, hlist⟩ := hloc.list_read
  obtain ⟨oldExtDataLen, hext⟩ := hloc.extension_read
  obtain ⟨oldHsLen, hhs⟩ := fieldAt_exists clientHello 6 3 (by omega)
  obtain ⟨oldRecLen, hrec⟩ := fieldAt_exists clientHello 3 2 (by omega)
  have hname := hloc.name_read
  rw [u16At_eq_fieldAt] at hlist hext hread hname
  simp only [updateLengths, updateLength, u16At_eq_fieldAt, u24At_eq_fieldAt, hloc.list_eq,
    hloc.name_eq, hlist, hext, hhs, hrec, add_zero, overwrite_fieldAt hname, overwrite_fieldAt hlist,
    overwrite_fieldAt hext, overwrite_fieldAt hread, overwrite_fieldAt hhs, overwrite_fieldAt hrec,
    Option.bind_eq_bind, Option.bind_some]

theorem locateSni_located (h : locateSni clientHello = some (extLenOffset, extLen, sni)) :
    43 < extLenOffset ∧ u16At clientHello extLenOffset = some extLen ∧
      Located clientHello (extLenOffset + 2) sni := by
  obtain ⟨hat, hfind⟩ := locateSni_eq_some.mp h
  obtain ⟨hoffset, hread, _⟩ := extensionsAt_spec hat
  exact ⟨hoffset, hread, findSni_spec _ _ _ hfind⟩

theorem spoofSni_eq_none (newDomain : String) (h : hostNameOf clientHello = none) :
    spoofSni clientHello newDomain = none := by
  cases hloc : locateSni clientHello with
  | none => simp [spoofSni, hloc]
  | some found =>
      obtain ⟨extLenOffset, extLen, sni⟩ := found
      have hgt : clientHello.length < sni.oldDomainOffset + sni.oldDomainLen := by
        by_contra hle
        simp [hostNameOf, hloc, show sni.oldDomainOffset + sni.oldDomainLen ≤ clientHello.length by
          omega] at h
      simp [spoofSni, hloc, replaceDomain_of_gt _ _ _ hgt]

-- Bytes behind a message that was spoofed are carried along, and the message
-- stays as it is only when it already names the new domain.
theorem spoofSni_eq_some {name : Bytes} (newDomain : String) (h : hostNameOf clientHello = some name) :
    ∃ out, (∀ more, spoofSni (clientHello ++ more) newDomain = some (out ++ more)) ∧
      (out = clientHello ↔ name = toByteArray newDomain) := by
  obtain ⟨extLenOffset, extLen, sni, head, tail, hfound, hsplit, ho, hl⟩ := hostNameOf_eq_some.mp h
  obtain ⟨hoffset, hread, hloc⟩ := locateSni_located hfound
  have hin : sni.oldDomainOffset ≤ clientHello.length := by
    rw [hsplit, ho]
    simp
  obtain ⟨out, hout, hdrop, hmore⟩ := updateLengths_spec extLen hloc hoffset
    (head ++ toByteArray newDomain ++ tail) hin (by rw [ho]; simp)
    ((toByteArray newDomain).length - sni.oldDomainLen)
  refine ⟨out, fun more => ?_, fun heq => ?_, fun hname => ?_⟩
  · have hcopy := replaceDomain_append head name (tail ++ more) (toByteArray newDomain) sni ho hl
    rw [← List.append_assoc, ← List.append_assoc, ← hsplit] at hcopy
    simp only [spoofSni, locateSni_mono more hfound, hcopy, hmore more, Option.bind_eq_bind,
      Option.bind_some]
  · rw [heq, hsplit, ho] at hdrop
    simp only [List.append_assoc, List.drop_left] at hdrop
    exact List.append_cancel_right hdrop
  · rw [← hname, ← hsplit, hl, Int.sub_self, updateLengths_zero hloc hoffset hread hin] at hout
    exact (Option.some.inj hout).symm

end ToInet.FakeVpn
