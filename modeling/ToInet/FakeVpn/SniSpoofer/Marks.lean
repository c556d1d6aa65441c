import ToInet.FakeVpn.SniSpoofer

-- Where a message has its host name, said without the walk that looks for it.
namespace ToInet.FakeVpn

open ToInet.Lib

-- Where the first extension of type 0 stands, and the lengths around its name, as a message has them.
structure Marks where
  extLenOffset : Nat
  extLen : Nat
  sniExtOffset : Nat
  extDataLen : Nat
  oldDomainLen : Nat

-- The session id, the cipher suites and the compression methods end here.
def ParametersEnd (bytes : Bytes) (offset : Nat) : Prop :=
  ∃ sessionIdLen cipherSuitesLen compMethodsLen, byteAt bytes 43 = some sessionIdLen ∧
    u16At bytes (44 + sessionIdLen) = some cipherSuitesLen ∧
    byteAt bytes (46 + sessionIdLen + cipherSuitesLen) = some compMethodsLen ∧
    offset = 47 + sessionIdLen + cipherSuitesLen + compMethodsLen

-- One extension after the other lies between the two offsets, and none of them is of type 0.
inductive Walks (bytes : Bytes) : Nat → Nat → Prop
  | here (offset : Nat) : Walks bytes offset offset
  | step {offset extType extLen target : Nat} (htype : u16At bytes offset = some extType) (hne : extType ≠ 0)
      (hlen : u16At bytes (offset + 2) = some extLen) (hrest : Walks bytes (offset + 4 + extLen) target) :
      Walks bytes offset target

structure MarksOf (bytes : Bytes) (marks : Marks) : Prop where
  parameters : ParametersEnd bytes marks.extLenOffset
  extensions : u16At bytes marks.extLenOffset = some marks.extLen
  walks : Walks bytes (marks.extLenOffset + 2) marks.sniExtOffset
  extType : u16At bytes marks.sniExtOffset = some 0
  extension : u16At bytes (marks.sniExtOffset + 2) = some marks.extDataLen
  nameType : byteAt bytes (marks.sniExtOffset + 6) = some 0
  name : u16At bytes (marks.sniExtOffset + 7) = some marks.oldDomainLen

def Marks.extEnd (marks : Marks) : Nat := marks.extLenOffset + 2 + marks.extLen

def Marks.sniOffsets (marks : Marks) : SniOffsets where
  sniExtOffset := marks.sniExtOffset
  sniListLenOffset := marks.sniExtOffset + 4
  sniNameLenOffset := marks.sniExtOffset + 7
  oldDomainOffset := marks.sniExtOffset + 9
  oldDomainLen := marks.oldDomainLen

variable {bytes : Bytes} {marks : Marks} {sni : SniOffsets} {extLenOffset extLen : Nat}

theorem Walks.le {offset target : Nat} (h : Walks bytes offset target) : offset ≤ target := by
  induction h with
  | here => exact Nat.le_refl _
  | step _ _ _ _ ih => omega

theorem ParametersEnd.le {offset : Nat} (h : ParametersEnd bytes offset) : 47 ≤ offset := by
  obtain ⟨_, _, _, _, _, _, rfl⟩ := h
  omega

theorem u16At_bound {i v : Nat} (h : u16At bytes i = some v) : i + 2 ≤ bytes.length :=
  fieldAt_bound (u16At_eq_fieldAt bytes i ▸ h)

theorem byteAt_bound {i v : Nat} (h : byteAt bytes i = some v) : i < bytes.length := by
  by_contra hge
  rw [byteAt_of_ge bytes i (by omega)] at h
  cases h

theorem extensionsAt_of_marks (hfirst : byteAt bytes 0 = some 0x16) (hkind : byteAt bytes 5 = some 1)
    (h : MarksOf bytes marks) :
    extensionsAt bytes = if marks.extEnd ≤ bytes.length then some (marks.extLenOffset, marks.extLen) else none := by
  obtain ⟨sessionIdLen, cipherSuitesLen, compMethodsLen, hsession, hsuites, hmethods, hoffset⟩ := h.parameters
  have hsuitesBound := u16At_bound hsuites
  have hmethodsBound := byteAt_bound hmethods
  have hextensionsBound := u16At_bound h.extensions
  have hpos : 43 + (1 + sessionIdLen) + (2 + cipherSuitesLen) + (1 + compMethodsLen) = marks.extLenOffset := by omega
  rw [show 44 + sessionIdLen = 43 + (1 + sessionIdLen) by omega] at hsuites
  rw [show 46 + sessionIdLen + cipherSuitesLen = 43 + (1 + sessionIdLen) + (2 + cipherSuitesLen) by omega] at hmethods
  have h43 : ¬bytes.length < 43 := by omega
  have hsuitesEnd : ¬43 + (1 + sessionIdLen) + 2 > bytes.length := by omega
  have hmethodsEnd : ¬43 + (1 + sessionIdLen) + (2 + cipherSuitesLen) + 1 > bytes.length := by omega
  have hextensionsEnd : ¬marks.extLenOffset + 2 > bytes.length := by omega
  simp only [extensionsAt, returnNullIf, h43, hfirst, hkind, hsession, hsuitesEnd, hsuites, hmethodsEnd, hmethods,
    hpos, hextensionsEnd, h.extensions, Option.bind_eq_bind, Option.bind_some, Option.pure_def, if_false, ne_eq,
    not_true_eq_false]
  unfold Marks.extEnd
  split
  · rw [if_neg (by omega)]
    rfl
  · rw [if_pos (by omega)]
    rfl

theorem findSni_succ_eq_some {extEnd fuel pos : Nat} :
    findSni bytes extEnd (fuel + 1) pos = some sni ↔
      pos + 4 ≤ extEnd ∧ ∃ extType extDataLen, u16At bytes pos = some extType ∧
        u16At bytes (pos + 2) = some extDataLen ∧
        (if extType = 0 then readServerName bytes pos extDataLen
          else findSni bytes extEnd fuel (pos + 4 + extDataLen)) = some sni := by
  by_cases hend : pos + 4 ≤ extEnd
  · simp [findSni, show pos < extEnd by omega, show ¬extEnd < pos + 4 by omega, hend,
      Option.bind_eq_some_iff]
  · simp [findSni, hend]

theorem findSni_of_walks {extEnd fuel offset target extDataLen : Nat} (h : Walks bytes offset target)
    (htype : u16At bytes target = some 0) (hlen : u16At bytes (target + 2) = some extDataLen)
    (hfuel : extEnd - offset ≤ fuel) :
    findSni bytes extEnd fuel offset =
      if target + 4 ≤ extEnd then readServerName bytes target extDataLen else none := by
  induction h generalizing fuel with
  | here offset =>
      cases fuel with
      | zero => rw [findSni, if_neg (by omega)]
      | succ fuel =>
          rw [findSni, htype, hlen]
          split
          · split
            · rw [if_neg (by omega)]
            · rw [if_pos (by omega)]
              rfl
          · rw [if_neg (by omega)]
  | @step offset extType extLen target hother hne hskip hrest ih =>
      have hle := hrest.le
      cases fuel with
      | zero => rw [findSni, if_neg (by omega)]
      | succ fuel =>
          rw [findSni, hother, hskip]
          split
          · split
            · rw [if_neg (by omega)]
            · simp only [Option.bind_eq_bind, Option.bind_some, if_neg hne]
              exact ih htype hlen (by omega)
          · rw [if_neg (by omega)]

theorem readServerName_eq_some {pos extDataLen : Nat} :
    readServerName bytes pos extDataLen = some sni ↔
      5 ≤ extDataLen ∧ (∃ n, u16At bytes (pos + 4) = some n) ∧
        byteAt bytes (pos + 6) = some 0 ∧ u16At bytes (pos + 7) = some sni.oldDomainLen ∧
        sni.sniExtOffset = pos ∧ sni.sniListLenOffset = pos + 4 ∧ sni.sniNameLenOffset = pos + 7 ∧
        sni.oldDomainOffset = pos + 9 := by
  constructor
  · intro h
    simp only [readServerName, Option.bind_eq_bind, Option.pure_def] at h
    split at h <;> [skip; cases h]
    obtain ⟨n, hn, h⟩ := Option.bind_eq_some_iff.mp h
    split at h <;> [skip; cases h]
    obtain ⟨t, ht, h⟩ := Option.bind_eq_some_iff.mp h
    split at h <;> [skip; cases h]
    obtain ⟨l, hl, h⟩ := Option.bind_eq_some_iff.mp h
    subst t
    obtain rfl := Option.some.inj h
    exact ⟨by omega, ⟨n, hn⟩, ht, hl, rfl, rfl, rfl, rfl⟩
  · rintro ⟨hlen, ⟨n, hn⟩, ht, hl, rfl, hlist, hname, hdomain⟩
    rw [readServerName, if_pos (by omega), if_pos (by omega)]
    simp only [hn, ht, hl, Option.bind_eq_bind, Option.bind_some, if_true, Option.pure_def]
    rw [← hlist]
    congr 1
    cases sni
    simp_all

theorem readServerName_of_marks (h : MarksOf bytes marks) :
    readServerName bytes marks.sniExtOffset marks.extDataLen =
      if 5 ≤ marks.extDataLen then some marks.sniOffsets else none := by
  split
  · rename_i hfive
    have hbound := u16At_bound h.name
    obtain ⟨listLen, hlist⟩ := fieldAt_exists bytes (marks.sniExtOffset + 4) 2 (by omega)
    rw [← u16At_eq_fieldAt] at hlist
    exact readServerName_eq_some.mpr ⟨hfive, ⟨listLen, hlist⟩, h.nameType, h.name, rfl, rfl, rfl, rfl⟩
  · rename_i hshort
    rw [Option.eq_none_iff_forall_ne_some]
    intro sni hsni
    exact hshort (readServerName_eq_some.mp hsni).1

-- SniSpoofer wants the head of the extension within the extensions, and a length of the data of at
-- least five.
theorem locateSni_of_marks (hfirst : byteAt bytes 0 = some 0x16) (hkind : byteAt bytes 5 = some 1)
    (h : MarksOf bytes marks) :
    locateSni bytes =
      if marks.extEnd ≤ bytes.length ∧ marks.sniExtOffset + 4 ≤ marks.extEnd ∧ 5 ≤ marks.extDataLen then
        some (marks.extLenOffset, marks.extLen, marks.sniOffsets)
      else none := by
  have hwalk := @findSni_of_walks bytes marks.extEnd (marks.extEnd - (marks.extLenOffset + 2)) _ _ _ h.walks h.extType
    h.extension (Nat.le_refl _)
  unfold Marks.extEnd at hwalk
  rw [readServerName_of_marks h] at hwalk
  rw [locateSni, extensionsAt_of_marks hfirst hkind h]
  unfold Marks.extEnd
  by_cases hend : marks.extLenOffset + 2 + marks.extLen ≤ bytes.length
  · simp only [hend, if_true, Option.bind_eq_bind, Option.bind_some, hwalk, true_and]
    by_cases hhead : marks.sniExtOffset + 4 ≤ marks.extLenOffset + 2 + marks.extLen
    · by_cases hfive : 5 ≤ marks.extDataLen
      · simp [hhead, hfive]
      · simp [hhead, hfive]
    · simp [hhead]
  · simp [hend]

-- What the walk has passed, and what it has read where it stops.
theorem walks_of_findSni {extEnd fuel offset : Nat} (h : findSni bytes extEnd fuel offset = some sni) :
    Walks bytes offset sni.sniExtOffset ∧ u16At bytes sni.sniExtOffset = some 0 ∧ ∃ extDataLen,
      u16At bytes (sni.sniExtOffset + 2) = some extDataLen ∧
        readServerName bytes sni.sniExtOffset extDataLen = some sni := by
  induction fuel generalizing offset with
  | zero => cases h
  | succ fuel ih =>
      obtain ⟨_, extType, extDataLen, htype, hlen, h⟩ := findSni_succ_eq_some.mp h
      split at h
      · rename_i hzero
        subst hzero
        obtain ⟨_, _, _, _, rfl, _⟩ := readServerName_eq_some.mp h
        exact ⟨.here _, htype, extDataLen, hlen, h⟩
      · rename_i hne
        obtain ⟨hwalks, hrest⟩ := ih h
        exact ⟨.step htype hne hlen hwalks, hrest⟩

theorem locateSni_eq_some :
    locateSni bytes = some (extLenOffset, extLen, sni) ↔
      extensionsAt bytes = some (extLenOffset, extLen) ∧
        findSni bytes (extLenOffset + 2 + extLen) extLen (extLenOffset + 2) = some sni := by
  simp only [locateSni, Option.bind_eq_bind, Option.bind_eq_some_iff, Option.pure_def,
    Option.some.injEq, Prod.exists, Prod.mk.injEq]
  constructor
  · rintro ⟨offset, len, hat, found, hfind, rfl, rfl, rfl⟩
    refine ⟨hat, ?_⟩
    rwa [show offset + 2 + len - (offset + 2) = len by omega] at hfind
  · rintro ⟨hat, hfind⟩
    refine ⟨extLenOffset, extLen, hat, sni, ?_, rfl, rfl, rfl⟩
    rwa [show extLenOffset + 2 + extLen - (extLenOffset + 2) = extLen by omega]

theorem exists_marks (h : locateSni bytes = some (extLenOffset, extLen, sni)) :
    byteAt bytes 5 = some 1 ∧ ∃ marks, MarksOf bytes marks := by
  obtain ⟨hat, hfind⟩ := locateSni_eq_some.mp h
  obtain ⟨hwalks, htype, extDataLen, hlen, hread⟩ := walks_of_findSni hfind
  obtain ⟨_, _, hnameType, hname, _⟩ := readServerName_eq_some.mp hread
  simp only [extensionsAt, Option.bind_eq_bind, Option.pure_def, Option.bind_eq_some_iff, returnNullIf_eq_some,
    exists_const, Option.some.injEq, Prod.mk.injEq, ne_eq, not_not] at hat
  obtain ⟨_, _, _, _, kind, hkind, rfl, sessionIdLen, hsession, _, cipherSuitesLen, hsuites, _, compMethodsLen,
    hmethods, _, len, hext, _, hoffset, rfl⟩ := hat
  have hparameters : extLenOffset = 47 + sessionIdLen + cipherSuitesLen + compMethodsLen := by omega
  refine ⟨hkind, ⟨extLenOffset, len, sni.sniExtOffset, extDataLen, sni.oldDomainLen⟩, ?_, ?_, hwalks, htype, hlen,
    hnameType, hname⟩
  · refine ⟨sessionIdLen, cipherSuitesLen, compMethodsLen, hsession, ?_, ?_, hparameters⟩
    · rw [← hsuites]
      congr 1
      omega
    · rw [← hmethods]
      congr 1
      omega
  · rw [hoffset] at hext
    exact hext

end ToInet.FakeVpn
