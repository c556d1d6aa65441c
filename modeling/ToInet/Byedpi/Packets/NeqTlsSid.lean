import ToInet.Byedpi.Packets.ChangeSni
import ToInet.Byedpi.Packets.IsHttpRedirect

-- Whether the answer to a ClientHello has another session id.
namespace ToInet.Byedpi.Packets

open ToInet.Lib ToInet.Lib.TlsExtension

-- Whether n bytes differ. none is a comparison that leaves a buffer.
def memcmp (n : Nat) (memory other : Bytes) : Option Bool :=
  if memory.length < n ∨ other.length < n then none else some (memory.take n ≠ other.take n)

-- The extensions of the answer are looked for behind a session id of the length that the request has.
def neqTlsSid (req resp : Received) : Option Bool :=
  if req.data.length < 75 ∨ resp.data.length < 75 then some false
  else if isTlsChello req.data = false ∨ antohs resp.data 0 ≠ 0x1603 then some false
  else
    let sidLen := (req.data.getD 43 0).toNat
    if findTlsExtOffset 0x2b resp.data (44 + sidLen + 3) = 0 then some false
    else if req.data.getD 43 0 ≠ resp.data.getD 43 0 then some true
    else memcmp sidLen (req.memory.drop 44) (resp.memory.drop 44)

-- A hello has its session id behind 43 bytes.
structure HasSid (data front sid rest : Bytes) : Prop where
  eq_append : data = front ++ UInt8.ofNat sid.length :: (sid ++ rest)
  length_front : front.length = 43
  length_lt : sid.length < 2 ^ 8

-- A ServerHello with what it chooses, and its extensions. The extension for the version is not empty.
structure ServerHello where
  head : Bytes
  sid : Bytes
  choice : Bytes
  extensions : List TlsExtension
  handshake : antohs head 0 = 0x1603
  length_head : head.length = 43
  length_sid : sid.length < 2 ^ 8
  length_choice : choice.length = 3
  length_extensions : (encodeAll extensions).length < 2 ^ 16
  version : ∀ e ∈ extensions, e.type = 0x2b → e.data ≠ []

namespace ServerHello

def front (h : ServerHello) : Bytes := h.head ++ UInt8.ofNat h.sid.length :: (h.sid ++ h.choice)

def first (h : ServerHello) : Bytes := h.front ++ beBytes 2 (encodeAll h.extensions).length

def data (h : ServerHello) : Bytes := h.first ++ encodeAll h.extensions

end ServerHello

variable {h : ServerHello} {req : Received} {data front sid rest behind : Bytes}

theorem HasSid.getD (hdata : HasSid data front sid rest) : data.getD 43 0 = UInt8.ofNat sid.length := by
  rw [hdata.eq_append, List.getD_eq_getElem?_getD, List.getElem?_append_right hdata.length_front.le,
    hdata.length_front]
  rfl

theorem HasSid.toNat_getD (hdata : HasSid data front sid rest) : (data.getD 43 0).toNat = sid.length := by
  rw [hdata.getD, UInt8.toNat_ofNat', Nat.mod_eq_of_lt hdata.length_lt]

theorem HasSid.drop (hdata : HasSid data front sid rest) : data.drop 44 = sid ++ rest := by
  have hlength : (front ++ [UInt8.ofNat sid.length]).length = 44 := by
    rw [List.length_append, hdata.length_front, List.length_singleton]
  rw [hdata.eq_append, ← List.singleton_append, ← List.append_assoc, List.drop_left' hlength]

theorem ServerHello.hasSid (h : ServerHello) :
    HasSid h.data h.head h.sid (h.choice ++ (beBytes 2 (encodeAll h.extensions).length ++ encodeAll h.extensions)) where
  eq_append := by
    rw [data, first, front]
    simp only [List.append_assoc, List.cons_append]
  length_front := h.length_head
  length_lt := h.length_sid

theorem ServerHello.length_front (h : ServerHello) : h.front.length = 44 + h.sid.length + 3 := by
  rw [front, List.length_append, List.length_cons, List.length_append, h.length_head, h.length_choice]
  omega

-- Without an extension of the type nothing is found.
theorem findTlsExt_eq_zero {type : Nat} {extensions : List TlsExtension} (fuel : Nat) (first : Bytes)
    (htypes : ∀ e ∈ extensions, e.type ≠ type) :
    findTlsExt type (first ++ encodeAll extensions) (first ++ encodeAll extensions).length fuel first.length = 0 := by
  induction extensions generalizing fuel first with
  | nil =>
      cases fuel with
      | zero => rfl
      | succ fuel =>
          have hend : ¬first.length + 4 < (first ++ encodeAll []).length := by
            rw [List.length_append]
            exact Nat.not_lt.mpr (Nat.add_le_add_left (Nat.zero_le 4) _)
          rw [findTlsExt, if_neg hend]
  | cons e extensions ih =>
      cases fuel with
      | zero => rfl
      | succ fuel =>
          have hread := antohs_encode first (encodeAll extensions) e rfl
          have hskip : first.length + (e.data.length + 4) = (first ++ e.encode).length := by
            rw [List.length_append, length_encode]
          rw [encodeAll_cons, findTlsExt, hread.1, hread.2]
          split
          case isTrue =>
            rw [if_neg (htypes e List.mem_cons_self).symm, ← List.append_assoc, hskip]
            exact ih fuel _ fun x hx => htypes x (List.mem_cons_of_mem _ hx)
          case isFalse => rfl

-- The extension for the version is found exactly if the ServerHello has it.
theorem ServerHello.findTlsExtOffset_eq_zero_iff (h : ServerHello) :
    findTlsExtOffset 0x2b h.data (44 + h.sid.length + 3) = 0 ↔ ∀ e ∈ h.extensions, e.type ≠ 0x2b := by
  have hfirst : h.first.length = 44 + h.sid.length + 3 + 2 := by
    rw [first, List.length_append, h.length_front, length_beBytes]
  have hdata : h.data.length = 44 + h.sid.length + 3 + 2 + (encodeAll h.extensions).length := by
    rw [data, List.length_append, hfirst]
  have hextensions : antohs h.data (44 + h.sid.length + 3) = (encodeAll h.extensions).length :=
    antohs_of_eq (encodeAll h.extensions) rfl h.length_front h.length_extensions
  by_cases hend : h.data.length ≤ 44 + h.sid.length + 3 + 2
  · have hnone : h.extensions = [] := by
      have hcount := length_le_encodeAll h.extensions
      rw [← List.length_eq_zero_iff]
      omega
    rw [findTlsExtOffset, if_pos hend, hnone]
    exact iff_of_true rfl fun _ hmem => absurd hmem List.not_mem_nil
  · have hoffset : findTlsExtOffset 0x2b h.data (44 + h.sid.length + 3) =
        findTlsExt 0x2b h.data h.data.length h.data.length h.first.length := by
      rw [findTlsExtOffset, if_neg hend, hextensions, hfirst]
      simp only [hdata]
      rw [Nat.add_comm (encodeAll h.extensions).length, min_self]
    rw [hoffset]
    cases hfind : h.extensions.find? fun e => e.type = 0x2b with
    | none =>
        have htypes : ∀ e ∈ h.extensions, e.type ≠ 0x2b := by
          intro e he htype
          exact absurd (decide_eq_true htype) (List.find?_eq_none.mp hfind e he)
        exact iff_of_true (findTlsExt_eq_zero _ _ htypes) htypes
    | some e =>
        obtain ⟨htype, before, after, hsplit, hbefore⟩ := List.find?_eq_some_iff_append.mp hfind
        have htype := of_decide_eq_true htype
        have hmem : e ∈ h.extensions := List.mem_of_find?_eq_some hfind
        have hcount := length_le_encodeAll h.extensions
        have hlength := congrArg List.length hsplit
        rw [List.length_append, List.length_cons] at hlength
        have hfound := findTlsExt_encodeAll h.data.length h.first e after
          (fun x hx hsame => by simpa [hsame, htype] using hbefore x hx) (by omega)
        rw [if_neg fun hlast => h.version e hmem htype hlast.1, htype, ← hsplit] at hfound
        refine iff_of_false (fun hzero => ?_) fun hnone => hnone e hmem htype
        have hpos := hfound.symm.trans hzero
        omega

theorem memcmp_append (a b : Bytes) {sid other : Bytes} (hlength : sid.length = other.length) :
    memcmp sid.length (sid ++ a) (other ++ b) = some (decide (sid ≠ other)) := by
  rw [memcmp, if_neg (by rw [List.length_append, List.length_append]; omega), List.take_left, hlength, List.take_left]

-- An answer to a ClientHello whose session id has the same length is reported exactly if it is a ServerHello with an
-- extension for the version and another session id. The comparison stays in the buffers.
theorem neqTlsSid_serverHello (hreq : HasSid req.data front sid rest) (hchello : isTlsChello req.data = true)
    (hlength : sid.length = h.sid.length) : ∃ differs, neqTlsSid req { data := h.data, behind } = some differs ∧
      (differs = true ↔ (75 ≤ req.data.length ∧ 75 ≤ h.data.length) ∧
        (∃ e ∈ h.extensions, e.type = 0x2b) ∧ sid ≠ h.sid) := by
  by_cases hshort : req.data.length < 75 ∨ h.data.length < 75
  · rw [neqTlsSid, if_pos hshort]
    exact ⟨false, rfl, iff_of_false Bool.false_ne_true fun hall => by omega⟩
  have hlong : 75 ≤ req.data.length ∧ 75 ≤ h.data.length := by omega
  have hhandshake : antohs h.data 0 = 0x1603 := by
    have hread (i : Nat) (hi : i < 43) : h.data.getD i 0 = h.head.getD i 0 := by
      rw [h.hasSid.eq_append, List.getD_eq_getElem?_getD, List.getD_eq_getElem?_getD,
        List.getElem?_append_left (by rw [h.length_head]; exact hi)]
    rw [← h.handshake, antohs, antohs, hread 0 (by omega), hread 1 (by omega)]
  have hkind : ¬(isTlsChello req.data = false ∨ antohs h.data 0 ≠ 0x1603) := by simp [hchello, hhandshake]
  have hsame : req.data.getD 43 0 = h.data.getD 43 0 := by rw [hreq.getD, h.hasSid.getD, hlength]
  have hreqDrop : req.memory.drop 44 = sid ++ (rest ++ req.behind) := by
    rw [Received.memory, List.drop_append_of_le_length (by omega), hreq.drop, List.append_assoc]
  have hrespDrop : (h.data ++ behind).drop 44 =
      h.sid ++ (h.choice ++ (beBytes 2 (encodeAll h.extensions).length ++ encodeAll h.extensions) ++ behind) := by
    rw [List.drop_append_of_le_length (by omega), h.hasSid.drop, List.append_assoc]
  rw [neqTlsSid, if_neg hshort, if_neg hkind, hreq.toNat_getD, hlength]
  by_cases hversion : ∃ e ∈ h.extensions, e.type = 0x2b
  · have hfound : ¬findTlsExtOffset 0x2b h.data (44 + h.sid.length + 3) = 0 := by
      rw [h.findTlsExtOffset_eq_zero_iff]
      intro hnone
      obtain ⟨e, hmem, htype⟩ := hversion
      exact hnone e hmem htype
    refine ⟨decide (sid ≠ h.sid), ?_, by rw [and_iff_right hlong, and_iff_right hversion, decide_eq_true_iff]⟩
    simp only [if_neg hfound, hsame, ne_eq, not_true_eq_false, if_false]
    rw [hreqDrop, Received.memory, hrespDrop, ← hlength]
    exact memcmp_append _ _ hlength
  · have hnone : findTlsExtOffset 0x2b h.data (44 + h.sid.length + 3) = 0 := by
      rw [h.findTlsExtOffset_eq_zero_iff]
      exact fun e hmem htype => hversion ⟨e, hmem, htype⟩
    refine ⟨false, ?_, iff_of_false Bool.false_ne_true fun hall => hversion hall.2.1⟩
    simp only [if_pos hnone]

theorem versionType_lt : 0x2b < 2 ^ 16 := by decide

-- A ClientHello up to its session id, and a ServerHello with another one.
def sidFront : Bytes := [22, 3, 1, 0, 0, 1] ++ List.replicate 37 0

def sidRequest : Received := { data := sidFront ++ 32 :: (List.replicate 32 1 ++ []), behind := [] }

def otherSid : ServerHello where
  head := [22, 3, 3, 0, 0, 2] ++ List.replicate 37 0
  sid := List.replicate 32 2
  choice := [19, 1, 0]
  extensions := [{ type := 0x2b, data := [3, 4], type_lt := versionType_lt, length_lt := by decide }]
  handshake := by decide
  length_head := by decide
  length_sid := by decide
  length_choice := by decide
  length_extensions := by decide
  version := by
    intro e hmem _
    obtain rfl := List.mem_singleton.mp hmem
    exact List.cons_ne_nil _ _

theorem neqTlsSid_otherSid : neqTlsSid sidRequest { data := otherSid.data, behind := [] } = some true := by
  have hreq : HasSid sidRequest.data sidFront (List.replicate 32 1) [] := ⟨rfl, by decide, by decide⟩
  have hchello : isTlsChello sidRequest.data = true := by decide
  obtain ⟨differs, hdiffers, hiff⟩ := @neqTlsSid_serverHello otherSid sidRequest _ _ _ [] hreq hchello (by decide)
  have htrue := hiff.mpr ⟨by decide, ⟨_, List.mem_cons_self, rfl⟩, by decide⟩
  rw [hdiffers, htrue]

end ToInet.Byedpi.Packets
