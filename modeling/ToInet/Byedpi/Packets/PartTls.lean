import ToInet.Byedpi.OptionLoop
import ToInet.Lib.TlsRecords

-- A ClientHello in several records, as desync of byedpi cuts it.
namespace ToInet.Byedpi.Packets

open ToInet.Lib ToInet.Byedpi.OptionLoop

-- n bytes of the buffer are in use. none is the result 0, and a position behind the end of the record
-- leaves the buffer as it is.
def partTls (buffer : Bytes) (n : Nat) (pos : Int) : Option Bytes :=
  if n < 3 ∨ buffer.length - n < 5 ∨ pos < 0 ∨ n < pos + 5 then none
  else
    let rSz := antohs buffer 3
    if rSz < pos then some buffer
    else
      let p := pos.toNat
      let moved := overwrite buffer (5 + p + 5) ((buffer.take n).drop (5 + p))
      let copied := overwrite moved (5 + p) (moved.take 3)
      some (shtona (shtona copied 3 pos) (5 + p + 3) (rSz - pos))

-- The loop over the positions of tlsrec, with the host at hostOffs. It ends at the first one that lies before
-- the last cut or that partTls refuses.
def tlsrecLoop (hostOffs : Int) : List Part → (i lp : Nat) → (buffer : Bytes) → (n : Nat) → Bytes × Nat
  | [], _, _, buffer, n => (buffer, n)
  | part :: parts, i, lp, buffer, n =>
      let pos := part.pos + i * 5
      let pos := if part.flag = .sni then pos + (hostOffs - 5) else if pos < 0 then pos + n else pos
      if pos < lp then (buffer, n)
      else
        match partTls (buffer.drop lp) (n - lp) (pos - lp) with
        | none => (buffer, n)
        | some cut => tlsrecLoop hostOffs parts (i + 1) (pos.toNat + 5) (buffer.take lp ++ cut) (n + 5)

theorem overwrite_append {before old data after : Bytes} (h : data.length = old.length) :
    overwrite (before ++ old ++ after) before.length data = before ++ data ++ after := by
  rw [overwrite, List.append_assoc before, List.take_left, h, List.drop_append, ← List.append_assoc]
  rw [List.drop_eq_nil_of_le (Nat.le_add_right _ _), Nat.add_sub_cancel_left, List.drop_left, List.nil_append]
  exact List.take_of_length_le (by simp [h])

theorem overwrite_of_eq {buffer before data after : Bytes} (old : Bytes) {i : Nat}
    (hbuffer : buffer = before ++ old ++ after) (hi : before.length = i) (h : data.length = old.length) :
    overwrite buffer i data = before ++ data ++ after := by
  subst hbuffer hi
  exact overwrite_append h

theorem antohs_of_eq {buffer before : Bytes} (after : Bytes) {i n : Nat}
    (hbuffer : buffer = before ++ beBytes 2 n ++ after)
    (hi : before.length = i) (hn : n < 2 ^ 16) : antohs buffer i = n := by
  have hfield := beNat_beBytes 2 n (by norm_num; exact hn)
  subst hbuffer hi
  obtain ⟨a, b, hab⟩ := List.length_eq_two.mp (length_beBytes 2 (n : Int))
  rw [hab] at hfield ⊢
  simp only [beNat] at hfield
  simp [antohs, ← hfield]

-- A cut of a buffer that starts with a record, whose parts are named by their places.
theorem partTls_cut {head : Bytes} (p q : Bytes) {room : Bytes} (tail : Bytes) {rSz : Nat} (hhead : head.length = 3)
    (hroom : room.length = 5)
    (hsize : rSz < 2 ^ 16) (hp : p.length ≤ rSz) :
    partTls (head ++ beBytes 2 rSz ++ p ++ q ++ room ++ tail) (5 + p.length + q.length) p.length =
      some (head ++ beBytes 2 p.length ++ p ++ head ++ beBytes 2 ((rSz : Int) - p.length) ++ q ++ tail) := by
  have hguard : ¬(5 + p.length + q.length < 3 ∨
      (head ++ beBytes 2 rSz ++ p ++ q ++ room ++ tail).length - (5 + p.length + q.length) < 5 ∨
        (p.length : Int) < 0 ∨ ((5 + p.length + q.length : Nat) : Int) < p.length + 5) := by
    simp only [List.length_append, length_beBytes, hhead, hroom]
    omega
  have hr : antohs (head ++ beBytes 2 rSz ++ p ++ q ++ room ++ tail) 3 = rSz :=
    antohs_of_eq (p ++ q ++ room ++ tail) (by simp) hhead hsize
  have hq : ((head ++ beBytes 2 rSz ++ p ++ q ++ room ++ tail).take (5 + p.length + q.length)).drop
      (5 + p.length) = q := by
    rw [show head ++ beBytes 2 rSz ++ p ++ q ++ room ++ tail = (head ++ beBytes 2 rSz ++ p ++ q) ++ (room ++ tail)
      by simp, List.take_left' (by simp [hhead]; omega), List.drop_left' (by simp [hhead]; omega)]
  -- Five bytes of room open between p and q; the header goes there.
  have hmoved : overwrite (head ++ beBytes 2 rSz ++ p ++ q ++ room ++ tail) (5 + p.length + 5) q =
      head ++ beBytes 2 rSz ++ p ++ (q ++ room).take 5 ++ q ++ tail := by
    refine overwrite_of_eq ((q ++ room).drop 5) ?_ ?_ ?_
    · simp only [List.append_assoc, List.take_append_drop]
    · simp [hhead, hroom]
      omega
    · simp [hroom]
  obtain ⟨x, y, hxy, hx⟩ : ∃ x y, (q ++ room).take 5 = x ++ y ∧ x.length = 3 ∧ y.length = 2 :=
    ⟨((q ++ room).take 5).take 3, ((q ++ room).take 5).drop 3, (List.take_append_drop 3 _).symm,
      by simp [hroom], by simp [hroom]⟩
  have hcopied : overwrite (head ++ beBytes 2 rSz ++ p ++ (x ++ y) ++ q ++ tail) (5 + p.length) head =
      head ++ beBytes 2 rSz ++ p ++ head ++ (y ++ q ++ tail) := by
    refine overwrite_of_eq x (by simp) (by simp [hhead]; omega) (by rw [hhead, hx.1])
  have hfirst : shtona (head ++ beBytes 2 rSz ++ p ++ head ++ (y ++ q ++ tail)) 3 p.length =
      head ++ beBytes 2 p.length ++ (p ++ head ++ (y ++ q ++ tail)) :=
    overwrite_of_eq (beBytes 2 rSz) (by simp) hhead (by simp)
  have hsecond : shtona (head ++ beBytes 2 p.length ++ (p ++ head ++ (y ++ q ++ tail))) (5 + p.length + 3)
      (rSz - p.length) = head ++ beBytes 2 p.length ++ p ++ head ++ beBytes 2 ((rSz : Int) - p.length) ++ (q ++ tail) :=
    overwrite_of_eq y (by simp) (by simp [hhead]; omega) (by simp [hx.2])
  rw [partTls, if_neg hguard]
  simp only [hr, Int.toNat_natCast]
  rw [if_neg (by exact_mod_cast hp.not_gt), hq, hmoved, hxy]
  rw [show (head ++ beBytes 2 rSz ++ p ++ (x ++ y) ++ q ++ tail).take 3 = head by
    rw [List.append_assoc, List.append_assoc, List.append_assoc, List.append_assoc, List.take_left' hhead]]
  rw [hcopied, hfirst, hsecond, List.append_assoc _ q tail]

theorem le_of_partTls {buffer cut : Bytes} {n : Nat} {pos : Int} (h : partTls buffer n pos = some cut) :
    0 ≤ pos ∧ pos + 5 ≤ n ∧ 5 ≤ buffer.length - n := by
  rw [partTls] at h
  split at h
  case isTrue => cases h
  case isFalse hguard => omega

theorem length_overwrite (buffer : Bytes) (i : Nat) (data : Bytes) :
    (overwrite buffer i data).length = buffer.length := by
  simp only [overwrite, List.length_take, List.length_append, List.length_drop]
  omega

theorem length_of_partTls {buffer cut : Bytes} {n : Nat} {pos : Int} (h : partTls buffer n pos = some cut) :
    cut.length = buffer.length := by
  rw [partTls] at h
  split at h
  case isTrue => cases h
  case isFalse =>
    simp only at h
    split at h <;> obtain rfl := Option.some.inj h
    · rfl
    · simp only [shtona, length_overwrite]

-- Cuts make the request longer, as far as the buffer has room.
theorem le_tlsrecLoop (hostOffs : Int) {parts : List Part} {i lp n : Nat} {buffer : Bytes} (hlp : lp ≤ n)
    (hn : n ≤ buffer.length) :
    n ≤ (tlsrecLoop hostOffs parts i lp buffer n).2 ∧ (tlsrecLoop hostOffs parts i lp buffer n).2 ≤
      (tlsrecLoop hostOffs parts i lp buffer n).1.length := by
  induction parts generalizing i lp n buffer with
  | nil => exact ⟨le_rfl, hn⟩
  | cons part parts ih =>
      rw [tlsrecLoop]
      generalize (if part.flag = .sni then part.pos + i * 5 + (hostOffs - 5)
        else if part.pos + i * 5 < 0 then part.pos + i * 5 + n else part.pos + i * 5) = pos
      split
      case isTrue => exact ⟨le_rfl, hn⟩
      case isFalse hpos =>
        cases hcut : partTls (buffer.drop lp) (n - lp) (pos - lp) with
        | none => exact ⟨le_rfl, hn⟩
        | some cut =>
            obtain ⟨-, hle, hroom⟩ := le_of_partTls hcut
            have hlength := length_of_partTls hcut
            rw [List.length_drop] at hroom hlength
            have hnext : (buffer.take lp ++ cut).length = buffer.length := by
              rw [List.length_append, List.length_take_of_le (hlp.trans hn), hlength]
              omega
            have hlp' : pos.toNat + 5 ≤ n + 5 := by omega
            have hn' : n + 5 ≤ (buffer.take lp ++ cut).length := by omega
            obtain ⟨hgrows, hfits⟩ := @ih (i + 1) (pos.toNat + 5) (n + 5) (buffer.take lp ++ cut) hlp' hn'
            exact ⟨(Nat.le_add_right n 5).trans hgrows, hfits⟩

-- What a cut makes of n bytes at the start of a record, and of the rest of the record.
theorem partTls_spec {buffer cut : Bytes} {n : Nat} {pos : Int} {r : TlsRecord} (hbuffer : n ≤ buffer.length)
    (hr : buffer.take n <+: r.encode) (h : partTls buffer n pos = some cut) :
    cut.length = buffer.length ∧ cut.take (pos.toNat + 5) = (r.left pos.toNat).encode ∧
      (cut.drop (pos.toNat + 5)).take (n - pos.toNat) <+: (r.right pos.toNat).encode := by
  obtain ⟨hpos, hn, hroom⟩ := le_of_partTls h
  obtain ⟨k, rfl⟩ := Int.eq_ofNat_of_zero_le hpos
  have hlen := hr.length_le
  rw [List.length_take_of_le hbuffer, r.length_encode] at hlen
  have hk : k + 5 ≤ n := by omega
  -- The buffer is the header, the fragment up to k, the fragment up to n, room for a header, and the rest.
  have htake : buffer.take n = r.head ++ beBytes 2 r.fragment.length ++ r.fragment.take k ++
      (r.fragment.take (n - 5)).drop k := by
    have htaken := List.prefix_iff_eq_take.mp hr
    rw [List.length_take_of_le hbuffer, r.take_encode (by omega)] at htaken
    have hfragment := List.take_append_drop k (r.fragment.take (n - 5))
    rw [List.take_take, min_eq_left (by omega)] at hfragment
    rw [htaken, List.append_assoc _ (List.take k _), hfragment]
  have hsplit : buffer = r.head ++ beBytes 2 r.fragment.length ++ r.fragment.take k ++
      (r.fragment.take (n - 5)).drop k ++ (buffer.drop n).take 5 ++ (buffer.drop n).drop 5 := by
    rw [← htake, List.append_assoc, List.take_append_drop, List.take_append_drop]
  have hlk : (r.fragment.take k).length = k := List.length_take_of_le (by omega)
  have hlq : ((r.fragment.take (n - 5)).drop k).length = n - 5 - k := by
    rw [List.length_drop, List.length_take_of_le (by omega)]
  have hcut := partTls_cut (r.fragment.take k) ((r.fragment.take (n - 5)).drop k) ((buffer.drop n).drop 5) r.length_head
    (by rw [List.length_take_of_le]; rw [List.length_drop]; omega) r.length_fragment (by rw [hlk]; omega)
  rw [← hsplit, hlk, hlq, show 5 + k + (n - 5 - k) = n by omega] at hcut
  obtain rfl := Option.some.inj (h.symm.trans hcut)
  have hleft : (r.left k).encode = r.head ++ beBytes 2 k ++ r.fragment.take k := by
    rw [TlsRecord.encode, TlsRecord.left, hlk]
  have hright : (r.right k).encode = r.head ++ beBytes 2 ((r.fragment.length : Int) - k) ++ r.fragment.drop k := by
    rw [TlsRecord.encode, TlsRecord.right, List.length_drop, Nat.cast_sub (by omega)]
  have hassoc : r.head ++ beBytes 2 k ++ r.fragment.take k ++ r.head ++ beBytes 2 ((r.fragment.length : Int) - k) ++
      (r.fragment.take (n - 5)).drop k ++ (buffer.drop n).drop 5 = (r.head ++ beBytes 2 k ++ r.fragment.take k) ++
        ((r.head ++ beBytes 2 ((r.fragment.length : Int) - k) ++ (r.fragment.take (n - 5)).drop k) ++
          (buffer.drop n).drop 5) := by simp
  have hfirst : (r.head ++ beBytes 2 k ++ r.fragment.take k).length = k + 5 := by
    simp only [List.length_append, length_beBytes, r.length_head, hlk]
    omega
  simp only [Int.toNat_natCast]
  refine ⟨?_, ?_, ?_⟩
  · have hbl := congrArg List.length hsplit
    simp only [List.length_append, length_beBytes, r.length_head, hlk, hlq, List.length_take, List.length_drop] at hbl ⊢
    omega
  · rw [hassoc, hleft]
    exact List.take_left' hfirst
  · rw [hassoc, List.drop_left' hfirst, hright, List.take_left' (by simp [r.length_head, hlq]; omega),
      List.prefix_append_right_inj, List.drop_take]
    exact List.take_prefix _ _

-- The bytes before lp are done, and those from lp to n stand for a record from its start: so the loop finds the
-- buffer, and the result stands for the same record in the same way, in one record or in more of them.
structure TlsrecSpec (buffer : Bytes) (lp n : Nat) (r : TlsRecord) (result : Bytes × Nat) : Prop where
  le : n ≤ result.2
  length : result.1.length = buffer.length
  room : result.2 ≤ buffer.length
  done : result.1.take lp = buffer.take lp
  records : ∃ records, TlsRecord.Refragments records r ∧
    (result.1.drop lp).take (result.2 - lp) ++ r.encode.drop (n - lp) = TlsRecord.encodeAll records

theorem tlsrecSpec_break {lp n : Nat} {buffer : Bytes} {r : TlsRecord} (hlp : lp ≤ n) (hn : n ≤ buffer.length)
    (hr : (buffer.drop lp).take (n - lp) <+: r.encode) : TlsrecSpec buffer lp n r (buffer, n) := by
  refine ⟨le_rfl, rfl, hn, rfl, [r], TlsRecord.refragments_self r, ?_⟩
  have hlen : ((buffer.drop lp).take (n - lp)).length = n - lp := by
    rw [List.length_take_of_le]
    rw [List.length_drop]
    omega
  have htaken := List.prefix_iff_eq_take.mp hr
  rw [hlen] at htaken
  simp only [TlsRecord.encodeAll, List.flatMap_singleton]
  rw [htaken, List.take_append_drop]

theorem tlsrecSpec_cut {lp n p : Nat} {buffer cut : Bytes} {r : TlsRecord} {result : Bytes × Nat}
    (hlp : lp ≤ n) (hp : lp + p + 5 ≤ n) (hn : n ≤ buffer.length) (hlength : cut.length = (buffer.drop lp).length)
    (hleft : cut.take (p + 5) = (r.left p).encode)
    (h : TlsrecSpec (buffer.take lp ++ cut) (lp + p + 5) (n + 5) (r.right p) result) :
    TlsrecSpec buffer lp n r result := by
  have htake : (buffer.take lp).length = lp := List.length_take_of_le (hlp.trans hn)
  have hbuffer : (buffer.take lp ++ cut).length = buffer.length := by
    rw [List.length_append, htake, hlength, List.length_drop]
    omega
  obtain ⟨hle, hlen, hroom, hdone, records, hrecords, hstream⟩ := h
  have hdone' : (result.1.drop lp).take (p + 5) = (r.left p).encode := by
    rw [← hleft, List.take_drop, show lp + (p + 5) = lp + p + 5 by omega, hdone, List.take_append, htake,
      List.take_of_length_le (by omega), List.drop_left' htake]
    congr 1
    omega
  refine ⟨by omega, by rw [hlen, hbuffer], by omega, ?_, r.left p :: records, hrecords.cons, ?_⟩
  · have hdone'' := congrArg (List.take lp) hdone
    rw [List.take_take, List.take_take, min_eq_left (by omega), List.take_left' htake] at hdone''
    exact hdone''
  · rw [show result.2 - lp = (p + 5) + (result.2 - (lp + p + 5)) by omega, List.take_add, hdone', List.drop_drop,
      show lp + (p + 5) = lp + p + 5 by omega, List.append_assoc]
    rw [show n + 5 - (lp + p + 5) = n - lp - p by omega, r.drop_encode_right (by omega)] at hstream
    rw [hstream]
    rfl

theorem tlsrecLoop_spec (hostOffs : Int) {parts : List Part} {i lp n : Nat} {buffer : Bytes} {r : TlsRecord}
    (hlp : lp ≤ n) (hn : n ≤ buffer.length) (hr : (buffer.drop lp).take (n - lp) <+: r.encode) :
    TlsrecSpec buffer lp n r (tlsrecLoop hostOffs parts i lp buffer n) := by
  induction parts generalizing i lp n buffer r with
  | nil => exact tlsrecSpec_break hlp hn hr
  | cons part parts ih =>
      rw [tlsrecLoop]
      generalize (if part.flag = .sni then part.pos + i * 5 + (hostOffs - 5)
        else if part.pos + i * 5 < 0 then part.pos + i * 5 + n else part.pos + i * 5) = pos
      split
      case isTrue => exact tlsrecSpec_break hlp hn hr
      case isFalse hpos =>
        have hlen : n - lp ≤ (buffer.drop lp).length := by
          rw [List.length_drop]
          omega
        cases hcut : partTls (buffer.drop lp) (n - lp) (pos - lp) with
        | none => exact tlsrecSpec_break hlp hn hr
        | some cut =>
            obtain ⟨hlength, hleft, hright⟩ := partTls_spec hlen hr hcut
            obtain ⟨-, hle, hroom⟩ := le_of_partTls hcut
            rw [List.length_drop] at hroom hlength
            have hnext : lp + (pos - lp).toNat + 5 = pos.toNat + 5 := by omega
            have htake : (buffer.take lp).length = lp := List.length_take_of_le (hlp.trans hn)
            refine tlsrecSpec_cut (p := (pos - lp).toNat) hlp (by omega) hn (by rw [hlength, List.length_drop]) hleft ?_
            rw [hnext]
            refine ih (by omega) ?_ ?_
            · rw [List.length_append, htake, hlength]
              omega
            · rw [← hnext, List.drop_append, htake, List.drop_eq_nil_of_le (by omega), List.nil_append,
                show lp + (pos - lp).toNat + 5 - lp = (pos - lp).toNat + 5 by omega]
              rwa [show n + 5 - (lp + (pos - lp).toNat + 5) = n - lp - (pos - lp).toNat by omega]

-- Whatever positions are asked for, what is sent of a ClientHello and what is still to come of it is its
-- fragment, in records of the same type.
theorem tlsrec_refragments (hostOffs : Int) (parts : List Part) {n : Nat} {buffer : Bytes} {r : TlsRecord}
    (hn : n ≤ buffer.length) (hr : buffer.take n <+: r.encode) :
    let result := tlsrecLoop hostOffs parts 0 0 buffer n
    result.2 ≤ result.1.length ∧ ∃ records, TlsRecord.Refragments records r ∧
      result.1.take result.2 ++ r.encode.drop n = TlsRecord.encodeAll records := by
  have hspec : TlsrecSpec buffer 0 n r (tlsrecLoop hostOffs parts 0 0 buffer n) :=
    tlsrecLoop_spec hostOffs (Nat.zero_le n) hn (by simpa using hr)
  refine ⟨by rw [hspec.length]; exact hspec.room, ?_⟩
  simpa using hspec.records

-- A record of eight bytes that has come but for its last one, with room for one more header.
def shortHello : TlsRecord where
  head := [0x16, 3, 1]
  fragment := [1, 2, 3, 4, 5, 6, 7, 8]
  length_head := rfl
  length_fragment := by decide

theorem tlsrec_refragments_shortHello :
    let result := tlsrecLoop 0 [⟨.none, .start, 3⟩] 0 0 ([0x16, 3, 1, 0, 8, 1, 2, 3, 4, 5, 6, 7] ++ List.replicate 6 0)
      12
    result.2 ≤ result.1.length ∧ ∃ records, TlsRecord.Refragments records shortHello ∧
      result.1.take result.2 ++ shortHello.encode.drop 12 = TlsRecord.encodeAll records :=
  tlsrec_refragments 0 [⟨.none, .start, 3⟩] (by decide) (by decide)

example : (tlsrecLoop 0 [⟨.none, .start, 3⟩] 0 0 ([0x16, 3, 1, 0, 8, 1, 2, 3, 4, 5, 6, 7] ++ List.replicate 6 0) 12).1 =
    [0x16, 3, 1, 0, 3, 1, 2, 3, 0x16, 3, 1, 0, 5, 4, 5, 6, 7, 0] := by decide

end ToInet.Byedpi.Packets
