import ToInet.Byedpi.Desync

-- A request that takes several calls of desync, because it comes or goes in parts.
namespace ToInet.Byedpi.Desync

open ToInet.Lib ToInet.Byedpi.Conev ToInet.Byedpi.OptionLoop ToInet.Byedpi.Packets

-- What comes from the client before a call, and what the system answers to the call.
structure Call where
  more : Bytes
  attached : Bool
  sends : List Sent

-- returned has the positions that the calls have returned, the last one first.
structure Progress where
  data : Bytes
  offset : Nat
  returned : List Nat
  stream : Bytes
  short : Bool
deriving DecidableEq

def Progress.start : Progress := ⟨[], 0, [], [], false⟩

-- What on_desync_again does, which is called for more data or for what the call before has left.
def Progress.next (dp : DesyncParams) (bfsize : Nat) (p : Progress) (call : Call) : Option Progress :=
  if call.more = [] ∧ p.data.length ≤ p.returned.headD 0 then none
  else
    match desync dp bfsize (p.data ++ call.more) p.offset call.attached call.sends with
    | .ok ⟨stream, short, some pos⟩ =>
        some ⟨p.data ++ call.more, p.offset + pos, pos :: p.returned, p.stream ++ stream, p.short || short⟩
    | _ => none

-- Only the last two calls have sent anything, and no send of a rest has been cut short.
def Progress.Regular (p : Progress) : Prop := p.short = false ∧ ∀ pos ∈ p.returned.drop 2, pos = 0

-- The offset is the sum of the positions, where it should be the last one.
structure Resumed (packet : Bytes) (p : Progress) : Prop where
  offset : p.offset = p.returned.sum
  length_le : p.stream.length ≤ p.returned.headD 0
  fits : p.returned.headD 0 ≤ packet.length
  stream : p.Regular → p.stream = packet.take (p.returned.headD 0)
  regular : p.stream.length = p.returned.headD 0 → p.Regular

variable {dp : DesyncParams} {bfsize : Nat} {packet packet' : Bytes} {p p' : Progress} {call : Call}

theorem resumed_start : Resumed [] Progress.start :=
  ⟨rfl, le_rfl, le_rfl, fun _ => rfl, fun _ => ⟨rfl, fun _ hpos => absurd hpos List.not_mem_nil⟩⟩

theorem sum_headD (l : List Nat) : l.sum = l.headD 0 + l.tail.sum := by
  cases l with
  | nil => rfl
  | cons r l => rfl

-- The packet of a call goes on with that of the call before.
theorem Resumed.next {sending : Sending} {pos : Nat} (h : Resumed packet p) (hgrows : packet <+: packet')
    (hdue : p.returned.headD 0 < packet'.length) (hsends : Sends packet' p.offset sending pos) :
    Resumed packet' ⟨p.data ++ call.more, p.offset + pos, pos :: p.returned, p.stream ++ sending.stream,
      p.short || sending.short⟩ := by
  have hsum := h.offset.trans (sum_headD p.returned)
  have hle := h.length_le
  have hge := hsends.ge
  have hlength := hsends.length_le
  have hdrop : (pos :: p.returned).drop 2 = p.returned.tail := by
    rw [List.drop_succ_cons, List.drop_one]
  refine ⟨?_, ?_, hsends.le, fun hregular => ?_, fun hall => ?_⟩
  · rw [List.sum_cons, h.offset, Nat.add_comm]
  · simp only [List.length_append, List.headD_cons]
    omega
  · obtain ⟨hshort, hzero⟩ := hregular
    obtain ⟨hshort, hshort'⟩ := Bool.or_eq_false_iff.mp hshort
    rw [hdrop] at hzero
    have htail : p.returned.tail.sum = 0 := List.sum_eq_zero hzero
    have hoffset : p.offset = p.returned.headD 0 := by omega
    have hearlier : p.Regular := by
      refine ⟨hshort, fun r hr => hzero r ?_⟩
      rw [← List.drop_one]
      exact (List.drop_subset_drop_left p.returned (Nat.le_succ 1)) hr
    obtain ⟨z, rfl⟩ := hgrows
    have hfits := h.fits
    have hbefore : packet.take (p.returned.headD 0) = ((packet ++ z).take pos).take (p.returned.headD 0) := by
      rw [List.take_take, min_eq_left (by omega), List.take_append_of_le_length hfits]
    simp only [List.headD_cons]
    rw [h.stream hearlier, hsends.stream hshort', hoffset, hbefore, List.take_append_drop]
  · simp only [List.length_append, List.headD_cons] at hall
    -- A byte that one call has left out is not sent by a later one.
    have hlast : p.offset ≤ pos := by omega
    have hfull : p.stream.length = p.returned.headD 0 := by omega
    have htail : p.returned.tail.sum = 0 := by omega
    obtain ⟨hshort, -⟩ := h.regular hfull
    refine ⟨Bool.or_eq_false_iff.mpr ⟨hshort, Bool.eq_false_iff.mpr fun hshort' => ?_⟩, ?_⟩
    · have hless := hsends.short hshort'
      omega
    · rw [hdrop]
      exact List.sum_eq_zero_iff.mp htail

-- What a request is made into is at least as long.
theorem length_le_modifyPacket {buffer : Bytes} (h : modifyPacket dp bfsize buffer = .ok (some packet)) :
    buffer.length ≤ packet.length := by
  rw [modifyPacket] at h
  cases hprotocol : protocol buffer with
  | other =>
      rw [hprotocol] at h
      obtain rfl := Option.some.inj (Except.ok.inj h)
      exact le_rfl
  | https host =>
      rw [hprotocol] at h
      obtain rfl := Option.some.inj (Except.ok.inj h)
      have hroom : buffer.length ≤ (buffer ++ List.replicate (bfsize - buffer.length) 0).length := by
        rw [List.length_append]
        exact Nat.le_add_right ..
      obtain ⟨hgrows, hfits⟩ := @le_tlsrecLoop host dp.tlsrec 0 0 _ _ (Nat.zero_le _) hroom
      rwa [List.length_take_of_le hfits]
  | http host =>
      rw [hprotocol] at h
      simp only at h
      split at h
      case isTrue =>
        obtain rfl := Option.some.inj (Except.ok.inj h)
        exact le_rfl
      case isFalse =>
        cases hmod : modHttp buffer dp.modHttp with
        | failed =>
            rw [hmod] at h
            cases h
        | undefined =>
            rw [hmod] at h
            cases h
        | done buffer' =>
            rw [hmod] at h
            obtain rfl := Option.some.inj (Except.ok.inj h)
            exact (length_modHttp hmod).ge

-- Without mod_http and tlsrec a request is sent as it is.
theorem modifyPacket_plain (hhttp : dp.modHttp = 0) (htlsrec : dp.tlsrec = []) (buffer : Bytes) :
    modifyPacket dp bfsize buffer = .ok (some buffer) := by
  rw [modifyPacket]
  cases protocol buffer with
  | other => rfl
  | https host =>
      simp only [htlsrec, tlsrecLoop]
      rw [List.take_left]
  | http host => exact if_pos hhttp

theorem next_resumed (h : modifyPacket dp bfsize p.data = .ok (some packet)) (hp : Resumed packet p)
    (hmore : dp.modHttp = 0 ∧ dp.tlsrec = [] ∨ call.more = [] ∨ p.data = [])
    (hnext : p.next dp bfsize call = some p') :
    ∃ packet', modifyPacket dp bfsize p'.data = .ok (some packet') ∧ Resumed packet' p' := by
  rw [Progress.next] at hnext
  split at hnext
  case isTrue => cases hnext
  case isFalse hdue =>
    split at hnext
    case h_2 => cases hnext
    case h_1 stream short pos hdesync =>
      obtain rfl := Option.some.inj hnext
      obtain ⟨packet', hpacket', hsends⟩ := desync_sends hdesync rfl
      have hlength := length_le_modifyPacket hpacket'
      rw [List.length_append] at hlength
      have hfits := hp.fits
      suffices hgrows : packet <+: packet' ∧ (call.more ≠ [] → packet.length < packet'.length) by
        refine ⟨packet', hpacket', hp.next hgrows.1 ?_ hsends⟩
        by_cases hnil : call.more = []
        · have hless : p.returned.headD 0 < p.data.length := not_le.mp fun hle => hdue ⟨hnil, hle⟩
          omega
        · exact hfits.trans_lt (hgrows.2 hnil)
      have hlonger (hnil : call.more ≠ []) : 0 < call.more.length := List.length_pos_iff_ne_nil.mpr hnil
      rcases hmore with ⟨hhttp, htlsrec⟩ | hmore | hmore
      · rw [modifyPacket_plain hhttp htlsrec] at h hpacket'
        obtain rfl := Option.some.inj (Except.ok.inj h)
        obtain rfl := Option.some.inj (Except.ok.inj hpacket')
        refine ⟨List.prefix_append .., fun hnil => ?_⟩
        have hpos := hlonger hnil
        rw [List.length_append]
        omega
      · rw [hmore, List.append_nil, h] at hpacket'
        obtain rfl := Option.some.inj (Except.ok.inj hpacket')
        exact ⟨List.prefix_rfl, fun hnil => absurd hmore hnil⟩
      · rw [hmore] at h
        obtain rfl : ([] : Bytes) = packet := Option.some.inj (Except.ok.inj h)
        exact ⟨List.nil_prefix, fun hnil => (hlonger hnil).trans_le (by omega)⟩

theorem foldlM_resumed {calls : List Call} (h : modifyPacket dp bfsize p.data = .ok (some packet))
    (hp : Resumed packet p)
    (hmore : dp.modHttp = 0 ∧ dp.tlsrec = [] ∨ ∀ call ∈ calls, call.more = [])
    (hrun : calls.foldlM (Progress.next dp bfsize) p = some p') :
    ∃ packet', modifyPacket dp bfsize p'.data = .ok (some packet') ∧ Resumed packet' p' := by
  induction calls generalizing p packet with
  | nil =>
      obtain rfl := Option.some.inj hrun
      exact ⟨packet, h, hp⟩
  | cons call calls ih =>
      rw [List.foldlM_cons] at hrun
      obtain ⟨q, hnext, hrest⟩ := Option.bind_eq_some_iff.mp hrun
      obtain ⟨packet', hpacket', hq⟩ := next_resumed h hp
        (hmore.imp_right fun hall => .inl (hall call List.mem_cons_self)) hnext
      exact ih hpacket' hq (hmore.imp_right fun hall c hc => hall c (List.mem_cons_of_mem _ hc)) hrest

-- Three bytes that come one by one before the server answers, each of which is sent at once.
def threefold : List Call := [⟨[1], true, [.sent 1]⟩, ⟨[2], true, [.sent 1]⟩, ⟨[3], true, [.sent 1]⟩]

end ToInet.Byedpi.Desync
