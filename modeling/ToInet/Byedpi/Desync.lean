import ToInet.Byedpi.Conev
import ToInet.Byedpi.Packets.ModHttp
import ToInet.Byedpi.Packets.PartTls
import ToInet.Lib.Outcome

-- How byedpi sends a request in parts (desync.c).
namespace ToInet.Byedpi.Desync

open ToInet.Lib ToInet.Byedpi.Conev ToInet.Byedpi.OptionLoop ToInet.Byedpi.Packets

-- What send tells. A part of n bytes is sent if it takes them all.
inductive Sent where
  | again
  | failed
  | sent (n : Nat)
deriving DecidableEq

-- The number of bytes that are sent of n.
def Sent.count (n : Nat) : Sent → Option Nat
  | .again => some 0
  | .failed => none
  | .sent k => some (min k n)

-- What a request is, with the place of the name of its host.
inductive Protocol where
  | other
  | https (host : Nat)
  | http (host : Nat)
deriving DecidableEq

def protocol (buffer : Bytes) : Protocol :=
  match (parseTls buffer).filter fun found => found.2 ≠ 0, (parseHttp buffer).filter fun found => found.2 ≠ 0 with
  | some found, _ => .https found.1
  | none, some found => .http found.1
  | none, none => .other

-- The request as it is to be sent, or none where mod_http fails. Nothing reads what the buffer holds behind it.
def modifyPacket (dp : DesyncParams) (bfsize : Nat) (buffer : Bytes) : Except Abort (Option Bytes) :=
  match protocol buffer with
  | .other => .ok (some buffer)
  | .http _ =>
      if dp.modHttp = 0 then .ok (some buffer)
      else
        match modHttp buffer dp.modHttp with
        | .failed => .ok none
        | .undefined => .error .modHttp
        | .done buffer => .ok (some buffer)
  | .https host =>
      let room := List.replicate (bfsize - buffer.length) 0
      let cut := tlsrecLoop host dp.tlsrec 0 0 (buffer ++ room) buffer.length
      .ok (some (cut.1.take cut.2))

-- Where a part of n bytes ends. There is none for a host that is not there.
def partPos (protocol : Protocol) (n : Nat) (part : Part) : Option Int :=
  match part.flag, protocol with
  | .sni, .https host => some (part.pos + host)
  | .sni, _ => none
  | .host, .http host => some (part.pos + host)
  | .host, _ => none
  | .start, _ => some (if part.pos < 0 then part.pos + n else part.pos)
  | .fromEnd, _ => some (part.pos + n)

-- stream is what becomes of the request at its receiver, short is whether the last send takes less than all, and ret
-- is what desync returns, where none is -1.
structure Sending where
  stream : Bytes
  short : Bool
  ret : Option Nat
deriving DecidableEq

def sendRest (packet : Bytes) (lp : Nat) (sends : List Sent) : Sending :=
  if lp < packet.length then
    match sends.headD .again with
    | .again => ⟨[], false, some lp⟩
    | .failed => ⟨[], false, none⟩
    | .sent k => ⟨(packet.drop lp).take k, k < packet.length - lp, some packet.length⟩
  else ⟨[], false, some packet.length⟩

def Sending.after (sent : Bytes) (sending : Sending) : Sending := { sending with stream := sent ++ sending.stream }

-- The loop over the parts. The byte out of band stands behind its part, and a fake is replaced by what it stands for
-- before it is sent again.
def sendParts (bfsize : Nat) (protocol : Protocol) (offset : Nat) (packet : Bytes) : List Part → (lp : Nat) →
    List Sent → Except Abort Sending
  | [], lp, sends => .ok (sendRest packet lp sends)
  | part :: parts, lp, sends =>
      match partPos protocol packet.length part with
      | none => sendParts bfsize protocol offset packet parts lp sends
      | some pos =>
          if offset ≠ 0 ∧ pos ≤ offset then sendParts bfsize protocol offset packet parts lp sends
          else if pos < 0 ∨ packet.length < pos ∨ pos < lp then .ok (sendRest packet lp sends)
          else if part.m = .fake ∧ pos = lp then sendParts bfsize protocol offset packet parts lp sends
          else if (part.m = .oob ∨ part.m = .disoob) ∧ bfsize ≤ pos then .error .sendOob
          else
            let data := (packet.take pos.toNat).drop lp
            match sends with
            | [] | .again :: _ => .ok ⟨[], false, some lp⟩
            | .failed :: _ => .ok ⟨[], false, none⟩
            | .sent k :: sends =>
                if k < data.length then .ok ⟨data.take k, false, some (lp + k)⟩
                else (sendParts bfsize protocol offset packet parts pos.toNat sends).map (Sending.after data)

-- attached is whether drop_sack can set its filter.
def desync (dp : DesyncParams) (bfsize : Nat) (buffer : Bytes) (offset : Nat) (attached : Bool) (sends : List Sent) :
    Except Abort Sending := do
  let packet ← modifyPacket dp bfsize buffer
  match packet with
  | none => .ok ⟨[], false, none⟩
  | some packet =>
      if dp.dropSack = true ∧ attached = false then .ok ⟨[], false, none⟩
      else sendParts bfsize (protocol buffer) offset packet dp.parts offset sends

-- What is sent goes from the offset to the position that is returned.
structure Sends (packet : Bytes) (offset : Nat) (sending : Sending) (pos : Nat) : Prop where
  le : pos ≤ packet.length
  ge : min offset packet.length ≤ pos
  stream : sending.short = false → sending.stream = (packet.take pos).drop offset
  short : sending.short = true → sending.stream.length < pos - offset

variable {packet : Bytes} {offset lp pos : Nat} {sending : Sending}

theorem Sends.length_le (h : Sends packet offset sending pos) : sending.stream.length ≤ pos - offset := by
  cases hshort : sending.short with
  | true => exact (h.short hshort).le
  | false =>
      rw [h.stream hshort, List.length_drop, List.length_take]
      omega

theorem sends_slice (hlp : lp ≤ pos) (hpos : pos ≤ packet.length) :
    Sends packet lp ⟨(packet.take pos).drop lp, false, some pos⟩ pos := by
  refine ⟨hpos, ?_, fun _ => rfl, fun hshort => by cases hshort⟩
  omega

theorem sends_wait (hlp : lp ≤ packet.length) : Sends packet lp ⟨[], false, some lp⟩ lp := by
  have hslice := sends_slice le_rfl hlp
  rwa [List.drop_eq_nil_of_le (List.length_take_le ..)] at hslice

theorem sendRest_sends (sends : List Sent) (hret : (sendRest packet lp sends).ret = some pos) :
    Sends packet lp (sendRest packet lp sends) pos := by
  rw [sendRest] at hret ⊢
  split at hret
  case isFalse hlp =>
    obtain rfl := Option.some.inj hret
    rw [if_neg hlp]
    refine ⟨le_rfl, min_le_right .., fun _ => ?_, fun hshort => by cases hshort⟩
    rw [List.take_length, List.drop_eq_nil_of_le (not_lt.mp hlp)]
  case isTrue hlp =>
    rw [if_pos hlp]
    cases hsent : sends.headD .again with
    | again =>
        rw [hsent] at hret
        obtain rfl := Option.some.inj hret
        exact sends_wait hlp.le
    | failed =>
        rw [hsent] at hret
        cases hret
    | sent k =>
        rw [hsent] at hret
        obtain rfl := Option.some.inj hret
        refine ⟨le_rfl, min_le_right .., fun hshort => ?_, fun hshort => ?_⟩
        · rw [List.take_length]
          apply List.take_of_length_le
          have hk := of_decide_eq_false hshort
          rw [List.length_drop]
          omega
        · have hk := of_decide_eq_true hshort
          simp only [List.length_take, List.length_drop]
          omega

theorem Sends.after (h : Sends packet lp sending pos) (hoffset : offset ≤ lp) (hlp : lp ≤ packet.length) :
    Sends packet offset (sending.after ((packet.take lp).drop offset)) pos := by
  have hle := h.le
  have hge := h.ge
  have hlength : ((packet.take lp).drop offset).length = lp - offset := by
    rw [List.length_drop, List.length_take_of_le hlp]
  refine ⟨hle, by omega, fun hshort => ?_, fun hshort => ?_⟩
  · have hsplit := List.take_append_drop (lp - offset) ((packet.take pos).drop offset)
    rw [List.take_drop, List.take_take, List.drop_drop, Nat.add_sub_cancel' hoffset, min_eq_left (by omega)] at hsplit
    rw [Sending.after, h.stream hshort, hsplit]
  · have hless := h.short hshort
    rw [Sending.after, List.length_append, hlength]
    omega

theorem sendParts_sends {bfsize : Nat} {protocol : Protocol} {parts : List Part} {sends : List Sent}
    (h : sendParts bfsize protocol offset packet parts lp sends = .ok sending) (hret : sending.ret = some pos) :
    Sends packet lp sending pos := by
  induction parts generalizing lp sends sending with
  | nil =>
      obtain rfl := Except.ok.inj h
      exact sendRest_sends sends hret
  | cons part parts ih =>
      rw [sendParts] at h
      cases hpos : partPos protocol packet.length part with
      | none =>
          rw [hpos] at h
          exact ih h hret
      | some q =>
          rw [hpos] at h
          simp only at h
          split_ifs at h with hskip hcancel hfake hoob
          · exact ih h hret
          · obtain rfl := Except.ok.inj h
            exact sendRest_sends sends hret
          · exact ih h hret
          · obtain ⟨k, rfl⟩ := Int.eq_ofNat_of_zero_le (show 0 ≤ q by omega)
            have hlp : lp ≤ k := by omega
            have hk : k ≤ packet.length := by omega
            have hlength : ((packet.take k).drop lp).length = k - lp := by
              rw [List.length_drop, List.length_take_of_le hk]
            rw [Int.toNat_natCast] at h
            rcases sends with _ | ⟨sent, sends⟩
            · obtain rfl := Except.ok.inj h
              obtain rfl := Option.some.inj hret
              exact sends_wait (hlp.trans hk)
            · cases sent with
              | again =>
                  obtain rfl := Except.ok.inj h
                  obtain rfl := Option.some.inj hret
                  exact sends_wait (hlp.trans hk)
              | failed =>
                  obtain rfl := Except.ok.inj h
                  cases hret
              | sent j =>
                  simp only at h
                  split_ifs at h with hpart
                  · obtain rfl := Except.ok.inj h
                    obtain rfl := Option.some.inj hret
                    rw [hlength] at hpart
                    rw [List.take_drop, List.take_take, min_eq_left (by omega)]
                    exact sends_slice (by omega) (by omega)
                  · cases hrest : sendParts bfsize protocol offset packet parts k sends with
                    | error abort =>
                        rw [hrest] at h
                        cases h
                    | ok rest =>
                        rw [hrest] at h
                        obtain rfl := Except.ok.inj h
                        exact (ih hrest hret).after hlp hk

theorem sendParts_error {bfsize : Nat} {protocol : Protocol} {parts : List Part} {sends : List Sent} {abort : Abort}
    (h : sendParts bfsize protocol offset packet parts lp sends = .error abort) : abort = .sendOob := by
  induction parts generalizing lp sends with
  | nil => cases h
  | cons part parts ih =>
      rw [sendParts] at h
      cases hpos : partPos protocol packet.length part with
      | none =>
          rw [hpos] at h
          exact ih h
      | some q =>
          rw [hpos] at h
          simp only at h
          split_ifs at h
          · exact ih h
          · exact ih h
          · exact (Except.error.inj h).symm
          · split at h
            case h_1 => cases h
            case h_2 => cases h
            case h_3 => cases h
            case h_4 =>
              split_ifs at h
              cases hrest : sendParts bfsize protocol offset packet parts q.toNat _ with
              | error abort' =>
                  rw [hrest] at h
                  obtain rfl := Except.error.inj h
                  exact ih hrest
              | ok rest =>
                  rw [hrest] at h
                  cases h

theorem modifyPacket_error {dp : DesyncParams} {bfsize : Nat} {buffer : Bytes} {abort : Abort}
    (h : modifyPacket dp bfsize buffer = .error abort) : abort = .modHttp := by
  rw [modifyPacket] at h
  split at h
  case h_1 => cases h
  case h_2 =>
    split_ifs at h
    split at h
    · cases h
    · exact (Except.error.inj h).symm
    · cases h
  case h_3 => cases h

theorem desync_error {dp : DesyncParams} {bfsize : Nat} {buffer : Bytes} {attached : Bool} {sends : List Sent}
    {abort : Abort} (h : desync dp bfsize buffer offset attached sends = .error abort) :
    abort = .modHttp ∨ abort = .sendOob := by
  rw [desync] at h
  rcases hpacket : modifyPacket dp bfsize buffer with abort' | _ | packet
  · rw [hpacket] at h
    obtain rfl := Except.error.inj h
    exact .inl (modifyPacket_error hpacket)
  · rw [hpacket] at h
    cases h
  · rw [hpacket] at h
    simp only [bind, Except.bind] at h
    split_ifs at h
    exact .inr (sendParts_error h)

-- A call goes on where the request has been sent to, as far as the offset tells.
theorem desync_sends {dp : DesyncParams} {bfsize : Nat} {buffer : Bytes} {attached : Bool} {sends : List Sent}
    (h : desync dp bfsize buffer offset attached sends = .ok sending) (hret : sending.ret = some pos) :
    ∃ packet, modifyPacket dp bfsize buffer = .ok (some packet) ∧ Sends packet offset sending pos := by
  rw [desync] at h
  rcases hpacket : modifyPacket dp bfsize buffer with abort | _ | packet
  · rw [hpacket] at h
    cases h
  · rw [hpacket] at h
    obtain rfl := Except.ok.inj h
    cases hret
  · rw [hpacket] at h
    refine ⟨packet, rfl, ?_⟩
    simp only [bind, Except.bind] at h
    split_ifs at h with hsack
    · obtain rfl := Except.ok.inj h
      cases hret
    · exact sendParts_sends h hret

end ToInet.Byedpi.Desync
