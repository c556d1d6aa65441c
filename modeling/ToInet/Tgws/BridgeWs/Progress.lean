import ToInet.Tgws.BridgeWs.Frames
import ToInet.Tgws.WsFrame.Boundaries

namespace ToInet.Tgws

open ToInet.Lib ToInet.Lib.WebSocket

theorem Outgoing.length_bytes_le (outgoing : Outgoing) : outgoing.bytes.length ≤ outgoing.data.length + 14 := by
  have hwidth : (LengthForm.shortest outgoing.data.length).width ≤ 8 := by
    cases LengthForm.shortest outgoing.data.length <;> decide
  have hmask := outgoing.mask.property
  rw [outgoing.bytes_eq_encode]
  simp only [Frame.encode, Frame.encodeAs, frame, Frame.maskBytes, Frame.wirePayload, Option.map_some,
    Option.getD_some, List.length_cons, List.length_append, LengthForm.length_extension, length_applyMask, hmask]
  omega

theorem readFrame_length {input rest : Input} {opcode : Nat} {data : Bytes}
    (h : readFrame input = .ok (opcode, data, rest)) : data.length + rest.bytes.length + 2 ≤ input.bytes.length := by
  obtain ⟨found, front, _, _, _, hfront, _, hbytes⟩ := readFrame_eq_ok h
  rw [hbytes, List.length_append, List.length_append, hfront]
  omega

namespace BridgeWs

def weight : Pc → Nat
  | .reading => 1
  | .entering outgoing => outgoing.bytes.length + 3
  | .writing outgoing written => outgoing.bytes.length - written + 2
  | .flushing => 2
  | .finished _ => 0

-- A frame is at most 14 bytes longer than its data, and a read takes a byte at least.
def potential (bridge : BridgeWs) : Nat :=
  18 * (bridge.clientIn.bytes.length + bridge.wsIn.bytes.length) + weight bridge.client + weight bridge.webSocket

theorem weight_afterFailure_le (party : Party) : weight (afterFailure party) ≤ 1 := by
  cases party <;> decide

variable {bridge next : BridgeWs}

theorem potential_setPc_lt (bridge : BridgeWs) (party : Party) {pc old : Pc} (hold : bridge.pc party = old)
    (hlt : weight pc < weight old) :
    (bridge.setPc party pc).potential < bridge.potential := by
  subst hold
  cases party <;> simp only [potential, setPc, BridgeWs.pc] at hlt ⊢ <;> omega

theorem readClient_potential (mask : Mask) (hpc : bridge.client = .reading) :
    (bridge.readClient mask).potential < bridge.potential := by
  rw [readClient]
  cases hread : bridge.clientIn.read 65536 with
  | none =>
      simp only [potential, hpc, weight]
      omega
  | some result =>
      obtain ⟨chunk, clientIn⟩ := result
      obtain ⟨hne, _, hsplit⟩ := Input.read_eq_some (by decide) hread
      have hpos := List.length_pos_iff.mpr hne
      have hlen := Outgoing.length_bytes_le ⟨mask, chunk, .binary⟩
      dsimp only at hlen
      simp only [potential, hpc, weight, hsplit, List.length_append]
      omega

theorem readWebSocket_potential (mask : Mask) (hpc : bridge.webSocket = .reading) :
    (bridge.readWebSocket mask).potential < bridge.potential := by
  rw [readWebSocket]
  cases hread : readFrame bridge.wsIn with
  | error stop =>
      simp only [potential, hpc, weight]
      omega
  | ok result =>
      obtain ⟨opcode, data, wsIn⟩ := result
      have htaken := readFrame_length hread
      have hlen := Outgoing.length_bytes_le ⟨mask, data, .pong⟩
      dsimp only at hlen ⊢
      cases frameAction opcode <;> simp only [potential, hpc, weight] <;> omega

-- Every step takes input, moves an array on, or leaves a place behind for good.
theorem step_potential (event : Event) (hstep : bridge.step event = some next) :
    next.potential < bridge.potential := by
  cases event with
  | read party mask =>
      obtain ⟨hpc, rfl⟩ := step_read hstep
      cases party with
      | client => exact readClient_potential mask hpc
      | webSocket => exact readWebSocket_potential mask hpc
  | enter party =>
      simp only [step] at hstep
      split at hstep
      · rename_i outgoing hpc _
        obtain rfl := Option.some.inj hstep
        exact potential_setPc_lt { bridge with lock := some party } party hpc (Nat.lt_succ_self _)
      · cases hstep
  | write party count =>
      simp only [step] at hstep
      split at hstep
      · rename_i outgoing written hpc
        split at hstep
        · rename_i hwrite
          obtain ⟨_, hcount, hle⟩ := hwrite
          let wrote := { bridge with wsOut := bridge.wsOut ++ (outgoing.bytes.drop written).take count }
          have hmove (pc : Pc) (hlt : weight pc < weight (.writing outgoing written)) :
              (wrote.setPc party pc).potential < bridge.potential :=
            potential_setPc_lt wrote party hpc hlt
          split at hstep
          · obtain rfl := Option.some.inj hstep
            refine hmove .flushing ?_
            simp only [weight]
            omega
          · obtain rfl := Option.some.inj hstep
            refine hmove (.writing outgoing (written + count)) ?_
            simp only [weight]
            omega
        · cases hstep
      · cases hstep
  | leave party =>
      simp only [step] at hstep
      split at hstep
      · rename_i hpc
        obtain rfl := Option.some.inj hstep
        exact potential_setPc_lt { bridge with lock := none } party hpc (Nat.lt_succ_self 1)
      · cases hstep
  | fail party =>
      have hafter := weight_afterFailure_le party
      simp only [step] at hstep
      cases hpc : bridge.pc party with
      | reading =>
          rw [hpc] at hstep
          obtain rfl := Option.some.inj hstep
          exact potential_setPc_lt bridge party hpc (Nat.lt_succ_self 0)
      | writing outgoing written =>
          rw [hpc] at hstep
          obtain rfl := Option.some.inj hstep
          let left := { bridge with lock := none, cut := bridge.cut ++ outgoing.bytes.take written }
          exact potential_setPc_lt left party hpc (Nat.lt_of_le_of_lt hafter (Nat.le_add_left 2 _))
      | flushing =>
          rw [hpc] at hstep
          obtain rfl := Option.some.inj hstep
          let unlocked := { bridge with lock := none }
          exact potential_setPc_lt unlocked party hpc (Nat.lt_of_le_of_lt hafter (Nat.lt_succ_self 1))
      | entering outgoing => simp [hpc] at hstep
      | finished failed => simp [hpc] at hstep

theorem run_length {events : List Event} (hrun : run step bridge events = some next) :
    events.length + next.potential ≤ bridge.potential := by
  induction events generalizing bridge with
  | nil =>
      obtain rfl := Option.some.inj hrun
      simp
  | cons event events ih =>
      obtain ⟨between, hstep, hrest⟩ := run_cons_eq_some.mp hrun
      have hfirst := step_potential event hstep
      have hlater := ih hrest
      rw [List.length_cons]
      omega

-- A side that has not finished can go on, or the one that holds the lock can.
theorem finished_of_stuck {initial frames : List Frame} {clientBytes lost : Bytes}
    (h : Consistent initial clientBytes bridge frames lost) (hcut : bridge.cut = [])
    (hstuck : ∀ event next, bridge.step event = some next → ∃ party, event = .fail party) (party : Party) :
    ∃ failed, bridge.pc party = .finished failed := by
  have hmask : Mask := ⟨[0, 0, 0, 0], rfl⟩
  have hnone (event : Event) (hevent : ∀ party, event ≠ .fail party) : bridge.step event = none := by
    cases hstep : bridge.step event with
    | none => rfl
    | some next =>
        obtain ⟨party, heq⟩ := hstuck event next hstep
        exact absurd heq (hevent party)
  -- Whoever is inside writes on or leaves.
  have hfree : bridge.lock = none := by
    cases hlock : bridge.lock with
    | none => rfl
    | some owner =>
        have hinside := (h.lock owner).mpr hlock
        have hvalid := h.valid owner
        cases hpc : bridge.pc owner with
        | writing outgoing written =>
            rw [hpc] at hvalid
            have hlt : written + 1 ≤ outgoing.bytes.length := hvalid.2
            have hwrite := hnone (.write owner 1) (by simp)
            simp only [step, hpc, hcut, hlt, Nat.one_pos, and_self, if_true] at hwrite
            split at hwrite <;> cases hwrite
        | flushing =>
            have hleave := hnone (.leave owner) (by simp)
            simp [step, hpc] at hleave
        | _ =>
            rw [hpc] at hinside
            exact absurd hinside not_false
  cases hpc : bridge.pc party with
  | finished failed => exact ⟨failed, rfl⟩
  | reading =>
      have hread := hnone (.read party hmask) (by simp)
      cases party <;> simp [step, hpc] at hread
  | entering outgoing =>
      have henter := hnone (.enter party) (by simp)
      simp [step, hpc, hfree] at henter
  | _ =>
      have hlock := (h.lock party).mp (by rw [hpc]; trivial)
      rw [hfree] at hlock
      cases hlock

theorem free_of_finished {initial frames : List Frame} {clientBytes lost : Bytes}
    (h : Consistent initial clientBytes bridge frames lost)
    (hfinished : ∀ party, ∃ failed, bridge.pc party = .finished failed) : bridge.lock = none := by
  cases hlock : bridge.lock with
  | none => rfl
  | some owner =>
      have hinside := (h.lock owner).mpr hlock
      obtain ⟨failed, hpc⟩ := hfinished owner
      rw [hpc] at hinside
      exact absurd hinside not_false

-- Only a failure ends the reader of the client with an exception.
theorem step_notFailed (event : Event) (hevent : ∀ party, event ≠ .fail party)
    (hstep : bridge.step event = some next) (h : bridge.client ≠ .finished true) :
    next.client ≠ .finished true := by
  by_cases hread : ∃ party mask, event = .read party mask
  · obtain ⟨party, mask, rfl⟩ := hread
    obtain ⟨_, rfl⟩ := step_read hstep
    cases party with
    | client =>
        simp only [readBy, readClient]
        split <;> simp
    | webSocket =>
        simp only [readBy, readWebSocket]
        split
        · exact h
        · split <;> exact h
  · have hread : ∀ party mask, event ≠ .read party mask := by simpa using hread
    obtain ⟨_, _, _, rfl, hpc⟩ := step_inside hread hevent hstep
    cases event.party with
    | client => exact hpc true
    | webSocket => exact h

theorem run_uncut {events : List Event} {bridge last : BridgeWs} (hrun : run step bridge events = some last)
    (hevents : ∀ party, .fail party ∉ events) (hcut : bridge.cut = []) (hclient : bridge.client ≠ .finished true) :
    last.cut = [] ∧ last.client ≠ .finished true := by
  refine run_induction_allowed (fun s : BridgeWs => s.cut = [] ∧ s.client ≠ .finished true)
    (fun _ event => ∀ party, event ≠ .fail party) ?_ ⟨hcut, hclient⟩ ?_ hrun
  · intro s event t hs hevent hstep
    exact ⟨(step_cut event hevent hstep).trans hs.1, step_notFailed event hevent hstep hs.2⟩
  · exact allowed_of_forall fun event hmem _ party heq => hevents party (heq ▸ hmem)

end BridgeWs

end ToInet.Tgws
