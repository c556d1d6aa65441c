import ToInet.Tgws.BridgeWs.Frames
import ToInet.Tgws.WsFrame.Boundaries

namespace ToInet.Tgws

open ToInet.Lib ToInet.Lib.WebSocket

-- What is read of a stream of whole frames is the next of them, and nothing at its end.
theorem readFrame_stream (frames : List ServerFrame) (ending : Ending) {input : Input}
    (hinput : input.bytes = streamBytes frames ending) :
    match frames with
    | [] => readFrame input = .error .null ∨ ∃ data rest, readFrame input = .ok (Opcode.close.code, data, rest)
    | server :: later => ∃ rest, readFrame input = .ok (server.opcode.code, server.frame.payload, rest) ∧
        rest.bytes = streamBytes later ending := by
  cases frames with
  | nil =>
      cases ending with
      | endOfStream =>
          left
          rw [readFrame, Input.readByte_nil hinput]
          rfl
      | close server hop more =>
          obtain ⟨rest, hread, _⟩ := readFrame_encode server more hinput
          rw [hop] at hread
          exact .inr ⟨_, rest, hread⟩
  | cons server later => exact readFrame_encode server _ (by simpa [streamBytes] using hinput)

namespace BridgeWs

def pongData (frames : List Frame) : List Bytes :=
  (frames.filter fun frame => frame.code = Opcode.pong.code).map Frame.payload

theorem pongData_append (frames more : List Frame) :
    pongData (frames ++ more) = pongData frames ++ pongData more := by
  simp [pongData]

@[simp] theorem pongData_nil : pongData [] = [] := rfl

theorem pongData_singleton (frame : Frame) :
    pongData [frame] = if frame.code = Opcode.pong.code then [frame.payload] else [] := by
  by_cases h : frame.code = Opcode.pong.code <;> simp [pongData, h]

-- The answer that is under way.
def pendingPong : Pc → List Bytes
  | .entering outgoing | .writing outgoing _ => [outgoing.data]
  | _ => []

@[simp] theorem pendingPong_finished (failed : Bool) : pendingPong (.finished failed) = [] := rfl

-- The pings that are answered, the one whose answer is under way, and those still to be read.
structure Answers (ending : Ending) (pongs : List Bytes) (later : List ServerFrame) (total : List Bytes)
    (pc : Pc) (wsIn : Input) : Prop where
  reads : (∀ failed, pc ≠ .finished failed) → wsIn.bytes = streamBytes later ending
  done : ∀ failed, pc = .finished failed → later = []
  notClosed : ∀ server ∈ later, server.opcode ≠ .close
  total : pongs ++ pendingPong pc ++ pings later = total

-- The reader of the client leaves the reader of the WebSocket where it stands.
theorem step_client {bridge next : BridgeWs} {event : Event} (hevent : event.party = .client)
    (hstep : bridge.step event = some next) :
    next.webSocket = bridge.webSocket ∧ next.wsIn = bridge.wsIn := by
  cases event with
  | read party mask =>
      obtain rfl : party = .client := hevent
      obtain ⟨_, rfl⟩ := step_read hstep
      simp only [readBy, readClient]
      split <;> exact ⟨rfl, rfl⟩
  | fail party =>
      obtain rfl : party = .client := hevent
      cases hpc : bridge.pc .client <;> simp only [step, hpc] at hstep <;> try cases hstep
      all_goals exact ⟨rfl, rfl⟩
  | _ =>
      obtain ⟨_, _, _, rfl, _⟩ := step_inside (by simp) (by simp) hstep
      rw [hevent]
      exact ⟨rfl, rfl⟩

theorem pongData_completed_client {bridge : BridgeWs} {event : Event} (hevent : event.party = .client)
    (hvalid : Valid .client bridge.client) : pongData (bridge.completed event) = [] := by
  cases event with
  | write party count =>
      obtain rfl : party = .client := hevent
      cases hpc : bridge.client with
      | writing outgoing written =>
          rw [hpc] at hvalid
          have hopcode : outgoing.frame.code = Opcode.binary.code := congrArg Opcode.code hvalid.1.1
          simp only [completed, pc, hpc]
          split
          · rw [pongData_singleton, hopcode, if_neg (by decide)]
          · rfl
      | _ => simp only [completed, pc, hpc, pongData_nil]
  | _ => rfl

section

variable {ending : Ending} {pongs total : List Bytes} {later : List ServerFrame} {bridge next : BridgeWs}

theorem readWebSocket_answers (h : Answers ending pongs later total bridge.webSocket bridge.wsIn) (mask : Mask)
    (hpc : bridge.webSocket = .reading) :
    ∃ later', Answers ending pongs later' total (bridge.readWebSocket mask).webSocket
      (bridge.readWebSocket mask).wsIn := by
  have hread := readFrame_stream later ending (h.reads (by rw [hpc]; simp))
  have htotal := h.total
  have hnotClosed := h.notClosed
  rw [hpc] at htotal
  rw [readWebSocket]
  cases later with
  | nil =>
      refine ⟨[], ?_⟩
      obtain hread | ⟨data, rest, hread⟩ := hread
      · rw [hread]
        exact ⟨fun hne => absurd rfl (hne _), fun _ _ => rfl, hnotClosed, htotal⟩
      · rw [hread]
        simp only [frameAction_code]
        exact ⟨fun hne => absurd rfl (hne _), fun _ _ => rfl, hnotClosed, htotal⟩
  | cons server later =>
      refine ⟨later, ?_⟩
      obtain ⟨rest, hread, hrest⟩ := hread
      obtain ⟨hopen, hnotClosed⟩ := List.forall_mem_cons.mp hnotClosed
      rw [pings, payloads_cons] at htotal
      rw [hread]
      simp only [frameAction_code]
      cases hopcode : server.opcode with
      | close => exact absurd hopcode hopen
      | ping =>
          rw [hopcode, if_pos (by simp)] at htotal
          refine ⟨fun _ => hrest, fun _ hdone => ?_, hnotClosed, ?_⟩
          · cases hdone
          · rw [← htotal]
            simp [pendingPong, pings]
      | _ =>
          rw [hopcode, if_neg (by simp)] at htotal
          refine ⟨fun _ => hrest, fun _ hdone => ?_, hnotClosed, ?_⟩
          · exact absurd (hpc.symm.trans hdone) (by simp)
          · dsimp only
            rw [hpc]
            exact htotal

-- The reader goes on to another place with the same answer under way, or with none behind the one it has sent.
theorem Answers.move {pc old : Pc} {wsIn : Input} {more : List Bytes} (h : Answers ending pongs later total old wsIn)
    (hold : ∀ failed, old ≠ .finished failed) (hpc : ∀ failed, pc ≠ .finished failed)
    (hpending : more ++ pendingPong pc = pendingPong old) : Answers ending (pongs ++ more) later total pc wsIn := by
  refine ⟨fun _ => h.reads hold, fun failed heq => absurd heq (hpc failed), h.notClosed, ?_⟩
  rw [List.append_assoc pongs, hpending]
  exact h.total

-- A failure leaves out an answer, or all that are still to come.
theorem Answers.fail (h : Answers ending pongs later total bridge.webSocket bridge.wsIn)
    (hstep : bridge.step (.fail .webSocket) = some next) :
    ∃ later' total', Answers ending pongs later' total' next.webSocket next.wsIn ∧ total'.Sublist total := by
  have htotal := h.total
  simp only [step, pc] at hstep
  cases hpc : bridge.webSocket with
  | reading =>
      rw [hpc] at hstep htotal
      obtain rfl := Option.some.inj hstep
      refine ⟨[], pongs ++ [] ++ [], ⟨fun hne => absurd rfl (hne _), fun _ _ => rfl, by simp, rfl⟩, ?_⟩
      rw [← htotal]
      exact (List.Sublist.refl _).append (List.nil_sublist _)
  | writing outgoing written =>
      rw [hpc] at hstep htotal
      obtain rfl := Option.some.inj hstep
      refine ⟨later, pongs ++ [] ++ pings later, ⟨fun _ => h.reads (by rw [hpc]; simp), ?_, h.notClosed, rfl⟩, ?_⟩
      · exact fun _ hdone => by cases hdone
      · rw [← htotal]
        exact ((List.Sublist.refl _).append (List.nil_sublist _)).append (List.Sublist.refl _)
  | flushing =>
      rw [hpc] at hstep htotal
      obtain rfl := Option.some.inj hstep
      refine ⟨later, total, ⟨fun _ => h.reads (by rw [hpc]; simp), ?_, h.notClosed, htotal⟩, List.Sublist.refl _⟩
      exact fun _ hdone => by cases hdone
  | entering outgoing => simp [hpc] at hstep
  | finished failed => simp [hpc] at hstep

theorem write_answers (h : Answers ending pongs later total bridge.webSocket bridge.wsIn)
    (hvalid : Valid .webSocket bridge.webSocket) (count : Nat)
    (hstep : bridge.step (.write .webSocket count) = some next) :
    Answers ending (pongs ++ pongData (bridge.completed (.write .webSocket count))) later total next.webSocket
      next.wsIn := by
  simp only [step, pc] at hstep
  split at hstep
  · rename_i outgoing written hpc
    rw [hpc] at h hvalid
    have hopcode : outgoing.frame.code = Opcode.pong.code := congrArg Opcode.code hvalid.1.1
    split at hstep
    · simp only [completed, pc, hpc]
      split at hstep
      · rename_i hend
        obtain rfl := Option.some.inj hstep
        rw [if_pos hend, pongData_singleton, if_pos hopcode]
        exact h.move (by simp) (by simp [setPc]) rfl
      · rename_i hend
        obtain rfl := Option.some.inj hstep
        rw [if_neg hend]
        exact h.move (by simp) (by simp [setPc]) rfl
    · cases hstep
  · cases hstep

theorem step_answers (h : Answers ending pongs later total bridge.webSocket bridge.wsIn)
    (hvalid : ∀ party, Valid party (bridge.pc party)) (event : Event) (hstep : bridge.step event = some next) :
    ∃ later' total', Answers ending (pongs ++ pongData (bridge.completed event)) later' total' next.webSocket
      next.wsIn ∧
      total'.Sublist total ∧ ((∀ party, event ≠ .fail party) → total' = total) := by
  by_cases hclient : event.party = .client
  · obtain ⟨hpc, hin⟩ := step_client hclient hstep
    refine ⟨later, total, ?_, List.Sublist.refl _, fun _ => rfl⟩
    rw [pongData_completed_client hclient (hvalid .client), List.append_nil, hpc, hin]
    exact h
  have hparty : event.party = .webSocket := by
    cases hevent : event.party with
    | client => exact absurd hevent hclient
    | webSocket => rfl
  cases event with
  | read party mask =>
      obtain rfl : party = .webSocket := hparty
      obtain ⟨hpc, rfl⟩ := step_read hstep
      obtain ⟨later', hread⟩ := readWebSocket_answers h mask hpc
      exact ⟨later', total, by simpa [completed, readBy] using hread, List.Sublist.refl _, fun _ => rfl⟩
  | enter party =>
      obtain rfl : party = .webSocket := hparty
      simp only [step, pc] at hstep
      split at hstep
      · rename_i outgoing hpc _
        rw [hpc] at h
        obtain rfl := Option.some.inj hstep
        exact ⟨later, total, h.move (by simp) (by simp [setPc]) rfl, List.Sublist.refl _, fun _ => rfl⟩
      · cases hstep
  | write party count =>
      obtain rfl : party = .webSocket := hparty
      exact ⟨later, total, write_answers h (hvalid .webSocket) count hstep, List.Sublist.refl _, fun _ => rfl⟩
  | leave party =>
      obtain rfl : party = .webSocket := hparty
      simp only [step, pc] at hstep
      split at hstep
      · rename_i hpc
        rw [hpc] at h
        obtain rfl := Option.some.inj hstep
        exact ⟨later, total, h.move (by simp) (by simp [setPc]) rfl, List.Sublist.refl _, fun _ => rfl⟩
      · cases hstep
  | fail party =>
      obtain rfl : party = .webSocket := hparty
      obtain ⟨later', total', hfail, hsub⟩ := h.fail hstep
      exact ⟨later', total', by simpa [completed] using hfail, hsub, fun hne => absurd rfl (hne _)⟩

end

end BridgeWs

end ToInet.Tgws
