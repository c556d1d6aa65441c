import ToInet.Tgws.BridgeWs.Answers
import ToInet.Tgws.BridgeWs.Progress

namespace ToInet.Tgws

open ToInet.Lib ToInet.Lib.WebSocket

namespace BridgeWs

def initialFrames (initPayload : Option Bytes) (mask : Mask) : List Frame :=
  match initPayload with
  | some data => [{ fin := true, code := Opcode.binary.code, mask := some mask, payload := data }]
  | none => []

theorem start_consistent (initPayload : Option Bytes) (mask : Mask) (clientIn wsIn : Input) :
    Consistent (initialFrames initPayload mask) clientIn.bytes
      (start initPayload mask clientIn wsIn) [] [] := by
  refine ⟨?_, by simp, ?_, ?_, .inl rfl, fun hcut => absurd rfl hcut, ?_⟩
  · cases initPayload with
    | none => rfl
    | some data =>
        have hframe := sendWsFrame_eq_encode mask data Opcode.binary.code
        rw [show (Opcode.binary.code : Nat) = 0x02 from rfl] at hframe
        simp [start, initialFrames, hframe, unfinished, part]
  · intro party
    cases party <;> trivial
  · intro party
    cases party <;> simp [start, pc, Inside]
  · exact ⟨by simp [start, pc, pendingData], fun _ => rfl, by simp [start, pc]⟩

theorem initialFrames_spec (initPayload : Option Bytes) (mask : Mask)
    (hsize : ∀ data, initPayload = some data → data.length < 2 ^ 31) :
    (∀ frame ∈ initialFrames initPayload mask, Sent frame) ∧
      binaryData (initialFrames initPayload mask) = initPayload.getD [] ∧
      pongData (initialFrames initPayload mask) = [] := by
  cases initPayload with
  | none => exact ⟨by simp [initialFrames], rfl, rfl⟩
  | some data =>
      refine ⟨?_, by simp [initialFrames, binaryData], rfl⟩
      intro frame hmem
      obtain rfl := List.mem_singleton.mp hmem
      exact ⟨rfl, rfl, .inl rfl, hsize data rfl⟩

variable {events : List Event}

-- What each step keeps of the frames and the answers, a run keeps.
theorem run_kept {initial frames : List Frame} {clientBytes lost : Bytes} {bridge last : BridgeWs}
    (h : Consistent initial clientBytes bridge frames lost) (hrun : run step bridge events = some last) :
    ∃ more lost', Consistent initial clientBytes last (frames ++ more) lost' ∧
      ∀ ending later total, Answers ending (pongData frames) later total bridge.webSocket bridge.wsIn →
        ∃ later' total', Answers ending (pongData (frames ++ more)) later' total' last.webSocket last.wsIn ∧
          total'.Sublist total ∧ ((∀ party, .fail party ∉ events) → total' = total) := by
  induction events generalizing bridge frames lost with
  | nil =>
      obtain rfl := Option.some.inj hrun
      refine ⟨[], lost, by rwa [List.append_nil], fun ending later total hanswers => ?_⟩
      exact ⟨later, total, by rwa [List.append_nil], List.Sublist.refl _, fun _ => rfl⟩
  | cons event events ih =>
      obtain ⟨next, hstep, hrest⟩ := run_cons_eq_some.mp hrun
      obtain ⟨_, hnext⟩ := step_consistent h event hstep
      obtain ⟨more, lost', hlast, hkept⟩ := ih hnext hrest
      refine ⟨bridge.completed event ++ more, lost', by rwa [← List.append_assoc], ?_⟩
      intro ending later total hanswers
      obtain ⟨_, _, hmoved, hsub, hsame⟩ := step_answers hanswers h.valid event hstep
      obtain ⟨later', total', hdone, hsub', hsame'⟩ := hkept _ _ _ (by rwa [pongData_append])
      refine ⟨later', total', by rwa [← List.append_assoc], hsub'.trans hsub, fun hevents => ?_⟩
      rw [hsame' fun party hmem => hevents party (List.mem_cons_of_mem _ hmem),
        hsame fun party heq => hevents party (heq ▸ List.mem_cons_self)]

-- A pong is written in two pieces while a data frame waits for the lock; then the client's last byte follows.
def sampleMask : Mask := ⟨[1, 2, 3, 4], rfl⟩

def samplePing : ServerFrame :=
  { frame := { fin := true, code := Opcode.ping.code, mask := none, payload := [7] }, opcode := .ping, form := .seven
    known := rfl, unmasked := rfl, fits := by decide, size := by decide }

def sampleStart : BridgeWs := start (some [1]) sampleMask ⟨[[2], [3]]⟩ ⟨[[0x89], [0x01, 7]]⟩

def sampleEvents : List Event :=
  [.read .client sampleMask, .read .webSocket sampleMask, .enter .webSocket, .write .webSocket 3,
   .write .webSocket 4, .leave .webSocket, .enter .client, .write .client 7, .leave .client,
   .read .client sampleMask, .enter .client, .write .client 7, .leave .client, .read .client sampleMask,
   .read .webSocket sampleMask]

end BridgeWs

end ToInet.Tgws
