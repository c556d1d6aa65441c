import ToInet.Tgws.BridgeWs
import ToInet.Tgws.WsFrame.Reading
import ToInet.Tgws.WsFrame.Sending

namespace ToInet.Tgws

open ToInet.Lib ToInet.Lib.WebSocket

-- The size of an array is a signed 32-bit number.
theorem readFrame_size {input rest : Input} {opcode : Nat} {data : Bytes}
    (h : readFrame input = .ok (opcode, data, rest)) : data.length < 2 ^ 31 := by
  obtain ⟨_, _, h⟩ := bind_eq_ok h
  obtain ⟨_, _, h⟩ := bind_eq_ok h
  obtain ⟨⟨len, _⟩, _, h⟩ := bind_eq_ok h
  dsimp only at h
  split at h
  · cases h
  obtain ⟨⟨field, _⟩, hread, h⟩ := bind_eq_ok h
  have hfield : field = data := (Prod.mk.inj (Prod.mk.inj (Except.ok.inj h)).2).1
  have hlen := (readFully_eq_some (orNull_eq_ok hread)).1
  have hlt : (len.setWidth 32).toInt < 2 ^ 31 := BitVec.toInt_lt
  rw [← hfield]
  omega

namespace Outgoing

def frame (outgoing : Outgoing) : Frame :=
  { fin := true, code := outgoing.opcode.code, mask := some outgoing.mask, payload := outgoing.data }

theorem bytes_eq_encode (outgoing : Outgoing) : outgoing.bytes = outgoing.frame.encode :=
  sendWsFrame_eq_encode outgoing.mask outgoing.data outgoing.opcode.code

end Outgoing

namespace BridgeWs

def binaryData (frames : List Frame) : Bytes :=
  ((frames.filter fun frame => frame.code = Opcode.binary.code).map Frame.payload).flatten

theorem binaryData_append (frames more : List Frame) :
    binaryData (frames ++ more) = binaryData frames ++ binaryData more := by
  simp [binaryData]

theorem binaryData_singleton (frame : Frame) :
    binaryData [frame] = if frame.code = Opcode.binary.code then frame.payload else [] := by
  by_cases h : frame.code = Opcode.binary.code <;> simp [binaryData, h]

@[simp] theorem binaryData_nil : binaryData [] = [] := rfl

-- A final masked frame of one of the two kinds that are sent.
def Sent (frame : Frame) : Prop :=
  frame.fin = true ∧ frame.mask.isSome = true ∧ (frame.code = Opcode.binary.code ∨ frame.code = Opcode.pong.code) ∧
    frame.payload.length < 2 ^ 31

def partyOpcode : Party → Opcode
  | .client => .binary
  | .webSocket => .pong

def Valid (party : Party) : Pc → Prop
  | .entering outgoing => outgoing.opcode = partyOpcode party ∧ outgoing.data.length < 2 ^ 31
  | .writing outgoing written => (outgoing.opcode = partyOpcode party ∧ outgoing.data.length < 2 ^ 31) ∧
      written < outgoing.bytes.length
  | _ => True

def Inside : Pc → Prop
  | .writing _ _ | .flushing => True
  | _ => False

def pendingData : Pc → Bytes
  | .entering outgoing | .writing outgoing _ => outgoing.data
  | _ => []

@[simp] theorem pendingData_finished (failed : Bool) : pendingData (.finished failed) = [] := rfl

-- The client's bytes are in the frames sent, in the frame under way, lost with a
-- failed write, or still to be read.
structure Accounts (clientBytes : Bytes) (frames : List Frame) (lost : Bytes) (pc : Pc)
    (clientIn : Input) : Prop where
  data : binaryData frames ++ pendingData pc ++ lost ++ clientIn.bytes = clientBytes
  kept : pc ≠ .finished true → lost = []
  done : pc = .finished false → clientIn.bytes = []

structure Consistent (initial : List Frame) (clientBytes : Bytes) (bridge : BridgeWs)
    (frames : List Frame) (lost : Bytes) : Prop where
  wsOut : bridge.wsOut = ((initial ++ frames).map Frame.encode).flatten ++ bridge.unfinished
  sent : ∀ frame ∈ frames, Sent frame
  valid : ∀ party, Valid party (bridge.pc party)
  lock : ∀ party, Inside (bridge.pc party) ↔ bridge.lock = some party
  cut : bridge.cut = [] ∨ ∃ frame more, bridge.cut ++ more = Frame.encode frame ∧ more ≠ [] ∧
    frame.payload.length < 2 ^ 31
  idle : bridge.cut ≠ [] → ∀ party, part (bridge.pc party) = []
  accounts : Accounts clientBytes frames lost (bridge.pc .client) bridge.clientIn

theorem pc_setPc (bridge : BridgeWs) (party other : Party) (pc : Pc) :
    (bridge.setPc party pc).pc other = if other = party then pc else bridge.pc other := by
  cases party <;> cases other <;> rfl

section

variable (bridge : BridgeWs) (party : Party) (pc : Pc)

@[simp] theorem setPc_wsOut : (bridge.setPc party pc).wsOut = bridge.wsOut := by cases party <;> rfl

@[simp] theorem setPc_cut : (bridge.setPc party pc).cut = bridge.cut := by cases party <;> rfl

@[simp] theorem setPc_lock : (bridge.setPc party pc).lock = bridge.lock := by cases party <;> rfl

@[simp] theorem setPc_clientIn : (bridge.setPc party pc).clientIn = bridge.clientIn := by
  cases party <;> rfl

end

theorem unfinished_eq (bridge : BridgeWs) (party : Party)
    (h : ∀ other, other ≠ party → part (bridge.pc other) = []) :
    bridge.unfinished = bridge.cut ++ part (bridge.pc party) := by
  cases party with
  | client =>
      have hother : part bridge.webSocket = [] := h .webSocket (by decide)
      rw [unfinished, hother, List.append_nil]
      rfl
  | webSocket =>
      have hother : part bridge.client = [] := h .client (by decide)
      rw [unfinished, hother, List.append_nil]
      rfl

theorem part_outside {pc : Pc} (h : ¬Inside pc) : part pc = [] := by
  cases pc with
  | writing outgoing written => exact absurd trivial h
  | _ => rfl

variable {initial : List Frame} {clientBytes : Bytes} {bridge next : BridgeWs} {frames : List Frame}
  {lost : Bytes}

-- While one party is inside, the other has nothing in the stream.
theorem Consistent.alone (h : Consistent initial clientBytes bridge frames lost) {party : Party}
    (hlock : bridge.lock = none ∨ bridge.lock = some party) (other : Party) (hother : other ≠ party) :
    part (bridge.pc other) = [] := by
  apply part_outside
  rw [h.lock other]
  rcases hlock with hlock | hlock <;> simp [hlock, Ne.symm hother]

-- A party goes on to another place, with nothing written in between.
theorem Consistent.replace (h : Consistent initial clientBytes bridge frames lost) (party : Party)
    (pc : Pc) (clientIn : Input) {old : Pc} {lock : Option Party} {lost' : Bytes}
    (hold : bridge.pc party = old) (hvalid : Valid party pc) (hpart : part pc = part old)
    (hlock : Inside pc ↔ lock = some party)
    (hother : ∀ other, other ≠ party → (Inside (bridge.pc other) ↔ lock = some other))
    (haccounts : Accounts clientBytes frames lost' ((bridge.setPc party pc).pc .client) clientIn) :
    Consistent initial clientBytes ({ bridge with lock, clientIn }.setPc party pc) frames lost' := by
  have hparts : ∀ other, part (({ bridge with lock, clientIn }.setPc party pc).pc other) =
      part (bridge.pc other) := by
    intro other
    rw [pc_setPc]
    split
    · rename_i heq
      rw [hpart, heq, hold]
    · rfl
  refine ⟨?_, h.sent, ?_, ?_, ?_, ?_, ?_⟩
  · have hunfinished :
        ({ bridge with lock, clientIn }.setPc party pc).unfinished = bridge.unfinished := by
      have hc := hparts .client
      have hw := hparts .webSocket
      simp only [BridgeWs.pc] at hc hw
      rw [unfinished, unfinished, hc, hw, setPc_cut]
    rw [hunfinished, setPc_wsOut]
    exact h.wsOut
  · intro other
    rw [pc_setPc]
    split
    · rename_i heq
      exact heq ▸ hvalid
    · exact h.valid other
  · intro other
    rw [pc_setPc, setPc_lock]
    split
    · rename_i heq
      exact heq ▸ hlock
    · rename_i hne
      exact hother other hne
  · rw [setPc_cut]
    exact h.cut
  · intro hcut other
    rw [setPc_cut] at hcut
    rw [hparts]
    exact h.idle hcut other
  · rw [setPc_clientIn]
    cases party <;> exact haccounts

-- The lock stays with its owner.
theorem Consistent.move (h : Consistent initial clientBytes bridge frames lost) (party : Party)
    (pc : Pc) (clientIn : Input) {old : Pc} {lost' : Bytes} (hold : bridge.pc party = old)
    (hvalid : Valid party pc) (hpart : part pc = part old) (hinside : Inside pc ↔ Inside old)
    (haccounts : Accounts clientBytes frames lost' ((bridge.setPc party pc).pc .client) clientIn) :
    Consistent initial clientBytes ({ bridge with clientIn }.setPc party pc) frames lost' :=
  h.replace party pc clientIn hold hvalid hpart (hinside.trans (hold ▸ h.lock party))
    (fun other _ => h.lock other) haccounts

theorem readClient_consistent (h : Consistent initial clientBytes bridge frames lost) (mask : Mask)
    (hpc : bridge.pc .client = .reading) :
    Consistent initial clientBytes (bridge.readClient mask) frames lost := by
  have hkept := h.accounts.kept (by rw [hpc]; simp)
  have hdata := h.accounts.data
  rw [hpc, hkept] at hdata
  rw [readClient]
  cases hread : bridge.clientIn.read 65536 with
  | none =>
      have hend := Input.read_eq_none.mp hread
      refine h.move .client (.finished false) bridge.clientIn hpc trivial rfl Iff.rfl
        ⟨?_, fun _ => hkept, fun _ => hend⟩
      rw [hkept]
      exact hdata
  | some result =>
      obtain ⟨chunk, clientIn⟩ := result
      obtain ⟨_, hle, hsplit⟩ := Input.read_eq_some (by decide) hread
      have hsize : chunk.length < 2 ^ 31 := by omega
      refine h.move .client (.entering ⟨mask, chunk, .binary⟩) clientIn hpc ⟨rfl, hsize⟩ rfl Iff.rfl
        ⟨?_, fun _ => hkept, fun hdone => by cases hdone⟩
      rw [hsplit] at hdata
      simpa [hkept, pendingData, pc, setPc] using hdata

theorem readWebSocket_consistent (h : Consistent initial clientBytes bridge frames lost) (mask : Mask)
    (hpc : bridge.pc .webSocket = .reading) :
    Consistent initial clientBytes (bridge.readWebSocket mask) frames lost := by
  rw [readWebSocket]
  cases hread : readFrame bridge.wsIn with
  | error stop =>
      exact h.move .webSocket _ bridge.clientIn hpc trivial rfl Iff.rfl h.accounts
  | ok result =>
      obtain ⟨opcode, data, wsIn⟩ := result
      have hsize := readFrame_size hread
      -- What is received touches neither the stream that is written nor the client's.
      have hin (clientOut : Bytes) :
          Consistent initial clientBytes { bridge with wsIn, clientOut } frames lost :=
        ⟨h.wsOut, h.sent, h.valid, h.lock, h.cut, h.idle, h.accounts⟩
      dsimp only
      cases frameAction opcode with
      | close =>
          exact (hin bridge.clientOut).move .webSocket (.finished false) bridge.clientIn hpc trivial
            rfl Iff.rfl h.accounts
      | sendPong =>
          exact (hin bridge.clientOut).move .webSocket (.entering ⟨mask, data, .pong⟩) bridge.clientIn
            hpc ⟨rfl, hsize⟩ rfl Iff.rfl h.accounts
      | skip => exact hin bridge.clientOut
      | deliver => exact hin _

-- A change of place that leaves the client's bytes where they are.
theorem Consistent.accounts_setPc (h : Consistent initial clientBytes bridge frames lost) (party : Party)
    (pc : Pc) {old : Pc} (hold : bridge.pc party = old) (hpending : pendingData pc = pendingData old)
    (hkept : pc ≠ .finished true → old ≠ .finished true) (hdone : pc ≠ .finished false) :
    Accounts clientBytes frames lost ((bridge.setPc party pc).pc .client) bridge.clientIn := by
  rw [pc_setPc]
  split
  · rename_i hclient
    rw [← hclient] at hold
    refine ⟨?_, fun hne => h.accounts.kept (hold ▸ hkept hne), fun hf => absurd hf hdone⟩
    rw [hpending, ← hold]
    exact h.accounts.data
  · exact h.accounts

theorem valid_setPc (bridge : BridgeWs) (party : Party) (pc : Pc)
    (hall : ∀ other, Valid other (bridge.pc other)) (hvalid : Valid party pc) (other : Party) :
    Valid other ((bridge.setPc party pc).pc other) := by
  rw [pc_setPc]
  split
  · rename_i heq
    exact heq ▸ hvalid
  · exact hall other

theorem enter_consistent (h : Consistent initial clientBytes bridge frames lost) {party : Party}
    {outgoing : Outgoing} (hpc : bridge.pc party = .entering outgoing) (hfree : bridge.lock = none) :
    Consistent initial clientBytes
      ({ bridge with lock := some party }.setPc party (.writing outgoing 0)) frames lost := by
  have hvalid := h.valid party
  rw [hpc] at hvalid
  have hpos : 0 < outgoing.bytes.length := outgoing.bytes_eq_encode ▸ length_encode_pos _
  refine h.replace party (.writing outgoing 0) bridge.clientIn hpc ⟨hvalid, hpos⟩ rfl
    (iff_of_true trivial rfl) ?_ (h.accounts_setPc party _ hpc rfl (by simp) (by simp))
  intro other hne
  rw [h.lock other, hfree, Option.some.injEq]
  exact iff_of_false (by simp) (Ne.symm hne)

theorem leave_consistent (h : Consistent initial clientBytes bridge frames lost) {party : Party}
    {pc : Pc} (hpc : bridge.pc party = .flushing) (hpart : part pc = []) (hpending : pendingData pc = [])
    (hvalid : Valid party pc) (houtside : ¬Inside pc) (hdone : pc ≠ .finished false) :
    Consistent initial clientBytes ({ bridge with lock := none }.setPc party pc) frames lost := by
  have hlock := (h.lock party).mp (by rw [hpc]; trivial)
  refine h.replace party pc bridge.clientIn hpc hvalid (by rw [hpart]; rfl)
    (iff_of_false houtside (by simp)) ?_
    (h.accounts_setPc party _ hpc (by rw [hpending]; rfl) (by simp) hdone)
  intro other hne
  rw [h.lock other, hlock, Option.some.injEq]
  exact iff_of_false (Ne.symm hne) (by simp)

theorem write_consistent (h : Consistent initial clientBytes bridge frames lost) {party : Party}
    {outgoing : Outgoing} {written : Nat} (count : Nat)
    (hpc : bridge.pc party = .writing outgoing written) (hcut : bridge.cut = [])
    (hle : written + count ≤ outgoing.bytes.length) :
    let next := { bridge with wsOut := bridge.wsOut ++ (outgoing.bytes.drop written).take count }
    if written + count = outgoing.bytes.length then
      Consistent initial clientBytes (next.setPc party .flushing) (frames ++ [outgoing.frame]) lost
    else
      Consistent initial clientBytes (next.setPc party (.writing outgoing (written + count))) frames
        lost := by
  intro next
  have hlock := (h.lock party).mp (by rw [hpc]; trivial)
  have hvalid := h.valid party
  rw [hpc] at hvalid
  have hbefore : bridge.unfinished = outgoing.bytes.take written := by
    rw [unfinished_eq bridge party (h.alone (.inr hlock)), hpc, hcut]
    rfl
  have hafter : ∀ pc, (next.setPc party pc).unfinished = part pc := by
    intro pc
    rw [unfinished_eq _ party, pc_setPc, if_pos rfl, setPc_cut]
    · exact congrArg (· ++ part pc) hcut
    · intro other hne
      rw [pc_setPc, if_neg hne]
      exact h.alone (.inr hlock) other hne
  have hwsOut : next.wsOut = ((initial ++ frames).map Frame.encode).flatten ++
      outgoing.bytes.take (written + count) := by
    change bridge.wsOut ++ _ = _
    rw [h.wsOut, hbefore, List.append_assoc, List.take_add]
  have hlocks : ∀ pc, Inside pc → ∀ other,
      Inside ((next.setPc party pc).pc other) ↔ (next.setPc party pc).lock = some other := by
    intro pc hinside other
    rw [pc_setPc, setPc_lock]
    split
    · rename_i heq
      exact iff_of_true hinside (heq ▸ hlock)
    · exact h.lock other
  have hidle : ∀ pc, (next.setPc party pc).cut ≠ [] →
      ∀ other, part ((next.setPc party pc).pc other) = [] := by
    intro pc hne
    rw [setPc_cut] at hne
    exact absurd hcut hne
  split
  · rename_i hend
    refine ⟨?_, ?_, ?_, hlocks _ trivial, by rw [setPc_cut]; exact h.cut, hidle _, ?_⟩
    · rw [setPc_wsOut, hwsOut, hafter, hend, List.take_length, outgoing.bytes_eq_encode]
      simp [part]
    · intro frame hmem
      rcases List.mem_append.mp hmem with hmem | hmem
      · exact h.sent frame hmem
      · obtain rfl := List.mem_singleton.mp hmem
        refine ⟨rfl, rfl, ?_, hvalid.1.2⟩
        change outgoing.opcode.code = _ ∨ outgoing.opcode.code = _
        rw [hvalid.1.1]
        cases party <;> simp [partyOpcode]
    · exact valid_setPc next party .flushing h.valid trivial
    · cases party with
      | client =>
          have hopcode : outgoing.frame.code = Opcode.binary.code := congrArg Opcode.code hvalid.1.1
          have hkept := h.accounts.kept (by rw [hpc]; simp)
          have hdata := h.accounts.data
          rw [hpc] at hdata
          refine ⟨?_, fun _ => hkept, fun hdone => by cases hdone⟩
          rw [binaryData_append, binaryData_singleton, if_pos hopcode]
          change binaryData frames ++ outgoing.data ++ [] ++ lost ++ bridge.clientIn.bytes = _
          rw [List.append_nil]
          exact hdata
      | webSocket =>
          have hopcode : outgoing.frame.code = Opcode.pong.code := congrArg Opcode.code hvalid.1.1
          have hnone : binaryData (frames ++ [outgoing.frame]) = binaryData frames := by
            rw [binaryData_append, binaryData_singleton, if_neg (by rw [hopcode]; decide),
              List.append_nil]
          exact ⟨hnone ▸ h.accounts.data, h.accounts.kept, h.accounts.done⟩
  · rename_i hend
    refine ⟨?_, h.sent, ?_, hlocks _ trivial, by rw [setPc_cut]; exact h.cut, hidle _, ?_⟩
    · rw [setPc_wsOut, hwsOut, hafter]
      rfl
    · exact valid_setPc next party _ h.valid ⟨hvalid.1, by omega⟩
    · have haccounts := h.accounts_setPc party (.writing outgoing (written + count)) hpc rfl (by simp)
        (by simp)
      rw [setPc_clientIn]
      cases party <;> exact haccounts

-- A write that fails leaves its part of the array behind for good.
theorem failWriting_consistent (h : Consistent initial clientBytes bridge frames lost) {party : Party}
    {outgoing : Outgoing} {written : Nat} (hpc : bridge.pc party = .writing outgoing written) :
    ∃ lost', Consistent initial clientBytes
      ({ bridge with lock := none, cut := bridge.cut ++ outgoing.bytes.take written }.setPc party
        (afterFailure party)) frames lost' := by
  have hlock := (h.lock party).mp (by rw [hpc]; trivial)
  have hvalid := h.valid party
  rw [hpc] at hvalid
  have hbefore : bridge.unfinished = bridge.cut ++ outgoing.bytes.take written := by
    rw [unfinished_eq bridge party (h.alone (.inr hlock)), hpc]
    rfl
  have houtside : ¬Inside (afterFailure party) := by
    cases party <;> exact not_false
  let unlocked := { bridge with lock := none, cut := bridge.cut ++ outgoing.bytes.take written }
  let next := unlocked.setPc party (afterFailure party)
  have hparts : ∀ other, part (next.pc other) = [] := by
    intro other
    rw [pc_setPc]
    split
    · exact part_outside houtside
    · rename_i hne
      exact h.alone (.inr hlock) other hne
  have haccounts : ∃ lost', Accounts clientBytes frames lost' (next.pc .client) bridge.clientIn := by
    cases party with
    | client =>
        have hkept := h.accounts.kept (by rw [hpc]; simp)
        have hdata := h.accounts.data
        rw [hpc, hkept] at hdata
        refine ⟨outgoing.data, ?_, fun hne => absurd rfl hne, fun hdone => by cases hdone⟩
        simpa [pendingData, next, pc, setPc, afterFailure] using hdata
    | webSocket => exact ⟨lost, h.accounts⟩
  obtain ⟨lost', haccounts⟩ := haccounts
  refine ⟨lost', ?_, h.sent, ?_, ?_, ?_, fun _ => hparts, ?_⟩
  · have hafter : next.unfinished = bridge.unfinished := by
      rw [unfinished_eq next party (fun other _ => hparts other), hparts, setPc_cut, List.append_nil,
        hbefore]
    rw [hafter, setPc_wsOut]
    exact h.wsOut
  · exact valid_setPc unlocked party _ h.valid (by cases party <;> exact trivial)
  · intro other
    rw [pc_setPc, setPc_lock]
    split
    · exact iff_of_false houtside (by simp)
    · rename_i hne
      have hother := h.lock other
      rw [hlock, Option.some.injEq] at hother
      exact iff_of_false (fun hinside => hne (hother.mp hinside).symm) (by simp)
  · rw [setPc_cut]
    by_cases hcut : bridge.cut = []
    · right
      refine ⟨outgoing.frame, outgoing.bytes.drop written, ?_, ?_, hvalid.1.2⟩
      · rw [hcut, List.nil_append, List.take_append_drop, outgoing.bytes_eq_encode]
      · simpa using hvalid.2
    · have hnone : outgoing.bytes.take written = [] := by
        have hidle := h.idle hcut party
        rwa [hpc] at hidle
      rw [hnone, List.append_nil]
      exact h.cut
  · rw [setPc_clientIn]
    exact haccounts

theorem fail_consistent (h : Consistent initial clientBytes bridge frames lost) (party : Party)
    (hstep : bridge.step (.fail party) = some next) :
    ∃ lost', Consistent initial clientBytes next frames lost' := by
  simp only [step] at hstep
  cases hpc : bridge.pc party with
  | reading =>
      rw [hpc] at hstep
      obtain rfl := Option.some.inj hstep
      exact ⟨lost, h.move party (.finished true) bridge.clientIn hpc trivial rfl Iff.rfl
        (h.accounts_setPc party _ hpc rfl (by simp) (by simp))⟩
  | writing outgoing written =>
      rw [hpc] at hstep
      obtain rfl := Option.some.inj hstep
      exact failWriting_consistent h hpc
  | flushing =>
      rw [hpc] at hstep
      obtain rfl := Option.some.inj hstep
      refine ⟨lost, leave_consistent h hpc ?_ ?_ ?_ ?_ ?_⟩ <;> cases party <;>
        simp [afterFailure, part, pendingData, Valid, Inside]
  | entering outgoing => simp [hpc] at hstep
  | finished failed => simp [hpc] at hstep

-- The frame whose last piece is written.
def completed (bridge : BridgeWs) : Event → List Frame
  | .write party count =>
      match bridge.pc party with
      | .writing outgoing written =>
          if written + count = outgoing.bytes.length then [outgoing.frame] else []
      | _ => []
  | .read _ _ | .enter _ | .leave _ | .fail _ => []

theorem step_consistent (h : Consistent initial clientBytes bridge frames lost) (event : Event)
    (hstep : bridge.step event = some next) :
    ∃ lost', Consistent initial clientBytes next (frames ++ bridge.completed event) lost' := by
  cases event with
  | read party mask =>
      refine ⟨lost, ?_⟩
      rw [completed, List.append_nil]
      cases party with
      | client =>
          cases hpc : bridge.pc .client <;> simp only [step, hpc] at hstep <;> try cases hstep
          exact readClient_consistent h mask hpc
      | webSocket =>
          cases hpc : bridge.pc .webSocket <;> simp only [step, hpc] at hstep <;> try cases hstep
          exact readWebSocket_consistent h mask hpc
  | enter party =>
      refine ⟨lost, ?_⟩
      rw [completed, List.append_nil]
      simp only [step] at hstep
      split at hstep
      · rename_i outgoing hpc hfree
        obtain rfl := Option.some.inj hstep
        exact enter_consistent h hpc hfree
      · cases hstep
  | write party count =>
      simp only [step] at hstep
      split at hstep
      · rename_i outgoing written hpc
        split at hstep
        · rename_i hwrite
          obtain ⟨hcut, _, hle⟩ := hwrite
          have hnext := write_consistent h count hpc hcut hle
          refine ⟨lost, ?_⟩
          simp only [completed, hpc]
          split at hstep
          · rename_i hend
            obtain rfl := Option.some.inj hstep
            simp only [hend, if_true] at hnext ⊢
            exact hnext
          · rename_i hend
            obtain rfl := Option.some.inj hstep
            simp only [hend, if_false, List.append_nil] at hnext ⊢
            exact hnext
        · cases hstep
      · cases hstep
  | leave party =>
      refine ⟨lost, ?_⟩
      rw [completed, List.append_nil]
      simp only [step] at hstep
      split at hstep
      · rename_i hpc
        obtain rfl := Option.some.inj hstep
        exact leave_consistent h hpc rfl rfl trivial not_false (by simp)
      · cases hstep
  | fail party =>
      obtain ⟨lost', hnext⟩ := fail_consistent h party hstep
      exact ⟨lost', by rw [completed, List.append_nil]; exact hnext⟩

theorem readClient_cut (bridge : BridgeWs) (mask : Mask) : (bridge.readClient mask).cut = bridge.cut := by
  unfold readClient
  split <;> rfl

theorem readWebSocket_cut (bridge : BridgeWs) (mask : Mask) :
    (bridge.readWebSocket mask).cut = bridge.cut := by
  unfold readWebSocket
  split
  · rfl
  · split <;> rfl

def Event.party : Event → Party
  | .read party _ | .enter party | .write party _ | .leave party | .fail party => party

-- Around synchronized(out) only the lock, the stream and the place of the party change.
theorem step_inside {event : Event} (hread : ∀ party mask, event ≠ .read party mask)
    (hfail : ∀ party, event ≠ .fail party) (hstep : bridge.step event = some next) :
    ∃ lock wsOut pc, next = { bridge with lock, wsOut }.setPc event.party pc ∧ ∀ failed, pc ≠ .finished failed := by
  cases event with
  | read party mask => exact absurd rfl (hread party mask)
  | enter party =>
      simp only [step] at hstep
      split at hstep
      · obtain rfl := Option.some.inj hstep
        exact ⟨_, _, _, rfl, by simp⟩
      · cases hstep
  | write party count =>
      simp only [step] at hstep
      split at hstep
      · split at hstep
        · split at hstep <;> obtain rfl := Option.some.inj hstep <;> exact ⟨_, _, _, rfl, by simp⟩
        · cases hstep
      · cases hstep
  | leave party =>
      simp only [step] at hstep
      split at hstep
      · obtain rfl := Option.some.inj hstep
        exact ⟨_, _, _, rfl, by simp⟩
      · cases hstep
  | fail party => exact absurd rfl (hfail party)

def readBy (bridge : BridgeWs) (mask : Mask) : Party → BridgeWs
  | .client => bridge.readClient mask
  | .webSocket => bridge.readWebSocket mask

theorem step_read {party : Party} {mask : Mask} (hstep : bridge.step (.read party mask) = some next) :
    bridge.pc party = .reading ∧ bridge.readBy mask party = next := by
  cases party <;> cases hpc : bridge.pc _ <;> simp only [step, hpc] at hstep <;> try cases hstep
  all_goals exact ⟨rfl, rfl⟩

-- Only a failure cuts an array off.
theorem step_cut (event : Event) (hevent : ∀ party, event ≠ .fail party)
    (hstep : bridge.step event = some next) : next.cut = bridge.cut := by
  by_cases hread : ∃ party mask, event = .read party mask
  · obtain ⟨party, mask, rfl⟩ := hread
    obtain ⟨_, rfl⟩ := step_read hstep
    cases party with
    | client => exact readClient_cut bridge mask
    | webSocket => exact readWebSocket_cut bridge mask
  · have hread : ∀ party mask, event ≠ .read party mask := by simpa using hread
    obtain ⟨_, _, _, rfl, _⟩ := step_inside hread hevent hstep
    rw [setPc_cut]

theorem Consistent.unfinished_of_free (h : Consistent initial clientBytes bridge frames lost)
    (hlock : bridge.lock = none) (hcut : bridge.cut = []) : bridge.unfinished = [] := by
  rw [unfinished_eq bridge .client (h.alone (.inl hlock)), hcut, part_outside (by rw [h.lock, hlock]; simp)]
  rfl

theorem Consistent.unfinished_part (h : Consistent initial clientBytes bridge frames lost) :
    bridge.unfinished = [] ∨ ∃ frame more, bridge.unfinished ++ more = Frame.encode frame ∧ more ≠ [] ∧
      frame.payload.length < 2 ^ 31 := by
  by_cases hcut : bridge.cut = []
  · cases hlock : bridge.lock with
    | none => exact .inl (h.unfinished_of_free hlock hcut)
    | some party =>
        rw [unfinished_eq bridge party (h.alone (.inr hlock)), hcut, List.nil_append]
        have hvalid := h.valid party
        cases hpc : bridge.pc party with
        | writing outgoing written =>
            rw [hpc] at hvalid
            refine .inr ⟨outgoing.frame, outgoing.bytes.drop written, ?_, ?_, hvalid.1.2⟩
            · rw [part, List.take_append_drop, outgoing.bytes_eq_encode]
            · simpa using hvalid.2
        | _ => exact .inl rfl
  · rw [unfinished_eq bridge .client (fun other _ => h.idle hcut other), h.idle hcut, List.append_nil]
    exact h.cut

end BridgeWs

end ToInet.Tgws
