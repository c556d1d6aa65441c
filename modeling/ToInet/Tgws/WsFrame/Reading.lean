import ToInet.Tgws.WsFrame

namespace ToInet.Tgws

open ToInet.Lib ToInet.Lib.WebSocket

theorem readFully_eq (input : Input) (size : Nat) : readFully input size = input.fill size := rfl

-- A field is read whole, however the stream is cut.
theorem readFully_append {input : Input} {field more : Bytes} (hinput : input.bytes = field ++ more) :
    ∃ rest, readFully input field.length = some (field, rest) ∧ rest.bytes = more := by
  rw [readFully_eq]
  exact Input.fill_append hinput

theorem readFully_eq_some {size : Nat} {input rest : Input} {field : Bytes}
    (h : readFully input size = some (field, rest)) :
    field.length = size ∧ input.bytes = field ++ rest.bytes := by
  rw [readFully_eq] at h
  exact Input.fill_eq_some h

theorem readFully_congr {input other : Input} (size : Nat) (h : input.bytes = other.bytes) :
    (readFully input size = none ∧ readFully other size = none) ∨ ∃ field rest last,
      readFully input size = some (field, rest) ∧ readFully other size = some (field, last) ∧
        rest.bytes = last.bytes := by
  rw [readFully_eq, readFully_eq]
  exact Input.fill_congr size h

theorem shiftInByte_eq (len : BitVec 64) (b : UInt8) :
    shiftInByte len b = BitVec.ofNat 64 (len.toNat * 256 + b.toNat) := by
  apply BitVec.eq_of_toNat_eq
  have hb := b.toNat_lt
  have hshift : len.toNat <<< 8 % 2 ^ 64 = (len.toNat % 2 ^ 56) <<< 8 := by
    rw [Nat.shiftLeft_eq, Nat.shiftLeft_eq]
    omega
  have hlow : (b.toBitVec.setWidth 64).toNat = b.toNat := by
    rw [BitVec.toNat_setWidth, UInt8.toNat_toBitVec]
    omega
  rw [shiftInByte, BitVec.toNat_or, BitVec.toNat_shiftLeft, hshift, hlow, shiftLeft_or _ _ 8 hb,
    BitVec.toNat_ofNat]
  omega

theorem foldl_shiftInByte (ext : Bytes) (len : BitVec 64) :
    ext.foldl shiftInByte len =
      BitVec.ofNat 64 (len.toNat * 256 ^ ext.length + beNat ext) := by
  induction ext generalizing len with
  | nil => simp [beNat]
  | cons b ext ih =>
      rw [List.foldl_cons, ih, shiftInByte_eq]
      apply BitVec.eq_of_toNat_eq
      rw [BitVec.toNat_ofNat, BitVec.toNat_ofNat, BitVec.toNat_ofNat, List.length_cons, beNat, pow_succ,
        ← Nat.add_assoc, Nat.add_mod, Nat.mod_mul_mod]
      rw [← Nat.add_mod]
      congr 1
      ring

theorem u16At_pair {ext : Bytes} (hext : ext.length = 2) : u16At ext 0 = some (beNat ext) := by
  have hwhole : ext.take 2 = ext := List.take_of_length_le (by omega)
  rw [u16At_eq_fieldAt, fieldAt, if_pos (by omega), List.drop_zero, hwhole]

-- The length is read as the header has it, up to 64 bits.
theorem readLength_ok (marker : Nat) {input : Input} {ext more : Bytes} (hext : ext.length = (formOf marker).width)
    (hinput : input.bytes = ext ++ more) :
    ∃ rest, readLength marker input =
        .ok (BitVec.ofNat 64 (if formOf marker = .seven then marker else beNat ext), rest) ∧ rest.bytes = more := by
  unfold formOf at hext ⊢
  by_cases hshort : marker = 126
  · rw [if_pos hshort, LengthForm.width] at hext
    obtain ⟨rest, hread, hrest⟩ := readFully_append hinput
    rw [hext] at hread
    refine ⟨rest, ?_, hrest⟩
    simp only [readLength, hshort, if_true, hread, orNull_some, ok_bind, u16At_pair hext]
    rfl
  · rw [if_neg hshort] at hext ⊢
    by_cases hlong : marker = 127
    · rw [if_pos hlong, LengthForm.width] at hext
      obtain ⟨rest, hread, hrest⟩ := readFully_append hinput
      rw [hext] at hread
      refine ⟨rest, ?_, hrest⟩
      simp only [readLength, hlong, show ¬(127 : Nat) = 126 by decide, if_true, if_false, hread, orNull_some, ok_bind]
      rw [foldl_shiftInByte]
      simp only [BitVec.ofNat_eq_ofNat, BitVec.toNat_ofNat, Nat.zero_mod, Nat.zero_mul, Nat.zero_add]
      rfl
    · rw [if_neg hlong] at hext
      obtain rfl := List.length_eq_zero_iff.mp hext
      refine ⟨input, ?_, hinput⟩
      simp only [readLength, hshort, hlong, if_false, if_true]
      rfl

-- len.toInt() keeps the low 32 bits, and their sign.
theorem toInt_length (length : Nat) :
    ((((BitVec.ofNat 64 length).setWidth 32).toInt < 0) ↔ 2 ^ 31 ≤ length % 2 ^ 32) ∧
      (length % 2 ^ 32 < 2 ^ 31 → ((BitVec.ofNat 64 length).setWidth 32).toInt.toNat = length % 2 ^ 32) := by
  have hbits : ((BitVec.ofNat 64 length).setWidth 32).toNat = length % 2 ^ 32 := by
    rw [BitVec.toNat_setWidth, BitVec.toNat_ofNat]
    omega
  have hint := BitVec.toInt_eq_toNat_cond ((BitVec.ofNat 64 length).setWidth 32)
  rw [hbits] at hint
  constructor
  · rw [hint]
    split <;> omega
  · intro hsmall
    rw [hint, if_pos (by omega)]
    omega

theorem opcode_mask (b : UInt8) : b.toNat &&& 0x0F = b.toNat % 16 := by
  rw [show (0x0F : Nat) = 2 ^ 4 - 1 from rfl, Nat.and_two_pow_sub_one_eq_mod]

theorem marker_mask (b : UInt8) : b.toNat &&& 0x7F = b.toNat % 128 := by
  rw [show (0x7F : Nat) = 2 ^ 7 - 1 from rfl, Nat.and_two_pow_sub_one_eq_mod]

-- A frame is read up to the length that is left of the one in its header.
theorem readFrame_ok {input : Input} {front data more : Bytes} {found : Header}
    (hheader : header input.bytes = some found) (hinput : input.bytes = front ++ data ++ more)
    (hfront : front.length = 2 + found.form.width) (hdata : data.length = found.length % 2 ^ 32)
    (hshort : found.length % 2 ^ 32 < 2 ^ 31) :
    ∃ rest, readFrame input = .ok (found.code, data, rest) ∧ rest.bytes = more := by
  obtain ⟨b0, b1, ext, rest, hbytes, hext⟩ := header_eq_some hheader
  rw [hbytes, header_append b0 hext] at hheader
  obtain rfl := Option.some.inj hheader
  have hsplit : [b0, b1] ++ ext ++ rest = front ++ (data ++ more) := by
    rw [← List.append_assoc, ← hinput, hbytes]
    simp
  have hlengths : ([b0, b1] ++ ext).length = front.length := by
    rw [hfront, List.length_append, hext]
    rfl
  obtain ⟨_, rfl⟩ := List.append_inj hsplit hlengths
  obtain ⟨rest₁, hread₁, hrest₁⟩ := Input.readByte_cons hbytes
  obtain ⟨rest₂, hread₂, hrest₂⟩ := Input.readByte_cons hrest₁
  obtain ⟨rest₃, hread₃, hrest₃⟩ := readLength_ok (b1.toNat % 128) hext hrest₂
  obtain ⟨rest₄, hread₄, hrest₄⟩ := readFully_append hrest₃
  obtain ⟨hsign, hsize⟩ := toInt_length (if formOf (b1.toNat % 128) = .seven then b1.toNat % 128 else beNat ext)
  rw [hdata] at hread₄
  refine ⟨rest₄, ?_, hrest₄⟩
  simp only [readFrame, hread₁, orNull_some, ok_bind, hread₂, opcode_mask, marker_mask, hread₃,
    if_neg (mt hsign.mp (Nat.not_le.mpr hshort)), hsize hshort, hread₄]
  rfl

-- A frame of the server, which does not mask, with any form of its length.
structure ServerFrame where
  frame : Frame
  opcode : Opcode
  form : LengthForm
  known : frame.code = opcode.code
  unmasked : frame.mask = none
  fits : form.Fits frame.payload.length
  size : frame.payload.length < 2 ^ 31

namespace ServerFrame

def encode (server : ServerFrame) : Bytes := server.frame.encodeAs server.form

end ServerFrame

theorem header_encode (server : ServerFrame) (more : Bytes) :
    header (server.encode ++ more) =
      some { code := server.opcode.code, masked := false, form := server.form
             length := server.frame.payload.length } := by
  obtain ⟨⟨fin, code, mask, payload⟩, opcode, form, hcode, hmask, hfits, hsize⟩ := server
  obtain rfl : mask = none := hmask
  obtain rfl : code = opcode.code := hcode
  obtain ⟨hb0, _⟩ := flag_byte fin opcode.code (by have := opcode.code.isLt; omega)
  obtain ⟨hb1, hunmasked⟩ := flag_byte false (form.marker payload.length) (form.marker_lt _ hfits)
  have hcode : (toByte (Frame.flag fin + opcode.code : Nat)).toNat % 16 = opcode.code := by
    have := opcode.code.isLt
    omega
  have hform : formOf (form.marker payload.length) = form := by
    cases form with
    | seven =>
        have hn : payload.length ≤ 125 := hfits
        rw [LengthForm.marker, formOf, if_neg (by omega), if_neg (by omega)]
    | sixteen => rfl
    | sixtyFour => rfl
  have hext := form.length_extension payload.length
  have hvalue : (if form = .seven then form.marker payload.length else beNat (form.extension payload.length)) =
      payload.length := by
    cases form with
    | seven => rfl
    | sixteen => exact beNat_beBytes 2 _ hfits
    | sixtyFour => exact beNat_beBytes 8 _ (Nat.lt_trans (show payload.length < 2 ^ 63 from hfits) (by decide))
  have hwidth : (form.extension payload.length).length =
      (formOf ((toByte (Frame.flag false + form.marker payload.length : Nat)).toNat % 128)).width := by
    rw [hb1, hform, hext]
  have hfound := header_append (toByte (Frame.flag fin + opcode.code : Nat)) hwidth (payload ++ more)
  rw [hb1, hcode, hform, hvalue, hunmasked] at hfound
  rw [← hfound]
  simp [ServerFrame.encode, Frame.encodeAs, Frame.maskBytes, Frame.wirePayload]

theorem encode_eq (server : ServerFrame) :
    ∃ front, server.encode = front ++ server.frame.payload ∧ front.length = 2 + server.form.width := by
  obtain ⟨⟨fin, code, mask, payload⟩, opcode, form, hcode, hmask, hfits, hsize⟩ := server
  obtain rfl : mask = none := hmask
  obtain rfl : code = opcode.code := hcode
  refine ⟨toByte (Frame.flag fin + opcode.code : Nat) :: toByte (Frame.flag false + form.marker payload.length : Nat) ::
    form.extension payload.length, ?_, ?_⟩
  · simp [ServerFrame.encode, Frame.encodeAs, Frame.maskBytes, Frame.wirePayload]
  · rw [List.length_cons, List.length_cons, LengthForm.length_extension]
    exact Nat.add_comm form.width 2

theorem readFrame_encode (server : ServerFrame) (more : Bytes) {input : Input}
    (hinput : input.bytes = server.encode ++ more) :
    ∃ rest, readFrame input = .ok (server.opcode.code, server.frame.payload, rest) ∧
      rest.bytes = more := by
  have hheader := header_encode server more
  rw [← hinput] at hheader
  have hsize := server.size
  have hwhole : server.frame.payload.length % 2 ^ 32 = server.frame.payload.length := by omega
  obtain ⟨front, hencode, hfront⟩ := encode_eq server
  rw [hencode] at hinput
  exact readFrame_ok hheader hinput hfront hwhole.symm (by dsimp only; omega)

-- How the bytes of the server end: with the stream, or with a close frame, which
-- nothing is read behind.
inductive Ending where
  | endOfStream
  | close (server : ServerFrame) (hclose : server.opcode = .close) (more : Bytes)

def Ending.bytes : Ending → Bytes
  | endOfStream => []
  | close server _ more => server.encode ++ more

def streamBytes (frames : List ServerFrame) (ending : Ending) : Bytes :=
  (frames.map ServerFrame.encode).flatten ++ ending.bytes

def payloads (wanted : List Opcode) (frames : List ServerFrame) : List Bytes :=
  (frames.filter fun server => server.opcode ∈ wanted).map fun server => server.frame.payload

theorem frameAction_code (opcode : Opcode) :
    frameAction opcode.code = match opcode with
      | .close => .close
      | .ping => .sendPong
      | .text | .binary => .deliver
      | .continuation | .pong => .skip := by
  cases opcode <;> rfl

-- Up to the first data frame: the pings, and the data with the frames behind it.
def nextData : List ServerFrame → List Bytes × Option (Bytes × List ServerFrame)
  | [] => ([], none)
  | server :: frames =>
      match frameAction server.opcode.code with
      | .deliver => ([], some (server.frame.payload, frames))
      | .sendPong => (server.frame.payload :: (nextData frames).1, (nextData frames).2)
      | _ => nextData frames

theorem readWsFrame_ending (ending : Ending) (fuel : Nat) (input : Input)
    (hinput : input.bytes = ending.bytes) :
    readWsFrame (fuel + 1) input = ([], some (.error .null)) := by
  cases ending with
  | endOfStream =>
      have hread : readFrame input = .error .null := by
        rw [readFrame, Input.readByte_nil hinput]
        rfl
      simp only [readWsFrame, hread]
  | close server hop more =>
      obtain ⟨rest, hread, _⟩ := readFrame_encode server more hinput
      simp only [readWsFrame, hread, hop, frameAction_code]

theorem readWsFrame_stream (frames : List ServerFrame) (ending : Ending) (fuel : Nat) (input : Input)
    (hclose : ∀ server ∈ frames, server.opcode ≠ .close) (hfuel : frames.length < fuel)
    (hinput : input.bytes = streamBytes frames ending) :
    (readWsFrame fuel input).1 = (nextData frames).1 ∧
      match (nextData frames).2 with
      | none => (readWsFrame fuel input).2 = some (.error .null)
      | some (data, later) => ∃ rest, (readWsFrame fuel input).2 = some (.ok (data, rest)) ∧
          rest.bytes = streamBytes later ending := by
  induction frames generalizing fuel input with
  | nil =>
      obtain ⟨fuel, rfl⟩ : ∃ k, fuel = k + 1 := ⟨fuel - 1, by omega⟩
      rw [readWsFrame_ending ending fuel input hinput]
      exact ⟨rfl, rfl⟩
  | cons server frames ih =>
      obtain ⟨fuel, rfl⟩ : ∃ k, fuel = k + 1 := ⟨fuel - 1, by rw [List.length_cons] at hfuel; omega⟩
      obtain ⟨rest, hread, hrest⟩ := readFrame_encode server (streamBytes frames ending)
        (by simpa [streamBytes] using hinput)
      obtain ⟨hpings, hfound⟩ := ih fuel rest (fun s hs => hclose s (List.mem_cons_of_mem _ hs))
        (by rw [List.length_cons] at hfuel; omega) hrest
      have hne := hclose server List.mem_cons_self
      simp only [readWsFrame, hread, nextData]
      cases hop : server.opcode with
      | close => exact absurd hop hne
      | ping => exact ⟨by rw [← hpings]; rfl, hfound⟩
      | text => exact ⟨rfl, rest, rfl, hrest⟩
      | binary => exact ⟨rfl, rest, rfl, hrest⟩
      | continuation => exact ⟨hpings, hfound⟩
      | pong => exact ⟨hpings, hfound⟩

def delivered : List ServerFrame → List Bytes := payloads [.text, .binary]

def pings : List ServerFrame → List Bytes := payloads [.ping]

-- The messages' data: continuation frames carry a part of it.
def messageData : List ServerFrame → List Bytes := payloads [.text, .binary, .continuation]

theorem payloads_cons (wanted : List Opcode) (server : ServerFrame) (frames : List ServerFrame) :
    payloads wanted (server :: frames) =
      if server.opcode ∈ wanted then server.frame.payload :: payloads wanted frames
      else payloads wanted frames := by
  by_cases h : server.opcode ∈ wanted <;> simp [payloads, h]

theorem nextData_spec (frames : List ServerFrame) :
    match (nextData frames).2 with
    | none => delivered frames = [] ∧ pings frames = (nextData frames).1
    | some (data, later) => delivered frames = data :: delivered later ∧
        pings frames = (nextData frames).1 ++ pings later ∧ ∃ before, frames = before ++ later ∧
          before ≠ [] := by
  induction frames with
  | nil => exact ⟨rfl, rfl⟩
  | cons server frames ih =>
      simp only [nextData, delivered, pings, payloads_cons] at ih ⊢
      cases hop : server.opcode with
      | text => exact ⟨rfl, rfl, [server], rfl, by simp⟩
      | binary => exact ⟨rfl, rfl, [server], rfl, by simp⟩
      | _ =>
          cases hfound : (nextData frames).2 with
          | none =>
              rw [hfound] at ih
              simp [frameAction_code, hfound, ih.1, ih.2]
          | some found =>
              rw [hfound] at ih
              obtain ⟨hdelivered, hpings, before, hsplit, _⟩ := ih
              simp only [frameAction_code, hfound]
              refine ⟨by simpa using hdelivered, by simpa using hpings, server :: before, ?_, by simp⟩
              rw [hsplit, List.cons_append]

theorem readWsFrames_stream (frames : List ServerFrame) (ending : Ending) (most fuel : Nat)
    (input : Input) (hclose : ∀ server ∈ frames, server.opcode ≠ .close)
    (hmost : frames.length < most) (hfuel : frames.length < fuel)
    (hinput : input.bytes = streamBytes frames ending) :
    readWsFrames most fuel input =
      some { returned := delivered frames, pongs := pings frames, stop := .null } := by
  induction fuel generalizing frames input with
  | zero => omega
  | succ fuel ih =>
      obtain ⟨hpings, hresult⟩ := readWsFrame_stream frames ending most input hclose hmost hinput
      have hspec := nextData_spec frames
      rw [readWsFrames, ← Prod.mk.eta (p := readWsFrame most input), hpings]
      cases hfound : (nextData frames).2 with
      | none =>
          rw [hfound] at hresult hspec
          rw [show (readWsFrame most input).2 = _ from hresult, hspec.1, hspec.2]
      | some found =>
          obtain ⟨data, later⟩ := found
          rw [hfound] at hresult hspec
          obtain ⟨rest, hok, hrest⟩ := hresult
          obtain ⟨hdelivered, hall, before, rfl, hne⟩ := hspec
          have hlen := List.length_pos_iff.mpr hne
          rw [List.length_append] at hmost hfuel
          have hlater := ih later rest (fun s hs => hclose s (List.mem_append_right _ hs))
            (by omega) (by omega) hrest
          simp only [hok, hlater, hdelivered, hall]
          rfl

theorem flatten_messageData (frames : List ServerFrame) :
    (delivered frames).flatten = (messageData frames).flatten ↔
      ∀ server ∈ frames, server.opcode = .continuation → server.frame.payload = [] := by
  have hlen : ∀ frames, (delivered frames).flatten.length ≤ (messageData frames).flatten.length := by
    intro frames
    induction frames with
    | nil => simp [delivered, messageData, payloads]
    | cons server frames ih =>
        simp only [delivered, messageData, payloads_cons] at ih ⊢
        cases server.opcode <;> simp at ih ⊢ <;> omega
  induction frames with
  | nil => simp [delivered, messageData, payloads]
  | cons server frames ih =>
      rw [List.forall_mem_cons]
      refine Iff.trans ?_ (and_congr_right fun _ => ih)
      have hle := hlen frames
      simp only [delivered, messageData, payloads_cons] at hle ⊢
      cases hop : server.opcode with
      | continuation =>
          simp only [List.mem_cons, List.not_mem_nil, reduceCtorEq, or_false, false_or, if_false, if_true,
            List.flatten_cons, forall_const]
          constructor
          · intro heq
            have hl := congrArg List.length heq
            rw [List.length_append] at hl
            have hnil : server.frame.payload = [] := List.length_eq_zero_iff.mp (by omega)
            exact ⟨hnil, by simpa [hnil] using heq⟩
          · rintro ⟨hnil, heq⟩
            rw [hnil, heq, List.nil_append]
      | _ => simp

-- Repeated calls return all data of the messages exactly when no continuation frame
-- carries any; every ping is answered once.
theorem readWsFrames_messageData (frames : List ServerFrame) (ending : Ending) (input : Input)
    (hclose : ∀ server ∈ frames, server.opcode ≠ .close)
    (hinput : input.bytes = streamBytes frames ending) :
    ∃ reading, (∀ most fuel, frames.length < most → frames.length < fuel →
        readWsFrames most fuel input = some reading) ∧
      (reading.returned.flatten = (messageData frames).flatten ∧ reading.pongs = pings frames ↔
        ∀ server ∈ frames, server.opcode = .continuation → server.frame.payload = []) := by
  refine ⟨_, fun most fuel hmost hfuel =>
    readWsFrames_stream frames ending most fuel input hclose hmost hfuel hinput, ?_⟩
  rw [flatten_messageData]
  exact and_iff_left rfl

-- Complete messages with control frames anywhere between their frames.
def isMessages : Bool → List ServerFrame → Bool
  | started, [] => !started
  | started, server :: frames =>
      match server.opcode with
      | .text | .binary => !started && isMessages (!server.frame.fin) frames
      | .continuation => started && isMessages (!server.frame.fin) frames
      | .ping | .pong =>
          server.frame.fin && server.frame.payload.length ≤ 125 && isMessages started frames
      | .close => false

-- A text message in two fragments.
def helloFragments : List ServerFrame :=
  [{ frame := { fin := false, code := Opcode.text.code, mask := none, payload := [0x48, 0x65, 0x6C] }
     opcode := .text, form := .seven, known := rfl, unmasked := rfl, fits := by decide, size := by decide },
   { frame := { fin := true, code := Opcode.continuation.code, mask := none, payload := [0x6C, 0x6F] }
     opcode := .continuation, form := .seven, known := rfl, unmasked := rfl, fits := by decide, size := by decide }]

theorem readWsFrames_messageData_sample :
    ∃ reading, (∀ most fuel, helloFragments.length < most → helloFragments.length < fuel →
        readWsFrames most fuel ⟨[streamBytes helloFragments .endOfStream]⟩ = some reading) ∧
      (reading.returned.flatten = (messageData helloFragments).flatten ∧
          reading.pongs = pings helloFragments ↔
        ∀ server ∈ helloFragments, server.opcode = .continuation → server.frame.payload = []) :=
  readWsFrames_messageData helloFragments .endOfStream ⟨[streamBytes helloFragments .endOfStream]⟩
    (by decide) (by decide)

-- The second fragment never reaches the caller.
theorem readWsFrames_helloFragments :
    isMessages false helloFragments = true ∧ ∃ reading,
      readWsFrames 3 3 ⟨[streamBytes helloFragments .endOfStream]⟩ = some reading ∧
      reading.returned.flatten ≠ (messageData helloFragments).flatten :=
  ⟨by decide, { returned := [[0x48, 0x65, 0x6C]], pongs := [], stop := .null }, by decide, by decide⟩

end ToInet.Tgws
