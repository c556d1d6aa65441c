import ToInet.Tgws.WsFrame.Reading

-- Where readWsFrame stands in the stream, and where the frames begin.
namespace ToInet.Tgws

open ToInet.Lib ToInet.Lib.WebSocket

-- The input in front of each turn of the loop.
inductive Turns (input : Input) : Input → Prop
  | first : Turns input input
  | next {start rest : Input} {opcode : Nat} {data : Bytes} (h : Turns input start)
      (hread : readFrame start = .ok (opcode, data, rest))
      (hgoes : frameAction opcode = .skip ∨ frameAction opcode = .sendPong) : Turns input rest

-- One frame with just these data, and what comes behind it.
def WholeFrame (bytes data more : Bytes) : Prop :=
  ∃ found front, header bytes = some found ∧ front.length = found.size ∧ data.length = found.length ∧
    bytes = front ++ data ++ more

-- Each frame that is skipped or returned is a whole one, and every call ends.
structure KeepsToFrames (input : Input) : Prop where
  skipped : ∀ start, Turns input start → ∀ opcode data rest, readFrame start = .ok (opcode, data, rest) →
    frameAction opcode ≠ .close → WholeFrame start.bytes data rest.bytes
  returned : ∀ fuel data rest, (readWsFrame fuel input).2 = some (.ok (data, rest)) →
    ∃ start, Turns input start ∧ WholeFrame start.bytes data rest.bytes
  ends : ∀ fuel, input.bytes.length < fuel → (readWsFrame fuel input).2.isSome = true

-- Whole frames that are skipped lie in front.
inductive Comes (bytes : Bytes) : Bytes → Prop
  | first : Comes bytes bytes
  | next {front data more : Bytes} {found : Header} (h : Comes bytes (front ++ data ++ more))
      (hheader : header (front ++ data ++ more) = some found) (hfront : front.length = found.size)
      (hdata : data.length = found.length) (hunmasked : found.masked = false) (hsize : found.length < 2 ^ 31)
      (hgoes : frameAction found.code = .skip ∨ frameAction found.code = .sendPong) : Comes bytes more

-- The frame is masked, or its length is cut to 32 bits, and as much as is left of it follows.
def Misread (bytes : Bytes) (found : Header) : Prop :=
  frameAction found.code ≠ .close ∧ (found.masked = true ∨ 2 ^ 32 ≤ found.length) ∧
    found.length % 2 ^ 32 < 2 ^ 31 ∧ 2 + found.form.width + found.length % 2 ^ 32 ≤ bytes.length

def WellSized (bytes : Bytes) : Prop :=
  ∀ more, Comes bytes more → ∀ found, header more = some found → ¬Misread more found

variable {input start rest : Input} {opcode : Nat} {data : Bytes}

theorem readLength_eq_ok {marker : Nat} {length : BitVec 64} (h : readLength marker input = .ok (length, rest)) :
    ∃ ext, ext.length = (formOf marker).width ∧ input.bytes = ext ++ rest.bytes := by
  unfold readLength at h
  unfold formOf
  split at h
  · rename_i hshort
    obtain ⟨⟨ext, afterExt⟩, hext, h⟩ := bind_eq_ok h
    obtain ⟨value, _, h⟩ := bind_eq_ok h
    obtain ⟨_, rfl⟩ := Prod.mk.inj (Except.ok.inj h)
    obtain ⟨hlength, hbytes⟩ := readFully_eq_some (orNull_eq_ok hext)
    exact ⟨ext, by rw [if_pos hshort, hlength, LengthForm.width], hbytes⟩
  · rename_i hshort
    split at h
    · rename_i hlong
      obtain ⟨⟨ext, afterExt⟩, hext, h⟩ := bind_eq_ok h
      obtain ⟨_, rfl⟩ := Prod.mk.inj (Except.ok.inj h)
      obtain ⟨hlength, hbytes⟩ := readFully_eq_some (orNull_eq_ok hext)
      exact ⟨ext, by rw [if_neg hshort, if_pos hlong, hlength, LengthForm.width], hbytes⟩
    · rename_i hlong
      obtain ⟨_, rfl⟩ := Prod.mk.inj (Except.ok.inj h)
      exact ⟨[], by rw [if_neg hshort, if_neg hlong, LengthForm.width, List.length_nil], rfl⟩

theorem readByte_eq_some {n : Nat} (h : input.readByte = some (n, rest)) :
    ∃ b : UInt8, n = b.toNat ∧ input.bytes = b :: rest.bytes := by
  cases hbytes : input.bytes with
  | nil =>
      rw [Input.readByte_nil hbytes] at h
      cases h
  | cons b more =>
      obtain ⟨last, hread, hlast⟩ := Input.readByte_cons hbytes
      rw [hread] at h
      obtain ⟨rfl, rfl⟩ := Prod.mk.inj (Option.some.inj h)
      exact ⟨b, rfl, by rw [hlast]⟩

theorem readFrame_eq_ok (h : readFrame input = .ok (opcode, data, rest)) :
    ∃ found front, header input.bytes = some found ∧ opcode = found.code ∧ found.length % 2 ^ 32 < 2 ^ 31 ∧
      front.length = 2 + found.form.width ∧ data.length = found.length % 2 ^ 32 ∧
      input.bytes = front ++ data ++ rest.bytes := by
  obtain ⟨⟨n0, after0⟩, hb0, h⟩ := bind_eq_ok h
  obtain ⟨⟨n1, after1⟩, hb1, h⟩ := bind_eq_ok h
  obtain ⟨⟨length, afterLength⟩, hlength, h⟩ := bind_eq_ok h
  obtain ⟨b0, rfl, hbytes0⟩ := readByte_eq_some (orNull_eq_ok hb0)
  obtain ⟨b1, rfl, hbytes1⟩ := readByte_eq_some (orNull_eq_ok hb1)
  rw [marker_mask] at hlength
  obtain ⟨ext, hext, hafter⟩ := readLength_eq_ok hlength
  obtain ⟨_, hread, _⟩ := readLength_ok (b1.toNat % 128) hext hafter
  rw [hlength] at hread
  obtain ⟨rfl, _⟩ := Prod.mk.inj (Except.ok.inj hread)
  have hinput : input.bytes = b0 :: b1 :: (ext ++ afterLength.bytes) := by rw [hbytes0, hbytes1, hafter]
  have hheader := header_append b0 hext afterLength.bytes
  generalize (if formOf (b1.toNat % 128) = .seven then b1.toNat % 128 else beNat ext) = declared at h hheader
  obtain ⟨hsign, hsize⟩ := toInt_length declared
  dsimp only at h
  split at h
  · cases h
  · rename_i hnonneg
    have hshort := Nat.lt_of_not_le (mt hsign.mpr hnonneg)
    obtain ⟨⟨wire, afterData⟩, hdata, h⟩ := bind_eq_ok h
    obtain ⟨rfl, hrest⟩ := Prod.mk.inj (Except.ok.inj h)
    obtain ⟨rfl, rfl⟩ := Prod.mk.inj hrest
    obtain ⟨hwire, hwireBytes⟩ := readFully_eq_some (orNull_eq_ok hdata)
    refine ⟨_, b0 :: b1 :: ext, by rw [hinput, hheader], opcode_mask b0, hshort, ?_, ?_, ?_⟩
    · rw [List.length_cons, List.length_cons, hext]
      exact Nat.add_comm _ 2
    · rw [hwire, hsize hshort]
    · rw [hinput, hwireBytes]
      simp

theorem frameAction_ne_close (hgoes : frameAction opcode = .skip ∨ frameAction opcode = .sendPong) :
    frameAction opcode ≠ .close := by
  obtain h | h := hgoes <;> rw [h] <;> nofun

theorem Turns.before {other : Input} (hread : readFrame input = .ok (opcode, data, other))
    (hgoes : frameAction opcode = .skip ∨ frameAction opcode = .sendPong) (h : Turns other start) :
    Turns input start := by
  induction h with
  | first => exact .next .first hread hgoes
  | next _ hnext haction ih => exact .next ih hnext haction

theorem readWsFrame_ok {fuel : Nat} (h : (readWsFrame fuel input).2 = some (.ok (data, rest))) :
    ∃ start opcode, Turns input start ∧ readFrame start = .ok (opcode, data, rest) ∧ frameAction opcode = .deliver := by
  induction fuel generalizing input with
  | zero => cases h
  | succ fuel ih =>
      rw [readWsFrame] at h
      split at h
      · cases h
      · rename_i opcode wire more hread
        split at h
        · cases h
        · rename_i hpong
          obtain ⟨start, code, hturns, hdata, haction⟩ := ih h
          exact ⟨start, code, hturns.before hread (.inr hpong), hdata, haction⟩
        · rename_i hskip
          obtain ⟨start, code, hturns, hdata, haction⟩ := ih h
          exact ⟨start, code, hturns.before hread (.inl hskip), hdata, haction⟩
        · rename_i hdeliver
          obtain ⟨rfl, rfl⟩ := Prod.mk.inj (Except.ok.inj (Option.some.inj h))
          exact ⟨input, opcode, .first, hread, hdeliver⟩

-- Every frame takes bytes off the stream.
theorem readWsFrame_ends {fuel : Nat} (hfuel : input.bytes.length < fuel) :
    (readWsFrame fuel input).2.isSome = true := by
  induction fuel generalizing input with
  | zero => omega
  | succ fuel ih =>
      rw [readWsFrame]
      split
      · rfl
      · rename_i opcode wire more hread
        obtain ⟨found, front, _, _, _, hfront, _, hbytes⟩ := readFrame_eq_ok hread
        have hlength := congrArg List.length hbytes
        rw [List.length_append, List.length_append] at hlength
        have hrest := @ih more (by omega)
        split
        · rfl
        · exact hrest
        · exact hrest
        · rfl

-- What is read is a whole frame unless the header has a masking key or a longer length.
theorem wholeFrame_iff (hread : readFrame start = .ok (opcode, data, rest)) (haction : frameAction opcode ≠ .close) :
    WholeFrame start.bytes data rest.bytes ↔ ∀ found, header start.bytes = some found → ¬Misread start.bytes found := by
  obtain ⟨found, front, hheader, rfl, hshort, hfront, hdata, hbytes⟩ := readFrame_eq_ok hread
  have hlength := congrArg List.length hbytes
  rw [List.length_append, List.length_append] at hlength
  constructor
  · rintro ⟨other, whole, hother, hwhole, hdeclared, hsplit⟩ found' hfound' ⟨_, hwrong, _, _⟩
    obtain rfl := Option.some.inj (hheader.symm.trans hother)
    obtain rfl := Option.some.inj (hheader.symm.trans hfound')
    have hsame := congrArg List.length hsplit
    rw [List.length_append, List.length_append, hwhole, Header.size] at hsame
    obtain hmasked | hlong := hwrong
    · rw [hmasked, if_pos rfl] at hsame
      omega
    · omega
  · intro hright
    have hsound : ¬(found.masked = true ∨ 2 ^ 32 ≤ found.length) :=
      fun hwrong => hright found hheader ⟨haction, hwrong, hshort, by omega⟩
    obtain ⟨hunmasked, hsmall⟩ := not_or.mp hsound
    refine ⟨found, front, hheader, ?_, by omega, hbytes⟩
    rw [Header.size, if_neg hunmasked, hfront]
    rfl

theorem turns_of_comes {more : Bytes} (h : Comes input.bytes more) :
    ∃ start, Turns input start ∧ start.bytes = more := by
  induction h with
  | first => exact ⟨input, .first, rfl⟩
  | @next front data more found _ hheader hfront hdata hunmasked hsize hgoes ih =>
      obtain ⟨start, hturns, hbytes⟩ := ih
      rw [← hbytes] at hheader
      have hwidth : front.length = 2 + found.form.width := by
        rw [hfront, Header.size, hunmasked]
        rfl
      have hlow : found.length % 2 ^ 32 = found.length := by omega
      obtain ⟨rest, hread, hrest⟩ := readFrame_ok hheader hbytes hwidth (hdata.trans hlow.symm) (by omega)
      exact ⟨rest, .next hturns hread hgoes, hrest⟩

theorem comes_of_turns (hsized : WellSized input.bytes) (h : Turns input start) : Comes input.bytes start.bytes := by
  induction h with
  | first => exact .first
  | next _ hread hgoes ih =>
      obtain ⟨found, front, hheader, rfl, hshort, hfront, hdata, hbytes⟩ := readFrame_eq_ok hread
      obtain ⟨found', whole, hfound', hwhole, hdeclared, hsplit⟩ :=
        (wholeFrame_iff hread (frameAction_ne_close hgoes)).mpr (hsized _ ih)
      obtain rfl := Option.some.inj (hheader.symm.trans hfound')
      have hunmasked : found.masked = false := by
        have hlength := congrArg List.length hbytes
        have hsame := congrArg List.length hsplit
        rw [List.length_append, List.length_append] at hlength hsame
        rw [hwhole, Header.size] at hsame
        by_contra hmasked
        rw [Bool.not_eq_false] at hmasked
        rw [hmasked, if_pos rfl] at hsame
        omega
      rw [hsplit] at ih hheader
      exact .next ih hheader hwhole hdeclared hunmasked (by omega) hgoes

-- The calls keep to the frames of the stream exactly if no frame that one comes to is misread.
theorem keepsToFrames_iff (input : Input) : KeepsToFrames input ↔ WellSized input.bytes := by
  constructor
  · intro hkeeps more hcomes found hheader hmisread
    obtain ⟨start, hturns, rfl⟩ := turns_of_comes hcomes
    obtain ⟨haction, hwrong, hshort, hfits⟩ := hmisread
    have hparts : start.bytes = start.bytes.take (2 + found.form.width) ++
        (start.bytes.drop (2 + found.form.width)).take (found.length % 2 ^ 32) ++
        start.bytes.drop (2 + found.form.width + found.length % 2 ^ 32) := by
      rw [List.append_assoc, slice_append_drop, List.take_append_drop]
    obtain ⟨rest, hread, _⟩ := readFrame_ok hheader hparts (by rw [List.length_take]; omega)
      (by rw [List.length_take, List.length_drop]; omega) hshort
    have hwhole := hkeeps.skipped start hturns _ _ _ hread haction
    exact (wholeFrame_iff hread haction).mp hwhole found hheader ⟨haction, hwrong, hshort, hfits⟩
  · intro hsized
    have hskipped : ∀ start, Turns input start → ∀ opcode data rest, readFrame start = .ok (opcode, data, rest) →
        frameAction opcode ≠ .close → WholeFrame start.bytes data rest.bytes :=
      fun start hturns opcode data rest hread haction =>
        (wholeFrame_iff hread haction).mpr (hsized _ (comes_of_turns hsized hturns))
    refine ⟨hskipped, fun fuel data rest h => ?_, fun fuel hfuel => readWsFrame_ends hfuel⟩
    obtain ⟨start, opcode, hturns, hread, hdeliver⟩ := readWsFrame_ok h
    exact ⟨start, hturns, hskipped start hturns opcode data rest hread (by rw [hdeliver]; nofun)⟩

-- A length of 2^32 is cut to 0, and the next frame is looked for in the payload.
theorem not_keepsToFrames : ¬∀ input : Input, KeepsToFrames input := by
  intro h
  have hsized := (keepsToFrames_iff ⟨[[0x82, 127, 0, 0, 0, 1, 0, 0, 0, 0]]⟩).mp (h _)
  exact hsized _ .first { code := 2, masked := false, form := .sixtyFour, length := 2 ^ 32 } (by decide)
    ⟨by decide, .inr (by decide), by decide, by decide⟩

end ToInet.Tgws
