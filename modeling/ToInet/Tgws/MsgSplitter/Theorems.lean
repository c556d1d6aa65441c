import ToInet.Lib.Framing
import ToInet.Tgws.MsgSplitter

namespace ToInet.Tgws.MsgSplitter

open ToInet.Lib

theorem nextPacketLen_drop (protoInt : Int) (plainBuf : Bytes) (offset avail : Nat) :
    nextPacketLen protoInt plainBuf offset avail =
      nextPacketLen protoInt (plainBuf.drop offset) 0 avail := by
  simp only [nextPacketLen, nextAbridgedLen, nextIntermediateLen, byteAt, List.getElem?_drop,
    Nat.zero_add, Nat.add_zero]

theorem wholeLen_le {avail payloadLen headerLen : Nat} {n : Int}
    (h : wholeLen avail payloadLen headerLen = some n) : n ≤ avail := by
  rw [wholeLen] at h
  split at h
  · obtain rfl := Option.some.inj h
    omega
  · dsimp only at h
    split at h
    · cases h
    · obtain rfl := Option.some.inj h
      omega

-- With the pending bytes in the buffer no index is out of bounds, and a length that
-- is returned does not exceed them.
theorem nextAbridgedLen_spec (plain : Bytes) (h : 0 < plain.length) :
    ∃ result, nextAbridgedLen plain 0 plain.length = some result ∧
      ∀ n, result = some n → n ≤ plain.length := by
  rw [nextAbridgedLen, byteAt_of_lt plain 0 h, Option.bind_eq_bind, Option.bind_some]
  split
  · by_cases hav : plain.length < 4
    · exact ⟨none, by simp [hav], by simp⟩
    · rw [byteAt_of_lt plain 1 (by omega), byteAt_of_lt plain 2 (by omega),
        byteAt_of_lt plain 3 (by omega)]
      simp only [hav, if_false, Option.bind_some, Option.pure_def]
      exact ⟨_, rfl, fun n hn => wholeLen_le hn⟩
  · exact ⟨_, rfl, fun n hn => wholeLen_le hn⟩

theorem nextIntermediateLen_spec (plain : Bytes) :
    ∃ result, nextIntermediateLen plain 0 plain.length = some result ∧
      ∀ n, result = some n → n ≤ plain.length := by
  rw [nextIntermediateLen]
  by_cases hav : plain.length < 4
  · exact ⟨none, by simp [hav], by simp⟩
  · rw [byteAt_of_lt plain 0 (by omega), byteAt_of_lt plain 1 (by omega),
      byteAt_of_lt plain 2 (by omega), byteAt_of_lt plain 3 (by omega)]
    simp only [hav, if_false, Option.bind_eq_bind, Option.bind_some, Option.pure_def]
    exact ⟨_, rfl, fun n hn => wholeLen_le hn⟩

theorem nextPacketLen_spec (protoInt : Int) (plain : Bytes) :
    ∃ result, nextPacketLen protoInt plain 0 plain.length = some result ∧
      ∀ n, result = some n → n ≤ plain.length := by
  rw [nextPacketLen]
  split
  · exact ⟨none, rfl, by simp⟩
  · split
    · exact nextAbridgedLen_spec plain (by omega)
    · split
      · exact nextIntermediateLen_spec plain
      · exact ⟨some 0, rfl, fun n hn => by cases hn; omega⟩

def verdict : Option (Option Int) → Verdict
  | some (some packetLen) => if packetLen ≤ 0 then .malformed else .packet packetLen.toNat
  | _ => .more

-- The framing that nextPacketLen recognises under the key stream. The stream starts
-- after the 64 bytes of relayInit.
def packetFraming (protoInt : Int) (keystream : Nat → UInt8) : Framing UInt8 := fun pos pending =>
  verdict (nextPacketLen protoInt (xorStream keystream (64 + pos) pending) 0 pending.length)

theorem packetFraming_sound (protoInt : Int) (keystream : Nat → UInt8) :
    (packetFraming protoInt keystream).Sound := by
  intro pos pending n h
  have hspec := nextPacketLen_spec protoInt (xorStream keystream (64 + pos) pending)
  rw [length_xorStream] at hspec
  obtain ⟨result, hresult, hle⟩ := hspec
  rw [packetFraming, hresult] at h
  cases result with
  | none => cases h
  | some packetLen =>
      simp only [verdict] at h
      split at h
      · cases h
      · cases h
        have := hle packetLen rfl
        omega

theorem slice_eq (data : Bytes) (start stop : Nat) (h : stop ≤ data.length) :
    slice data start stop = some ((data.take stop).drop start) := by
  rw [slice, if_pos h]

theorem clearPrefix_eq (data : Bytes) (count : Nat) (h : count ≤ data.length) :
    clearPrefix data count = some (data.drop count) := by
  rw [clearPrefix, if_pos h]

-- The loop over offsets drains the rest of the buffer.
theorem splitLoop_eq_drain (protoInt : Int) (keystream : Nat → UInt8) (pos : Nat) (cipherBuf : Bytes)
    (fuel offset : Nat) (hoffset : offset ≤ cipherBuf.length)
    (hfuel : cipherBuf.length - offset ≤ fuel) :
    ∃ last, last ≤ cipherBuf.length ∧
      let drained := Splitter.drain (packetFraming protoInt keystream) fuel (pos + offset)
        (cipherBuf.drop offset)
      splitLoop protoInt cipherBuf (xorStream keystream (64 + pos) cipherBuf) (fuel + 1) offset =
          some (drained.1, last, drained.2.disabled) ∧
        drained.2.pending = cipherBuf.drop last ∧ drained.2.pos = pos + last := by
  induction fuel generalizing offset with
  | zero =>
      have hend : cipherBuf.length ≤ offset := by omega
      refine ⟨offset, hoffset, ?_, rfl, rfl⟩
      simp [splitLoop, Splitter.drain, Nat.not_lt.mpr hend]
  | succ fuel ih =>
      rw [splitLoop]
      by_cases hlt : offset < cipherBuf.length
      · have hne : cipherBuf.drop offset ≠ [] := by simpa using hlt
        have hspec := nextPacketLen_spec protoInt
          (xorStream keystream (64 + (pos + offset)) (cipherBuf.drop offset))
        rw [length_xorStream] at hspec
        obtain ⟨result, hresult, hle⟩ := hspec
        have hnext : nextPacketLen protoInt (xorStream keystream (64 + pos) cipherBuf) offset
            (cipherBuf.length - offset) = some result := by
          rw [nextPacketLen_drop, drop_xorStream, Nat.add_assoc, ← List.length_drop, hresult]
        have hframe : packetFraming protoInt keystream (pos + offset) (cipherBuf.drop offset) =
            verdict (some result) := by
          rw [packetFraming, hresult]
        simp only [hlt, if_true, hnext, Splitter.drain, hne, if_false, hframe, Option.bind_eq_bind,
          Option.bind_some]
        cases result with
        | none => exact ⟨offset, hoffset, rfl, rfl, rfl⟩
        | some packetLen =>
            have hbound := hle packetLen rfl
            rw [List.length_drop] at hbound
            by_cases hpos : packetLen ≤ 0
            · refine ⟨cipherBuf.length, Nat.le_refl _, ?_, ?_, ?_⟩
              · simp [verdict, hpos, slice_eq]
              · simp [verdict, hpos]
              · simp only [verdict, hpos, if_true, List.length_drop]
                omega
            · have hstop : offset + packetLen.toNat ≤ cipherBuf.length := by omega
              obtain ⟨last, hlast, hloop, hpending, hnewpos⟩ := ih (offset + packetLen.toNat) hstop
                (by omega)
              refine ⟨last, hlast, ?_, ?_, ?_⟩
              · simp only [hpos, if_false, slice_eq _ _ _ hstop, Option.bind_some, hloop, verdict,
                  List.drop_drop, Nat.add_assoc, Option.pure_def, List.take_drop]
              · simpa only [verdict, hpos, if_false, List.drop_drop, Nat.add_assoc] using hpending
              · simpa only [verdict, hpos, if_false, List.drop_drop, Nat.add_assoc] using hnewpos
      · refine ⟨offset, hoffset, ?_, ?_, ?_⟩ <;>
          simp [Splitter.drain, hlt, List.drop_eq_nil_of_le (Nat.not_lt.mp hlt)]

-- The splitter of the code follows the abstract one: plainBuf decrypts cipherBuf at
-- its place in the stream, and the cipher stands behind both unless it is disabled.
structure Refines (keystream : Nat → UInt8) (splitter : MsgSplitter) (model : Splitter UInt8) : Prop where
  stream : splitter.dec.keystream = keystream
  pending : splitter.cipherBuf = model.pending
  plain : splitter.plainBuf = xorStream keystream (64 + model.pos) splitter.cipherBuf
  disabled : splitter.disabled = model.disabled
  empty : model.disabled = true → model.pending = []
  position : model.disabled = false → splitter.dec.pos = 64 + model.pos + model.pending.length

def relayKeystream (aesCtr : AesCtr) (relayInit : Bytes) : Nat → UInt8 :=
  aesCtr ((relayInit.take 40).drop 8) ((relayInit.take 56).drop 40)

theorem create_refines (aesCtr : AesCtr) (relayInit : Bytes) (protoInt : Int)
    (hinit : relayInit.length = 64) :
    ∃ splitter, create aesCtr relayInit protoInt = some splitter ∧ splitter.protoInt = protoInt ∧
      Refines (relayKeystream aesCtr relayInit) splitter Splitter.init := by
  let dec : Cipher := { keystream := relayKeystream aesCtr relayInit, pos := 64 }
  refine ⟨{ protoInt, dec, cipherBuf := [], plainBuf := [], disabled := false }, ?_, rfl, ?_⟩
  · simp only [create, slice_eq relayInit 8 40 (by omega), slice_eq relayInit 40 56 (by omega),
      Option.bind_eq_bind, Option.bind_some, Cipher.update, Option.pure_def]
    rfl
  · exact ⟨rfl, rfl, rfl, rfl, by simp [Splitter.init], by simp [Splitter.init, dec]⟩

theorem split_refines {keystream : Nat → UInt8} {splitter : MsgSplitter} {model : Splitter UInt8}
    (hr : Refines keystream splitter model) (chunk : Bytes) :
    let fed := Splitter.feed (packetFraming splitter.protoInt keystream) model chunk
    ∃ next, splitter.split chunk = some (fed.1, next) ∧ next.protoInt = splitter.protoInt ∧
      Refines keystream next fed.2 := by
  intro fed
  by_cases hnil : chunk = []
  · have hfed : fed = ([], model) := by simp [fed, Splitter.feed, hnil]
    exact ⟨splitter, by simp [split, hnil, hfed], rfl, by rwa [hfed]⟩
  · by_cases hdis : model.disabled = true
    · have hfed : fed = ([chunk], { model with pos := model.pos + chunk.length }) := by
        simp [fed, Splitter.feed, hnil, hdis]
      refine ⟨splitter, by simp [split, hnil, hr.disabled, hdis, hfed], rfl, ?_⟩
      have hempty := hr.empty hdis
      rw [hfed]
      exact ⟨hr.stream, hr.pending, by rw [hr.plain, hr.pending, hempty]; rfl, hr.disabled,
        hr.empty, by simp [hdis]⟩
    · have hen : model.disabled = false := Bool.eq_false_iff.mpr hdis
      have hfed : fed = Splitter.drain (packetFraming splitter.protoInt keystream)
          (splitter.cipherBuf ++ chunk).length model.pos (splitter.cipherBuf ++ chunk) := by
        simp [fed, Splitter.feed, hnil, hen, hr.pending]
      -- The cipher continues where plainBuf ends.
      have hplain : splitter.plainBuf ++ xorStream splitter.dec.keystream splitter.dec.pos chunk =
          xorStream keystream (64 + model.pos) (splitter.cipherBuf ++ chunk) := by
        rw [hr.plain, hr.stream, hr.position hen, xorStream_append, ← hr.pending]
      have hconserves : Splitter.Conserves model chunk fed :=
        Splitter.feed_conserves _ (packetFraming_sound _ _) model chunk hr.empty
      obtain ⟨hflat, hfedpos, hempty⟩ := hconserves
      obtain ⟨last, hlast, hloop, hpending, hpos⟩ := splitLoop_eq_drain splitter.protoInt keystream
        model.pos (splitter.cipherBuf ++ chunk) (splitter.cipherBuf ++ chunk).length 0
        (Nat.zero_le _) (Nat.le_refl _)
      simp only [List.drop_zero, Nat.add_zero, ← hfed] at hloop hpending hpos
      let next : MsgSplitter := { splitter with
        dec := (splitter.dec.update chunk).2
        cipherBuf := (splitter.cipherBuf ++ chunk).drop last
        plainBuf := (xorStream keystream (64 + model.pos) (splitter.cipherBuf ++ chunk)).drop last
        disabled := fed.2.disabled }
      refine ⟨next, ?_, rfl, ?_⟩
      · have hlast' := hlast
        rw [← length_xorStream keystream (64 + model.pos)] at hlast'
        simp [split, hnil, hr.disabled, hen, Cipher.update, hplain, hloop, clearPrefix_eq _ _ hlast,
          clearPrefix_eq _ _ hlast', next, -List.length_append]
      · refine ⟨hr.stream, hpending.symm, ?_, rfl, ?_, ?_⟩
        · simp only [next]
          rw [drop_xorStream, hpos, Nat.add_assoc]
        · exact hempty
        · intro _
          have hlen := congrArg List.length hflat
          simp only [List.length_append] at hlen
          simp only [next, Cipher.update, hr.position hen, hfedpos]
          omega

theorem flush_refines {keystream : Nat → UInt8} {splitter : MsgSplitter} {model : Splitter UInt8}
    (hr : Refines keystream splitter model) :
    splitter.flush.1 = model.flush.1 ∧ splitter.flush.2.protoInt = splitter.protoInt ∧
      Refines keystream splitter.flush.2 model.flush.2 := by
  rw [flush, Splitter.flush, hr.pending]
  split
  · exact ⟨rfl, rfl, hr⟩
  · refine ⟨rfl, rfl, hr.stream, rfl, rfl, hr.disabled, fun _ => rfl, fun hen => ?_⟩
    simp only [hr.position hen, List.length_nil]
    omega

-- One call conserves the stream and keeps the refinement.
theorem call_refines {keystream : Nat → UInt8} {splitter : MsgSplitter} {model : Splitter UInt8}
    (hr : Refines keystream splitter model) (c : Call) :
    ∃ parts next model', splitter.call c = some (parts, next) ∧
      Splitter.Conserves model c.input (parts, model') ∧ Refines keystream next model' := by
  cases c with
  | split chunk =>
      obtain ⟨next, hsplit, _, hr'⟩ := split_refines hr chunk
      exact ⟨_, next, _, hsplit,
        Splitter.feed_conserves _ (packetFraming_sound _ _) model chunk hr.empty, hr'⟩
  | flush =>
      obtain ⟨hparts, _, hr'⟩ := flush_refines hr
      exact ⟨_, _, _, rfl, hparts ▸ model.flush_conserves.1, hr'⟩

theorem run_refines {keystream : Nat → UInt8} {splitter : MsgSplitter} {model : Splitter UInt8}
    (hr : Refines keystream splitter model) (calls : List Call) :
    ∃ returned last model', splitter.run calls = some (returned, last) ∧
      Splitter.Conserves model (calls.map Call.input).flatten (returned.flatten, model') ∧
      Refines keystream last model' := by
  induction calls generalizing splitter model with
  | nil =>
      exact ⟨[], splitter, model, rfl, by simpa [Splitter.Conserves] using hr.empty, hr⟩
  | cons c calls ih =>
      obtain ⟨parts, next, model₁, hcall, hc₁, hr₁⟩ := call_refines hr c
      obtain ⟨returned, last, model₂, hrun, hc₂, hr₂⟩ := ih hr₁
      refine ⟨parts :: returned, last, model₂, by simp [run, hcall, hrun], ?_, hr₂⟩
      rw [List.map_cons, List.flatten_cons, List.flatten_cons]
      exact hc₁.trans hc₂

-- No byte is lost, duplicated or moved, and the two buffers hold the same part of
-- the stream, encrypted and decrypted.
theorem run_conserves (aesCtr : AesCtr) (relayInit : Bytes) (protoInt : Int) (calls : List Call)
    (hinit : relayInit.length = 64) :
    ∃ splitter returned last, create aesCtr relayInit protoInt = some splitter ∧
      splitter.run calls = some (returned, last) ∧
      let emitted := returned.flatten.flatten
      let input := (calls.map Call.input).flatten
      emitted ++ last.cipherBuf = input ∧ emitted ++ last.flush.1.flatten = input ∧
        last.cipherBuf.length = last.plainBuf.length ∧
        last.plainBuf = xorStream (relayKeystream aesCtr relayInit) (64 + emitted.length)
          last.cipherBuf := by
  obtain ⟨splitter, hcreate, _, hr⟩ := create_refines aesCtr relayInit protoInt hinit
  obtain ⟨returned, last, model, hrun, ⟨hflat, hpos, _⟩, hr'⟩ := run_refines hr calls
  have hemitted : returned.flatten.flatten ++ last.cipherBuf = (calls.map Call.input).flatten := by
    rw [hr'.pending]
    exact hflat
  have hplain : last.plainBuf = xorStream (relayKeystream aesCtr relayInit)
      (64 + returned.flatten.flatten.length) last.cipherBuf := by
    rw [hr'.plain, hpos, Splitter.init, Nat.zero_add]
  refine ⟨splitter, returned, last, hcreate, hrun, hemitted, ?_, ?_, hplain⟩
  · rw [← hemitted, flush]
    split
    · rename_i hnil
      simp [hnil]
    · simp
  · rw [hplain, length_xorStream]

-- An abridged header announces one word; the second chunk is malformed.
theorem run_conserves_sample :
    ∃ splitter returned last,
      create (fun _ _ _ => 0) (List.replicate 64 0) abridgedTag = some splitter ∧
      splitter.run [.split [1, 2], .split [3, 4, 5, 0, 6], .split [7]] = some (returned, last) ∧
      returned.flatten.flatten ++ last.flush.1.flatten = [1, 2, 3, 4, 5, 0, 6, 7] := by
  obtain ⟨splitter, returned, last, hcreate, hrun, _, hflush, _⟩ :=
    run_conserves (fun _ _ _ => 0) (List.replicate 64 0) abridgedTag
      [.split [1, 2], .split [3, 4, 5, 0, 6], .split [7]] (by decide)
  exact ⟨splitter, returned, last, hcreate, hrun, hflush⟩

end ToInet.Tgws.MsgSplitter
