import ToInet.Tgws.MsgSplitter.Theorems

namespace ToInet.Tgws.MsgSplitter

open ToInet.Lib

def ackBit (quickAck : Bool) (bit : Nat) : Nat := if quickAck then bit else 0

def shortHeader (quickAck : Bool) (words : Nat) : Bytes :=
  [toByte (words + ackBit quickAck 0x80 : Nat)]

def extendedHeader (quickAck : Bool) (words : Nat) : Bytes :=
  toByte (0x7F + ackBit quickAck 0x80 : Nat) :: leBytes 3 words

def intermediateHeader (quickAck : Bool) (payloadLen : Nat) : Bytes :=
  leBytes 4 (payloadLen + ackBit quickAck (2 ^ 31))

-- The packets of the three framings. The padding of the padded framing is part of
-- its payload.
inductive IsPacket : Int → Bytes → Prop where
  | short (quickAck : Bool) (words : Nat) (payload : Bytes)
      (hwords : 1 ≤ words ∧ words < 0x7F) (hlen : payload.length = words * 4) :
      IsPacket abridgedTag (shortHeader quickAck words ++ payload)
  | extended (quickAck : Bool) (words : Nat) (payload : Bytes)
      (hwords : 1 ≤ words ∧ words < 2 ^ 24) (hlen : payload.length = words * 4) :
      IsPacket abridgedTag (extendedHeader quickAck words ++ payload)
  | intermediate (protoInt : Int) (quickAck : Bool) (payload : Bytes)
      (htag : protoInt = intermediateTag ∨ protoInt = paddedTag)
      (hlen : 1 ≤ payload.length ∧ payload.length ≤ 2 ^ 31 - 5) :
      IsPacket protoInt (intermediateHeader quickAck payload.length ++ payload)

theorem wholeLen_eq (avail payloadLen headerLen : Nat) (hpos : 0 < payloadLen)
    (hfit : headerLen + payloadLen < 2 ^ 31) :
    wholeLen avail payloadLen headerLen =
      if avail < headerLen + payloadLen then none else some ((headerLen + payloadLen : Nat) : Int) := by
  have hint : toInt32 (headerLen + payloadLen) = ((headerLen + payloadLen : Nat) : Int) := by
    rw [toInt32_of_fits _ (by unfold FitsInt32; omega)]
    norm_cast
  rw [wholeLen, if_neg (by omega)]
  simp only [hint, Int.ofNat_lt]

-- What nextPacketLen makes of a header: the length once the header is there, null on
-- each proper part of it.
structure Announces (protoInt : Int) (header : Bytes) (payloadLen : Nat) : Prop where
  nonempty : header ≠ []
  positive : 0 < payloadLen
  fits : header.length + payloadLen < 2 ^ 31
  whole : ∀ more, nextPacketLen protoInt (header ++ more) 0 (header ++ more).length =
    some (wholeLen (header ++ more).length payloadLen header.length)
  part : ∀ start rest, header = start ++ rest → start ≠ [] → rest ≠ [] →
    nextPacketLen protoInt start 0 start.length = some none

theorem nextPacketLen_abridged (plain : Bytes) (h : plain ≠ []) :
    nextPacketLen abridgedTag plain 0 plain.length = nextAbridgedLen plain 0 plain.length := by
  rw [nextPacketLen, if_neg (by simpa using h), if_pos rfl]

theorem nextPacketLen_intermediate (protoInt : Int) (plain : Bytes) (h : plain ≠ [])
    (htag : protoInt = intermediateTag ∨ protoInt = paddedTag) :
    nextPacketLen protoInt plain 0 plain.length = nextIntermediateLen plain 0 plain.length := by
  have habridged : protoInt ≠ abridgedTag := by
    rintro rfl
    revert htag
    decide
  rw [nextPacketLen, if_neg (by simpa using h), if_neg habridged, if_pos htag]

theorem ackBit_cases (quickAck : Bool) (bit : Nat) :
    ackBit quickAck bit = bit ∨ ackBit quickAck bit = 0 := by
  cases quickAck <;> simp [ackBit]

theorem nextAbridgedLen_short (first : UInt8) (more : Bytes) (avail : Nat)
    (hfirst : first.toNat ≠ 0x7F ∧ first.toNat ≠ 0xFF) :
    nextAbridgedLen (first :: more) 0 avail = some (wholeLen avail ((first.toNat &&& 0x7F) * 4) 1) := by
  simp [nextAbridgedLen, byteAt, hfirst]

theorem nextAbridgedLen_extended (first b1 b2 b3 : UInt8) (more : Bytes) (avail : Nat)
    (hfirst : first.toNat = 0x7F ∨ first.toNat = 0xFF) (havail : 4 ≤ avail) :
    nextAbridgedLen (first :: b1 :: b2 :: b3 :: more) 0 avail =
      some (wholeLen avail ((b1.toNat ||| b2.toNat <<< 8 ||| b3.toNat <<< 16) * 4) 4) := by
  simp [nextAbridgedLen, byteAt, hfirst, Nat.not_lt.mpr havail]

theorem nextAbridgedLen_partial (first : UInt8) (more : Bytes) (avail : Nat)
    (hfirst : first.toNat = 0x7F ∨ first.toNat = 0xFF) (havail : avail < 4) :
    nextAbridgedLen (first :: more) 0 avail = some none := by
  simp [nextAbridgedLen, byteAt, hfirst, havail]

theorem nextIntermediateLen_whole (b0 b1 b2 b3 : UInt8) (more : Bytes) (avail : Nat)
    (havail : 4 ≤ avail) :
    nextIntermediateLen (b0 :: b1 :: b2 :: b3 :: more) 0 avail =
      some (wholeLen avail
        ((b0.toNat ||| b1.toNat <<< 8 ||| b2.toNat <<< 16 ||| b3.toNat <<< 24) &&& 0x7FFFFFFF) 4) := by
  simp [nextIntermediateLen, byteAt, Nat.not_lt.mpr havail]

-- Little-endian assembly from bytes.
theorem or_shiftLeft (low high bits : Nat) (h : low < 2 ^ bits) :
    low ||| high <<< bits = low + high * 2 ^ bits := by
  rw [Nat.or_comm, shiftLeft_or high low bits h, Nat.add_comm]

theorem or_three_bytes (n : Nat) (h : n < 2 ^ 24) :
    (toByte n).toNat ||| (toByte (n / 256 : Nat)).toNat <<< 8 |||
      (toByte (n / 256 / 256 : Nat)).toNat <<< 16 = n := by
  simp only [toNat_toByte_nat]
  rw [or_shiftLeft _ _ 8 (by omega), or_shiftLeft _ _ 16 (by omega)]
  omega

theorem or_four_bytes (n : Nat) (h : n < 2 ^ 32) :
    (toByte n).toNat ||| (toByte (n / 256 : Nat)).toNat <<< 8 |||
        (toByte (n / 256 / 256 : Nat)).toNat <<< 16 |||
      (toByte (n / 256 / 256 / 256 : Nat)).toNat <<< 24 = n := by
  simp only [toNat_toByte_nat]
  rw [or_shiftLeft _ _ 8 (by omega), or_shiftLeft _ _ 16 (by omega), or_shiftLeft _ _ 24 (by omega)]
  omega

theorem short_announces (quickAck : Bool) (words : Nat) (hwords : 1 ≤ words ∧ words < 0x7F) :
    Announces abridgedTag (shortHeader quickAck words) (words * 4) := by
  have hfirst := toNat_toByte_nat (words + ackBit quickAck 0x80)
  have hack := ackBit_cases quickAck 0x80
  have hmask : (toByte (words + ackBit quickAck 0x80 : Nat)).toNat &&& 0x7F = words := by
    rw [hfirst, show (0x7F : Nat) = 2 ^ 7 - 1 from rfl, Nat.and_two_pow_sub_one_eq_mod]
    omega
  refine ⟨by simp [shortHeader], by omega, ?_, ?_, ?_⟩
  · rw [shortHeader, List.length_singleton]
    omega
  · intro more
    rw [nextPacketLen_abridged _ (by simp [shortHeader]), shortHeader, List.singleton_append,
      nextAbridgedLen_short _ _ _ (by omega), hmask]
    rfl
  · intro start rest hsplit hstart hrest
    have hl := congrArg List.length hsplit
    have := List.length_pos_iff.mpr hstart
    have := List.length_pos_iff.mpr hrest
    simp only [shortHeader, List.length_singleton, List.length_append] at hl
    omega

theorem extended_announces (quickAck : Bool) (words : Nat) (hwords : 1 ≤ words ∧ words < 2 ^ 24) :
    Announces abridgedTag (extendedHeader quickAck words) (words * 4) := by
  have hfirst : (toByte (0x7F + ackBit quickAck 0x80 : Nat)).toNat = 0x7F ∨
      (toByte (0x7F + ackBit quickAck 0x80 : Nat)).toNat = 0xFF := by
    have hack := ackBit_cases quickAck 0x80
    rw [toNat_toByte_nat]
    omega
  refine ⟨by simp [extendedHeader], by omega, ?_, ?_, ?_⟩
  · rw [extendedHeader, List.length_cons, length_leBytes]
    omega
  · intro more
    rw [nextPacketLen_abridged _ (by simp [extendedHeader])]
    have hlen := or_three_bytes words hwords.2
    simp only [extendedHeader, leBytes, List.cons_append, List.nil_append]
    rw [nextAbridgedLen_extended _ _ _ _ _ _ hfirst (by simp), hlen]
    rfl
  · intro start rest hsplit hstart hrest
    rw [nextPacketLen_abridged _ hstart]
    have hl := congrArg List.length hsplit
    have := List.length_pos_iff.mpr hrest
    rw [extendedHeader, List.length_cons, length_leBytes, List.length_append] at hl
    obtain ⟨first, start, rfl⟩ := List.exists_cons_of_ne_nil hstart
    rw [extendedHeader, List.cons_append, List.cons.injEq] at hsplit
    exact nextAbridgedLen_partial first start _ (hsplit.1 ▸ hfirst) (by omega)

theorem intermediate_announces (protoInt : Int) (quickAck : Bool) (payloadLen : Nat)
    (htag : protoInt = intermediateTag ∨ protoInt = paddedTag)
    (hlen : 1 ≤ payloadLen ∧ payloadLen ≤ 2 ^ 31 - 5) :
    Announces protoInt (intermediateHeader quickAck payloadLen) payloadLen := by
  have hack := ackBit_cases quickAck (2 ^ 31)
  refine ⟨by simp [intermediateHeader, leBytes], by omega, ?_, ?_, ?_⟩
  · rw [intermediateHeader, length_leBytes]
    omega
  · intro more
    rw [nextPacketLen_intermediate _ _ (by simp [intermediateHeader, leBytes]) htag]
    have hmask : (payloadLen + ackBit quickAck (2 ^ 31)) &&& 0x7FFFFFFF = payloadLen := by
      rw [show (0x7FFFFFFF : Nat) = 2 ^ 31 - 1 from rfl, Nat.and_two_pow_sub_one_eq_mod]
      omega
    have hword := or_four_bytes (payloadLen + ackBit quickAck (2 ^ 31)) (by omega)
    simp only [intermediateHeader, leBytes, List.cons_append, List.nil_append]
    rw [nextIntermediateLen_whole _ _ _ _ _ _ (by simp), hword, hmask]
    rfl
  · intro start rest hsplit hstart hrest
    rw [nextPacketLen_intermediate _ _ hstart htag]
    have hl := congrArg List.length hsplit
    have := List.length_pos_iff.mpr hrest
    rw [intermediateHeader, length_leBytes, List.length_append] at hl
    have havail : start.length < 4 := by omega
    simp [nextIntermediateLen, havail]

-- Behind a header, null is returned until the payload is complete, then its length.
theorem Announces.recognised {protoInt : Int} {header payload : Bytes}
    (h : Announces protoInt header payload.length) :
    (∀ rest, nextPacketLen protoInt (header ++ payload ++ rest) 0 (header ++ payload ++ rest).length =
        some (some ((header ++ payload).length : Int))) ∧
      ∀ start rest, header ++ payload = start ++ rest → start ≠ [] → rest ≠ [] →
        nextPacketLen protoInt start 0 start.length = some none := by
  constructor
  · intro rest
    rw [List.append_assoc, h.whole, wholeLen_eq _ _ _ h.positive h.fits, if_neg, List.length_append]
    simp only [List.length_append]
    omega
  · intro start rest hsplit hstart hrest
    have hbehind : ∀ more, payload = more ++ rest →
        nextPacketLen protoInt (header ++ more) 0 (header ++ more).length = some none := by
      intro more hpayload
      have hl := congrArg List.length hpayload
      have := List.length_pos_iff.mpr hrest
      rw [h.whole, wholeLen_eq _ _ _ h.positive h.fits, if_pos]
      simp only [List.length_append] at hl ⊢
      omega
    obtain ⟨more, rfl, hpayload⟩ | ⟨more, hheader, hmore⟩ := List.append_eq_append_iff.mp hsplit
    · exact hbehind more hpayload
    · by_cases hnil : more = []
      · subst hnil
        rw [List.append_nil] at hheader
        simpa [hheader] using hbehind [] hmore.symm
      · exact h.part start more hheader hstart hnil

theorem IsPacket.announces {protoInt : Int} {packet : Bytes} (h : IsPacket protoInt packet) :
    ∃ header payload, packet = header ++ payload ∧ Announces protoInt header payload.length := by
  cases h with
  | short quickAck words payload hwords hlen =>
      exact ⟨_, payload, rfl, hlen ▸ short_announces quickAck words hwords⟩
  | extended quickAck words payload hwords hlen =>
      exact ⟨_, payload, rfl, hlen ▸ extended_announces quickAck words hwords⟩
  | intermediate _ quickAck payload htag hlen =>
      exact ⟨_, payload, rfl, intermediate_announces protoInt quickAck payload.length htag hlen⟩

-- Encrypted packets stay framed at their places in the stream.
theorem framed_xorPackets (protoInt : Int) (keystream : Nat → UInt8) (pos : Nat) (packets : List Bytes)
    (hp : ∀ packet ∈ packets, IsPacket protoInt packet) :
    Framed (packetFraming protoInt keystream) pos (xorPackets keystream (64 + pos) packets) := by
  induction packets generalizing pos with
  | nil => trivial
  | cons packet packets ih =>
      obtain ⟨header, payload, rfl, hann⟩ := (hp packet List.mem_cons_self).announces
      obtain ⟨hwhole, hpart⟩ := hann.recognised
      refine ⟨?_, ?_, ?_, ?_⟩
      · intro hnil
        have hl := congrArg List.length hnil
        simp only [length_xorStream, List.length_append, List.length_nil] at hl
        exact hann.nonempty (List.length_eq_zero_iff.mp (by omega))
      · intro rest
        have hw := hwhole (xorStream keystream (64 + pos + (header ++ payload).length) rest)
        have hplain : xorStream keystream (64 + pos)
            (xorStream keystream (64 + pos) (header ++ payload) ++ rest) =
            header ++ payload ++ xorStream keystream (64 + pos + (header ++ payload).length) rest := by
          rw [xorStream_append, xorStream_involutive, length_xorStream]
        rw [← hplain, length_xorStream] at hw
        have hpos : ¬((header ++ payload).length : Int) ≤ 0 := by
          have := hann.positive
          rw [List.length_append]
          omega
        rw [packetFraming, hw, verdict, if_neg hpos, length_xorStream, Int.toNat_natCast]
      · intro start rest hsplit hstart hrest
        have hplain := congrArg (xorStream keystream (64 + pos)) hsplit
        rw [xorStream_involutive, xorStream_append] at hplain
        have hnone := hpart _ _ hplain
          (fun hnil => hstart (by simpa using congrArg List.length hnil))
          (fun hnil => hrest (by simpa using congrArg List.length hnil))
        rw [length_xorStream] at hnone
        rw [packetFraming, hnone]
        rfl
      · rw [length_xorStream, Nat.add_assoc]
        exact ih _ (fun p hmem => hp p (List.mem_cons_of_mem _ hmem))

theorem run_split_refines {keystream : Nat → UInt8} {splitter : MsgSplitter} {model : Splitter UInt8}
    (hr : Refines keystream splitter model) (chunks : List Bytes) :
    let fed := Splitter.feedAll (packetFraming splitter.protoInt keystream) model chunks
    ∃ last, splitter.run (chunks.map .split) = some (fed.1, last) ∧ Refines keystream last fed.2 := by
  induction chunks generalizing splitter model with
  | nil => exact ⟨splitter, rfl, hr⟩
  | cons chunk chunks ih =>
      obtain ⟨next, hsplit, hproto, hr'⟩ := split_refines hr chunk
      obtain ⟨last, hrun, hlast⟩ := ih hr'
      rw [hproto] at hrun hlast
      exact ⟨last, by simp [run, call, hsplit, hrun, Splitter.feedAll], hlast⟩

-- Up to any chunk, the parts returned are the packets delivered so far; nothing is
-- left for flush.
theorem run_packets (aesCtr : AesCtr) (relayInit : Bytes) (protoInt : Int)
    (packets chunks : List Bytes) (hinit : relayInit.length = 64)
    (hpackets : ∀ packet ∈ packets, IsPacket protoInt packet)
    (hchunks : chunks.flatten =
      (xorPackets (relayKeystream aesCtr relayInit) 64 packets).flatten) :
    let encrypted := xorPackets (relayKeystream aesCtr relayInit) 64 packets
    ∃ splitter returned last, create aesCtr relayInit protoInt = some splitter ∧
      splitter.run (chunks.map .split) = some (returned, last) ∧
      returned.flatten = encrypted ∧
      (∀ k, (returned.take k).flatten = wholePackets encrypted (chunks.take k).flatten.length) ∧
      last.flush = ([], last) := by
  intro encrypted
  obtain ⟨splitter, hcreate, hproto, hr⟩ := create_refines aesCtr relayInit protoInt hinit
  obtain ⟨last, hrun, hr'⟩ := run_split_refines hr chunks
  rw [hproto] at hrun hr'
  have hf : Framed (packetFraming protoInt (relayKeystream aesCtr relayInit)) 0 encrypted :=
    framed_xorPackets protoInt _ 0 packets hpackets
  have hnone := hf.wholePackets_zero
  have hpending := Splitter.feedAll_framed_pending _ (packetFraming_sound protoInt _) encrypted
    Splitter.init chunks rfl hf hchunks hnone
  have htake : ∀ k, ((Splitter.feedAll (packetFraming protoInt (relayKeystream aesCtr relayInit))
      Splitter.init chunks).1.take k).flatten = wholePackets encrypted (chunks.take k).flatten.length := by
    intro k
    have hprefix := Splitter.feedAll_framed _ (packetFraming_sound protoInt _) encrypted
      Splitter.init (chunks.take k) (chunks.drop k).flatten rfl hf
      (by rw [← List.flatten_append, List.take_append_drop, ← hchunks]; rfl) hnone
    rw [← Splitter.feedAll_take, hprefix, Splitter.init, List.length_nil, Nat.zero_add]
  refine ⟨splitter, _, last, hcreate, hrun, ?_, htake, ?_⟩
  · have hall := Splitter.feedAll_framed _ (packetFraming_sound protoInt _) encrypted
      Splitter.init chunks [] rfl hf (by rw [List.append_nil, hchunks]; rfl) hnone
    rw [hall, hchunks]
    exact wholePackets_all _ _ (by simp [Splitter.init, encrypted])
  · rw [flush, if_pos (by rw [hr'.pending, hpending])]

-- A short packet with a quick-ack bit and an extended one, cut inside both headers.
def samplePackets : List Bytes :=
  [shortHeader true 1 ++ [1, 2, 3, 4], extendedHeader false 1 ++ [5, 6, 7, 8]]

def sampleKeystream : AesCtr := fun key iv n => UInt8.ofNat (key.length + 3 * iv.length + 7 * n)

def sampleChunks : List Bytes :=
  let stream := (xorPackets (relayKeystream sampleKeystream (List.replicate 64 0)) 64
    samplePackets).flatten
  [stream.take 7, stream.drop 7]

theorem samplePackets_packets : ∀ packet ∈ samplePackets, IsPacket abridgedTag packet := by
  intro packet hmem
  simp only [samplePackets, List.mem_cons, List.not_mem_nil, or_false] at hmem
  obtain rfl | rfl := hmem
  · exact .short true 1 _ (by decide) rfl
  · exact .extended false 1 _ (by decide) rfl

theorem run_packets_sample :
    let encrypted := xorPackets (relayKeystream sampleKeystream (List.replicate 64 0)) 64 samplePackets
    ∃ splitter returned last,
      create sampleKeystream (List.replicate 64 0) abridgedTag = some splitter ∧
      splitter.run (sampleChunks.map .split) = some (returned, last) ∧
      returned.flatten = encrypted ∧
      (∀ k, (returned.take k).flatten =
        wholePackets encrypted (sampleChunks.take k).flatten.length) ∧
      last.flush = ([], last) :=
  run_packets sampleKeystream (List.replicate 64 0) abridgedTag samplePackets sampleChunks
    (by decide) samplePackets_packets (by decide)

end ToInet.Tgws.MsgSplitter
