import ToInet.Tgws.MsgSplitter.Theorems
import ToInet.Tgws.TgwsCore
import ToInet.Tgws.WsFrame.Reading

-- A client that sends its obfuscated stream in TLS records behind the hello of FakeTLS.
namespace ToInet.Tgws.TgwsCore

open ToInet.Lib MsgSplitter

def record (type : UInt8) (body : Bytes) : Bytes := [type, 0x03, 0x03] ++ beBytes 2 body.length ++ body

structure Hello where
  version : Bytes
  body : Bytes
  hversion : version.length = 2
  hbody : body.length < 2 ^ 16

def Hello.encode (hello : Hello) : Bytes :=
  0x16 :: hello.version ++ beBytes 2 hello.body.length ++ hello.body

-- A stream cut into application data.
structure Wrapped (stream : Bytes) where
  bodies : List Bytes
  hbodies : bodies.flatten = stream
  hfits : ∀ body ∈ bodies, body.length < 2 ^ 16

-- One record changes the cipher, the others are application data.
def Wrapped.encode {stream : Bytes} (wrapped : Wrapped stream) : Bytes :=
  record 0x14 [0x01] ++ (wrapped.bodies.map (record 0x17)).flatten

variable {platform : Platform} {core : TgwsCore}

def Passes (platform : Platform) (core : TgwsCore) (hello : Hello) : Prop :=
  core.secretBytes platform ≠ [] ∧ (core.verifyFakeTls platform hello.encode).isSome = true

-- The choice of the data center, the init payload and the bytes behind it, as the remote side gets them.
def received (delivery : Option Delivery) : Option ((Option Int × Bool) × Option Bytes × Bytes) :=
  delivery.map fun delivery =>
    ((delivery.dcId, delivery.isMedia), delivery.initialPayload, delivery.following)

@[simp] theorem length_record (type : UInt8) (body : Bytes) : (record type body).length = 5 + body.length := by
  simp only [record, List.length_append, length_beBytes, List.length_cons, List.length_nil]

theorem length_records (bodies : List Bytes) :
    ((bodies.map (record 0x17)).flatten).length = 5 * bodies.length + bodies.flatten.length := by
  induction bodies with
  | nil => rfl
  | cons body bodies ih =>
      rw [List.map_cons, List.flatten_cons, List.flatten_cons, List.length_append, List.length_append, ih,
        length_record, List.length_cons]
      omega

theorem length_wrapped {stream : Bytes} (wrapped : Wrapped stream) :
    wrapped.encode.length = 6 + 5 * wrapped.bodies.length + stream.length := by
  rw [Wrapped.encode, List.length_append, length_records, length_record, wrapped.hbodies, List.length_singleton]
  omega

-- A whole array fits into another one.
theorem arraycopy_exists {src dest : Bytes} {destPos count : Nat} (hsrc : src.length = count)
    (h : destPos + count ≤ dest.length) : ∃ out, arraycopy src 0 dest destPos count = some out := by
  have hbound : (0 : Int) ≤ count ∧ (0 : Nat) + (count : Int) ≤ src.length ∧
      destPos + (count : Int) ≤ dest.length := by omega
  rw [arraycopy, if_pos hbound, List.drop_zero, Int.toNat_natCast, ← hsrc, List.take_length]
  exact overwrite_exists dest destPos src (hsrc ▸ h)

theorem buildFakeTlsServerHello_exists (platform : Platform) (core : TgwsCore)
    (clientRandom sessionId : Bytes) :
    ∃ sh, core.buildFakeTlsServerHello platform clientRandom sessionId = some sh := by
  refine arraycopy_exists (platform.length_hmacSha256 _ _) ?_
  simp only [List.length_append, List.length_cons, List.length_replicate]
  omega

theorem dcIndex_exists (platform : Platform) (core : TgwsCore) {payload : Bytes} (h : payload.length = 64) :
    ∃ dcIdx, core.dcIndex platform payload = some dcIdx := by
  have hdecrypted (keystream : Nat → UInt8) : 62 ≤ (xorStream keystream 0 payload).length := by
    rw [length_xorStream]
    omega
  simp only [dcIndex, slice_eq payload 8 40 (by omega), slice_eq payload 40 56 (by omega), Cipher.update,
    Option.bind_eq_bind, Option.bind_some, slice_eq _ 60 62 (hdecrypted _)]
  exact ⟨_, rfl⟩

theorem deliverMtproto_exists (platform : Platform) (core : TgwsCore) {payload : Bytes} (input : Input)
    (h : payload.length = 64) :
    ∃ choice, received (core.deliverMtproto platform payload input) =
      some (choice, some payload, input.bytes) := by
  obtain ⟨dcIdx, hdcIdx⟩ := dcIndex_exists platform core h
  simp only [deliverMtproto, hdcIdx, Option.bind_eq_bind, Option.bind_some]
  exact ⟨_, rfl⟩

theorem deliverMtproto_eq_some {payload : Bytes} {input : Input} {delivery : Delivery}
    (h : core.deliverMtproto platform payload input = some delivery) :
    delivery.initialPayload = some payload ∧ delivery.following = input.bytes := by
  obtain ⟨dcIdx, -, hdelivery⟩ := Option.bind_eq_some_iff.mp h
  obtain rfl := Option.some.inj hdelivery
  exact ⟨rfl, rfl⟩

-- The first record is read as it was sent, however the stream is cut.
theorem readInitialPayload_hello (hello : Hello) {input : Input} {more : Bytes}
    (h : input.bytes = hello.version ++ beBytes 2 hello.body.length ++ hello.body ++ more) :
    ∃ rest, readInitialPayload 0x16 input = some (hello.encode, rest) ∧ rest.bytes = more := by
  obtain ⟨version, body, hversion, hbody⟩ := hello
  have hheader : (version ++ beBytes 2 body.length).length = 4 := by
    rw [List.length_append, length_beBytes, hversion]
  have hlength : u16At (version ++ beBytes 2 body.length) 2 = some body.length := by
    rw [u16At_eq_fieldAt]
    exact fieldAt_of_eq version (List.append_nil _).symm hversion.symm hbody
  rw [List.append_assoc] at h
  obtain ⟨afterHeader, hread, hafter⟩ := readFully_append h
  obtain ⟨rest, hreadBody, hrest⟩ := readFully_append hafter
  rw [hheader] at hread
  refine ⟨rest, ?_, hrest⟩
  simp only [readInitialPayload, if_true, hread, hlength, hreadBody, Option.bind_eq_bind, Option.bind_some]
  rfl

theorem sessionId_exists (payload : Bytes) : ∃ id, sessionId payload = some id := by
  by_cases h : 76 ≤ payload.length
  · exact ⟨_, by rw [sessionId, if_pos h, slice_eq payload 44 76 h]⟩
  · exact ⟨_, if_neg h⟩

theorem answerFakeTls_exists {hello : Hello} (hpasses : Passes platform core hello) :
    ∃ sh, core.answerFakeTls platform hello.encode = some sh := by
  obtain ⟨clientRandom, hrandom⟩ := Option.isSome_iff_exists.mp hpasses.2
  obtain ⟨id, hid⟩ := sessionId_exists hello.encode
  obtain ⟨sh, hsh⟩ := buildFakeTlsServerHello_exists platform core clientRandom id
  exact ⟨sh, by simp only [answerFakeTls, hrandom, hid, hsh, Option.bind_eq_bind, Option.bind_some]⟩

-- Behind a hello that passes, the next 64 bytes are the init payload, whatever they are.
theorem handleClient_hello {hello : Hello} (hpasses : Passes platform core hello) {input : Input} {more : Bytes}
    (hinput : input.bytes = hello.encode ++ more) (hmore : 64 ≤ more.length) :
    ∃ choice, received (core.handleClient platform input).2 =
      some (choice, some (more.take 64), more.drop 64) := by
  obtain ⟨sh, hsh⟩ := answerFakeTls_exists hpasses
  obtain ⟨afterFirst, hfirst, hrest⟩ := Input.read_one hinput
  obtain ⟨afterHello, hpayload, hrest⟩ := readInitialPayload_hello hello hrest
  have htake : (more.take 64).length = 64 := by
    rw [List.length_take]
    omega
  rw [← List.take_append_drop 64 more] at hrest
  obtain ⟨rest, hread, hrest⟩ := readFully_append hrest
  rw [htake] at hread
  obtain ⟨choice, hchoice⟩ := deliverMtproto_exists platform core rest htake
  have hmtproto : (core.handleMtproto platform hello.encode afterHello).2 =
      core.deliverMtproto platform (more.take 64) rest := by
    have hfirst : hello.encode.getD 0 0 = 0x16 := rfl
    simp only [handleMtproto, if_neg hpasses.1, if_pos hfirst, hsh, hread, Option.bind_eq_bind, Option.bind_some]
  have hclient : core.handleClient platform input = core.handleMtproto platform hello.encode afterHello := by
    simp only [handleClient, hfirst]
    rw [if_neg (by decide)]
    simp only [List.getD_cons_zero, hpayload]
  refine ⟨choice, ?_⟩
  rw [hclient, hmtproto, hchoice, hrest]

theorem handleSocks5_initialPayload {input : Input} {delivery : Delivery}
    (h : (core.handleSocks5 platform input).2 = some delivery) : delivery.initialPayload = none := by
  unfold handleSocks5 at h
  dsimp only at h
  split at h
  · cases h
  · split at h
    · cases h
    · split at h
      · cases h
      · split at h
        · cases h
        · cases h
        · split at h
          · cases h
          · obtain rfl := Option.some.inj h
            rfl

theorem readInitialPayload_length {firstByte : UInt8} {input rest : Input} {payload : Bytes}
    (h : readInitialPayload firstByte input = some (payload, rest)) :
    payload.length + rest.bytes.length = 1 + input.bytes.length := by
  unfold readInitialPayload at h
  split at h
  · obtain ⟨⟨hdrRest, afterHeader⟩, hheader, h⟩ := Option.bind_eq_some_iff.mp h
    obtain ⟨recordLen, -, h⟩ := Option.bind_eq_some_iff.mp h
    obtain ⟨⟨recordBody, last⟩, hbody, h⟩ := Option.bind_eq_some_iff.mp h
    obtain ⟨rfl, rfl⟩ := Prod.mk.inj (Option.some.inj h)
    rw [(readFully_eq_some hheader).2, (readFully_eq_some hbody).2]
    simp only [List.cons_append, List.length_cons, List.length_append]
    omega
  · obtain ⟨⟨field, last⟩, hfield, h⟩ := Option.bind_eq_some_iff.mp h
    obtain ⟨rfl, rfl⟩ := Prod.mk.inj (Option.some.inj h)
    rw [(readFully_eq_some hfield).2]
    simp only [List.length_cons, List.length_append]
    omega

theorem handleMtproto_length {input : Input} {payload initial : Bytes} {delivery : Delivery}
    (h : (core.handleMtproto platform payload input).2 = some delivery)
    (hinitial : delivery.initialPayload = some initial) :
    initial.length + delivery.following.length ≤ payload.length + input.bytes.length := by
  unfold handleMtproto at h
  split at h
  · cases h
  split at h
  · split at h
    · cases h
    · obtain ⟨⟨decryptedPayload, rest⟩, hread, h⟩ := Option.bind_eq_some_iff.mp h
      obtain ⟨hpayload, hfollowing⟩ := deliverMtproto_eq_some h
      obtain rfl := Option.some.inj (hpayload.symm.trans hinitial)
      rw [hfollowing, (readFully_eq_some hread).2, List.length_append]
      omega
  · obtain ⟨hpayload, hfollowing⟩ := deliverMtproto_eq_some h
    obtain rfl := Option.some.inj (hpayload.symm.trans hinitial)
    rw [hfollowing]

-- A connection that delivers an init payload has read it from the stream.
theorem handleClient_length {input : Input} {delivery : Delivery} {initial : Bytes}
    (h : (core.handleClient platform input).2 = some delivery)
    (hinitial : delivery.initialPayload = some initial) :
    initial.length + delivery.following.length ≤ input.bytes.length := by
  unfold handleClient at h
  split at h
  · cases h
  rename_i firstByte afterFirst hfirst
  obtain ⟨hne, -, hsplit⟩ := Input.read_eq_some Nat.one_pos hfirst
  have hpos : 0 < firstByte.length := List.length_pos_iff.mpr hne
  split at h
  · rw [handleSocks5_initialPayload h] at hinitial
    cases hinitial
  · split at h
    · cases h
    · rename_i payload rest hpayload
      have hlength := readInitialPayload_length hpayload
      have hmtproto := handleMtproto_length h hinitial
      rw [hsplit, List.length_append]
      omega

-- The remote side gets the headers of the records: more bytes than the stream has.
theorem received_ne_of_wrapped {hello : Hello} (hpasses : Passes platform core hello) {stream : Bytes}
    (hstream : 64 ≤ stream.length) (wrapped : Wrapped stream) {fakeTls direct : Input}
    (hfakeTls : fakeTls.bytes = hello.encode ++ wrapped.encode) (hdirect : direct.bytes = stream) :
    received (core.handleClient platform fakeTls).2 ≠ received (core.handleClient platform direct).2 := by
  have hlength := length_wrapped wrapped
  obtain ⟨choice, hreceived⟩ := handleClient_hello hpasses hfakeTls (by omega)
  rw [hreceived]
  intro hsame
  obtain ⟨delivery, hdelivery, hseen⟩ := Option.map_eq_some_iff.mp hsame.symm
  obtain ⟨-, hseen⟩ := Prod.mk.inj hseen
  obtain ⟨hinitial, hfollowing⟩ := Prod.mk.inj hseen
  have hle := handleClient_length hdelivery hinitial
  rw [hfollowing, hdirect, List.length_take, List.length_drop] at hle
  omega

-- A hello whose random is the HMAC of the hello with a random of zeros, under the key 00 01 .. 0f.
def sampleDigest : Bytes :=
  [44, 241, 144, 189, 16, 234, 52, 110, 223, 66, 140, 192, 152, 253, 221, 103, 116, 136, 132, 24, 167,
   70, 206, 146, 123, 246, 251, 183, 160, 248, 247, 56]

def helloBody (random : Bytes) : Bytes :=
  [1, 0, 0, 73, 3, 3] ++ random ++ [32] ++ List.replicate 32 100 ++ [0, 2, 0x13, 1, 1, 0]

def sampleHello : Hello where
  version := [3, 1]
  body := helloBody sampleDigest
  hversion := rfl
  hbody := by decide

-- The key of an init payload, with its key stream.
def directKey : Bytes :=
  [147, 230, 246, 146, 26, 3, 51, 78, 116, 210, 200, 66, 190, 6, 250, 117, 204, 22, 116, 80, 229, 45,
   139, 135, 81, 10, 234, 101, 187, 231, 137, 105]

def directStream : Bytes :=
  [208, 59, 35, 221, 210, 205, 91, 70, 240, 103, 228, 96, 82, 73, 44, 142, 7, 221, 56, 75, 157, 109,
   147, 153, 11, 38, 37, 92, 183, 239, 63, 190, 76, 60, 74, 84, 247, 88, 58, 73, 0, 107, 89, 27, 115,
   239, 233, 122, 120, 253, 25, 108, 133, 156, 96, 11, 181, 234, 153, 197, 24, 114, 177, 123]

def recordsKey : Bytes :=
  [6, 203, 2, 21, 45, 204, 102, 18, 37, 19, 123, 33, 59, 51, 2, 124, 206, 232, 204, 17, 100, 174, 114,
   215, 166, 54, 49, 142, 53, 123, 27, 101]

def recordsStream : Bytes :=
  [193, 231, 141, 250, 241, 115, 159, 10, 248, 250, 85, 156, 130, 166, 109, 30, 65, 132, 219, 38, 74,
   49, 230, 6, 144, 152, 214, 118, 0, 159, 93, 44, 56, 241, 249, 197, 198, 213, 19, 217, 230, 36, 95,
   212, 56, 205, 211, 71, 100, 78, 208, 228, 54, 114, 0, 114, 140, 187, 65, 72, 106, 228, 87, 72]

def sampleServerRandom : Bytes :=
  [72, 74, 105, 12, 243, 174, 240, 170, 41, 40, 70, 185, 141, 115, 194, 216, 34, 198, 162, 187, 96, 242,
   48, 127, 91, 149, 37, 3, 243, 56, 171, 186]

-- An init payload for the data center 2, with 4 bytes behind it, and the record that carries them.
def sampleStream : Bytes :=
  List.replicate 8 7 ++ List.replicate 32 5 ++ List.replicate 16 9 ++
    [90, 5, 118, 42, 26, 114, 177, 123] ++ [1, 2, 3, 4]

def sampleWrapped : Wrapped sampleStream where
  bodies := [sampleStream]
  hbodies := List.append_nil _
  hfits := by decide

def hexDigit (c : Char) : Option Nat :=
  if '0' ≤ c ∧ c ≤ '9' then some (c.toNat - '0'.toNat)
  else if 'a' ≤ c ∧ c ≤ 'f' then some (c.toNat - 'a'.toNat + 10)
  else none

-- HMAC-SHA256 and AES as they are on the arrays of the sample, with random bytes that are zeros.
def samplePlatform : Platform where
  hmacSha256 key data :=
    if data = [0x16, 3, 1, 0, 77] ++ helloBody (List.replicate 32 0) then sampleDigest
    else if data = List.replicate 32 5 ++ key then directKey
    else if data = [3, 0, 68] ++ List.replicate 8 7 ++ List.replicate 21 5 ++ key then recordsKey
    else sampleServerRandom
  length_hmacSha256 key data := by split_ifs <;> rfl
  aesCtr key _ pos := if key = directKey then directStream.getD pos 0 else recordsStream.getD pos 0
  generateSeed n := List.replicate n 0
  digit := hexDigit
  hostAddress bytes := ".".intercalate (bytes.map fun b => toString b.toNat)
  string _ := ""

def sampleCore : TgwsCore where
  port := 1480
  dcMappings := LinkedMap.empty
  secret := "dd000102030405060708090a0b0c0d0e0f"
  useByeDpi := false
  disableWebSockets := false
  cfWorkerDomains := []
  cfProxyDomains := []

theorem sampleCore_secretBytes :
    sampleCore.secretBytes samplePlatform = [0, 1, 2, 3, 4, 5, 6, 7, 8, 9, 10, 11, 12, 13, 14, 15] := by
  decide

theorem passes_sample : Passes samplePlatform sampleCore sampleHello := by
  refine ⟨?_, ?_⟩
  · rw [sampleCore_secretBytes]
    exact nofun
  · decide +kernel

def sampleDirect : Input := ⟨[sampleStream]⟩

def sampleFakeTls : Input := ⟨[sampleHello.encode, sampleWrapped.encode]⟩

theorem sampleFakeTls_bytes : sampleFakeTls.bytes = sampleHello.encode ++ sampleWrapped.encode :=
  List.flatten_cons.trans (congrArg _ (List.append_nil _))

theorem received_ne_sample :
    received (sampleCore.handleClient samplePlatform sampleFakeTls).2 ≠
      received (sampleCore.handleClient samplePlatform sampleDirect).2 :=
  received_ne_of_wrapped passes_sample (by decide) sampleWrapped sampleFakeTls_bytes (List.append_nil _)

-- The first record becomes key material: the center is the wrong one, and the payload starts with headers.
theorem not_received_alike :
    ¬∀ (platform : Platform) (core : TgwsCore) (hello : Hello) (stream : Bytes) (wrapped : Wrapped stream)
      (fakeTls direct : Input), Passes platform core hello → 64 ≤ stream.length →
      fakeTls.bytes = hello.encode ++ wrapped.encode → direct.bytes = stream →
      received (core.handleClient platform fakeTls).2 = received (core.handleClient platform direct).2 := by
  intro h
  have hsame := h samplePlatform sampleCore sampleHello sampleStream sampleWrapped sampleFakeTls sampleDirect
    passes_sample (by decide) sampleFakeTls_bytes (List.append_nil _)
  have hdirect : received (sampleCore.handleClient samplePlatform sampleDirect).2 =
      some ((some 2, false), some (sampleStream.take 64), [1, 2, 3, 4]) := by decide +kernel
  have hfakeTls : received (sampleCore.handleClient samplePlatform sampleFakeTls).2 =
      some ((some 4765, true), some (sampleWrapped.encode.take 64), sampleWrapped.encode.drop 64) := by
    decide +kernel
  rw [hdirect, hfakeTls] at hsame
  cases hsame

end ToInet.Tgws.TgwsCore
