import ToInet.Lib.TlsExtensions

namespace ToInet.FakeVpn

open ToInet.Lib
open ToInet.Lib.TlsExtension (encodeAll)

-- A ClientHello in one record whose first server_name extension starts with a
-- host_name entry. moreNames holds the entries behind the first one.
structure ClientHello where
  recordVersion : Bytes
  versionAndRandom : Bytes
  sessionId : Bytes
  cipherSuites : Bytes
  compressionMethods : Bytes
  before : List TlsExtension
  hostName : Bytes
  moreNames : Bytes
  after : List TlsExtension
  recordVersion_length : recordVersion.length = 2
  versionAndRandom_length : versionAndRandom.length = 34
  sessionId_lt : sessionId.length < 256
  cipherSuites_lt : cipherSuites.length < 256 ^ 2
  compressionMethods_lt : compressionMethods.length < 256
  before_type : ∀ extension ∈ before, extension.type ≠ 0

-- The six length fields that enclose the host name, innermost first.
structure Lengths where
  name : Int
  list : Int
  extension : Int
  extensions : Int
  handshake : Int
  record : Int

def Lengths.Fits (lengths : Lengths) : Prop :=
  lengths.name < 256 ^ 2 ∧ lengths.list < 256 ^ 2 ∧ lengths.extension < 256 ^ 2 ∧
    lengths.extensions < 256 ^ 2 ∧ lengths.handshake < 256 ^ 3 ∧ lengths.record < 256 ^ 2

instance (lengths : Lengths) : Decidable lengths.Fits := by
  unfold Lengths.Fits
  infer_instance

def Lengths.Nonneg (lengths : Lengths) : Prop :=
  0 ≤ lengths.name ∧ 0 ≤ lengths.list ∧ 0 ≤ lengths.extension ∧
    0 ≤ lengths.extensions ∧ 0 ≤ lengths.handshake ∧ 0 ≤ lengths.record

def Lengths.shift (lengths : Lengths) (delta : Int) : Lengths where
  name := lengths.name + delta
  list := lengths.list + delta
  extension := lengths.extension + delta
  extensions := lengths.extensions + delta
  handshake := lengths.handshake + delta
  record := lengths.record + delta

-- What the fields keep of these numbers.
def Lengths.wrap (lengths : Lengths) : Lengths where
  name := lengths.name % 256 ^ 2
  list := lengths.list % 256 ^ 2
  extension := lengths.extension % 256 ^ 2
  extensions := lengths.extensions % 256 ^ 2
  handshake := lengths.handshake % 256 ^ 3
  record := lengths.record % 256 ^ 2

theorem Lengths.wrap_nonneg (lengths : Lengths) : lengths.wrap.Nonneg := by
  simp only [Nonneg, wrap]
  omega

theorem Lengths.wrap_fits (lengths : Lengths) : lengths.wrap.Fits := by
  simp only [Fits, wrap]
  omega

namespace ClientHello

-- The bytes from the session id to the last compression method.
def parameters (hello : ClientHello) : Bytes :=
  toByte hello.sessionId.length :: hello.sessionId ++
    (beBytes 2 hello.cipherSuites.length ++ hello.cipherSuites) ++
    (toByte hello.compressionMethods.length :: hello.compressionMethods)

def sniHead (lengths : Lengths) : Bytes :=
  beBytes 2 0 ++ beBytes 2 lengths.extension ++ beBytes 2 lengths.list ++ [0] ++
    beBytes 2 lengths.name

-- Record header, handshake header, version and random.
def header (hello : ClientHello) (lengths : Lengths) : Bytes :=
  [0x16] ++ hello.recordVersion ++ beBytes 2 lengths.record ++ [0x01] ++
    beBytes 3 lengths.handshake ++ hello.versionAndRandom

-- The message with any numbers in the six length fields and any host name.
def layout (hello : ClientHello) (lengths : Lengths) (hostName : Bytes) : Bytes :=
  hello.header lengths ++ hello.parameters ++ beBytes 2 lengths.extensions ++
    encodeAll hello.before ++ sniHead lengths ++ hostName ++ hello.moreNames ++
    encodeAll hello.after

def lengths (hello : ClientHello) : Lengths :=
  let name : Int := hello.hostName.length
  let list := 3 + name + hello.moreNames.length
  let extension := 2 + list
  let extensions := (encodeAll hello.before).length + (4 + extension) +
    (encodeAll hello.after).length
  let handshake := 34 + hello.parameters.length + (2 + extensions)
  { name, list, extension, extensions, handshake, record := 4 + handshake }

def encode (hello : ClientHello) : Bytes := hello.layout hello.lengths hello.hostName

def withHostName (hello : ClientHello) (hostName : Bytes) : ClientHello := { hello with hostName }

theorem length_parameters (hello : ClientHello) :
    hello.parameters.length = 4 + hello.sessionId.length + hello.cipherSuites.length +
      hello.compressionMethods.length := by
  simp [parameters]
  omega

@[simp] theorem length_sniHead (lengths : Lengths) : (sniHead lengths).length = 9 := by
  simp [sniHead]

theorem length_header (hello : ClientHello) (lengths : Lengths) :
    (hello.header lengths).length = 43 := by
  simp [header, hello.recordVersion_length, hello.versionAndRandom_length]

theorem length_layout (hello : ClientHello) (lengths : Lengths) (hostName : Bytes) :
    (hello.layout lengths hostName).length = 54 + hello.parameters.length +
      (encodeAll hello.before).length + hostName.length + hello.moreNames.length +
      (encodeAll hello.after).length := by
  simp [layout, length_header]
  omega

-- The record length counts everything behind the record header, and the
-- handshake length everything behind the handshake header.
theorem lengths_encode (hello : ClientHello) :
    hello.lengths.record = hello.encode.length - 5 ∧
      hello.lengths.handshake = hello.encode.length - 9 := by
  rw [encode, length_layout]
  simp only [lengths]
  push_cast
  omega

theorem lengths_nonneg (hello : ClientHello) : hello.lengths.Nonneg := by
  simp only [Lengths.Nonneg, lengths]
  omega

theorem lengths_withHostName (hello : ClientHello) (hostName : Bytes) :
    (hello.withHostName hostName).lengths =
      hello.lengths.shift (hostName.length - hello.hostName.length) := by
  have hp : (hello.withHostName hostName).parameters = hello.parameters := rfl
  simp only [lengths, Lengths.shift, hp, Lengths.mk.injEq]
  simp only [withHostName]
  omega

theorem encode_withHostName (hello : ClientHello) (hostName : Bytes) :
    (hello.withHostName hostName).encode =
      hello.layout (hello.lengths.shift (hostName.length - hello.hostName.length)) hostName := by
  rw [encode, lengths_withHostName]
  rfl

end ClientHello

def IsClientHello (bytes hostName : Bytes) : Prop :=
  ∃ hello : ClientHello, hello.lengths.Fits ∧ hello.hostName = hostName ∧ bytes = hello.encode

end ToInet.FakeVpn
