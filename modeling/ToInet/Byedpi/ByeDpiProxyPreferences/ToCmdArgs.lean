import ToInet.Byedpi.ByeDpiProxyPreferences
import ToInet.Byedpi.OptionLoop.Theorems
import ToInet.Byedpi.Packets.ChangeSni

-- What byedpi makes of the arguments that the switches of the settings give.
namespace ToInet.Byedpi.ByeDpiProxyUIPreferences

open ToInet.Lib ToInet.Lib.Getopt ToInet.Byedpi.OptionLoop

-- The ranges of the parser, for the numbers that are handed to it.
structure InRange (prefs : ByeDpiProxyUIPreferences) : Prop where
  port : 1 ≤ prefs.port.toInt ∧ prefs.port.toInt ≤ 65535
  maxConnections : 1 ≤ prefs.maxConnections.toInt ∧ prefs.maxConnections.toInt ≤ 65535 / 2 - 1
  bufferSize : 1 ≤ prefs.bufferSize.toInt ∧ prefs.bufferSize.toInt ≤ (2 ^ 31 - 1) / 4
  defaultTtl : prefs.customTtl → 1 ≤ prefs.defaultTtl.toInt ∧ prefs.defaultTtl.toInt ≤ 255
  fakeTtl : prefs.desyncMethod = .fake → 1 ≤ prefs.fakeTtl.toInt ∧ prefs.fakeTtl.toInt ≤ 255
  fakeOffset : 0 ≤ prefs.fakeOffset.toInt
  udpFakeCount : 0 ≤ prefs.udpFakeCount.toInt
  tlsRecordSplitPosition : prefs.tlsRecordSplit → prefs.tlsRecordSplitPosition.toInt ≤ 65535

def demode : DesyncMethod → Demode
  | .none => .none
  | .split => .split
  | .disorder => .disorder
  | .fake => .fake
  | .oob => .oob
  | .disoob => .disoob

def mask (switches : List (Bool × Nat)) : Nat :=
  switches.foldl (fun mask (on, bit) => if on then mask ||| bit else mask) 0

def offset (atSni : Bool) : Offset := if atSni then .sni else .start

-- The entry of the options, also where one for all else has been added behind it.
def entry (params : Params) : DesyncParams := params.dps.headD params.dp

-- The parameters say what the preferences say; hello is the fake ClientHello before.
structure Matches (env : Environment) (hello : Packets.Hello) (prefs : ByeDpiProxyUIPreferences) (params : Params) :
    Prop where
  ip : env.getAddr prefs.ip = some params.laddr
  port : params.port = prefs.port.toInt
  maxOpen : params.maxOpen = prefs.maxConnections.toInt
  bfsize : params.bfsize = prefs.bufferSize.toInt
  customTtl : params.customTtl = prefs.customTtl
  defTtl : prefs.customTtl → params.defTtl = prefs.defaultTtl.toInt
  resolve : params.resolve = !prefs.noDomain
  tfo : params.tfo = prefs.tcpFastOpen
  dropSack : (entry params).dropSack = prefs.dropSack
  proto : (entry params).proto = mask [(prefs.desyncHttp, 4), (prefs.desyncHttps, 8), (prefs.desyncUdp, 2)]
  modHttp : (entry params).modHttp =
    mask [(prefs.hostMixedCase, 1), (prefs.domainMixedCase, 4), (prefs.hostRemoveSpaces, 2)]
  hosts : (entry params).hosts = prefs.hosts.map fun text => parseHosts (utfChars text)
  parts : (entry params).parts =
    if prefs.desyncMethod = .none then []
    else [{ m := demode prefs.desyncMethod, flag := offset prefs.splitAtHost, pos := prefs.splitPosition.toInt }]
  tlsrec : (entry params).tlsrec =
    if prefs.tlsRecordSplit then
      [{ m := .none, flag := offset prefs.tlsRecordSplitAtSni, pos := prefs.tlsRecordSplitPosition.toInt }]
    else []
  ttl : prefs.desyncMethod = .fake → (entry params).ttl = prefs.fakeTtl.toInt
  fakeSni : prefs.desyncMethod = .fake →
    ∃ renamed, Packets.Renamed hello (utfChars prefs.fakeSni) renamed ∧ params.fakeTls = renamed.buffer
  behindFakeTls : params.behindFakeTls = []
  fakeOffset : prefs.desyncMethod = .fake → (entry params).fakeOffset = prefs.fakeOffset.toInt
  oobChar : prefs.desyncMethod = .oob ∨ prefs.desyncMethod = .disoob →
    (entry params).oobChar = some prefs.oobChar.toUInt8
  udpFakeCount : (entry params).udpFakeCount = prefs.udpFakeCount.toInt

def protoLetters (prefs : ByeDpiProxyUIPreferences) : List Char :=
  letters [(prefs.desyncHttp, 'h'), (prefs.desyncHttps, 't'), (prefs.desyncUdp, 'u')]

def modHttpLetters (prefs : ByeDpiProxyUIPreferences) : List Char :=
  letters [(prefs.hostMixedCase, 'h'), (prefs.domainMixedCase, 'd'), (prefs.hostRemoveSpaces, 'r')]

-- The preferences that the arguments can express: lists of more than one letter, hosts, and
-- positions behind their mark are lost, and a name that is longer than the one in its place goes beyond the buffer.
structure Expressible (env : Environment) (hello : Packets.Hello) (prefs : ByeDpiProxyUIPreferences) : Prop where
  ip : (env.getAddr prefs.ip).isSome
  proto : (protoLetters prefs).length ≤ 1
  modHttp : (modHttpLetters prefs).length ≤ 1
  hostsMode : prefs.hostsMode = .disable
  splitPosition : prefs.desyncMethod ≠ .none → prefs.splitAtHost → prefs.splitPosition = 0
  tlsRecordSplitPosition : prefs.tlsRecordSplit → prefs.tlsRecordSplitAtSni → prefs.tlsRecordSplitPosition = 0
  fakeSni : prefs.desyncMethod = .fake →
    hello.padding ≠ [] ∧ (utfChars prefs.fakeSni).length ≤ hello.name.length
  oobChar : prefs.desyncMethod = .oob ∨ prefs.desyncMethod = .disoob →
    prefs.oobChar = -17 ∨ 0 < prefs.oobChar ∧ prefs.oobChar ≠ 92

-- What getopt_long returns for arguments that belong together.
def Reads (args : List Arg) (results : List Result) : Prop := readArgs spec .ready args = (.ready, results)

theorem Reads.append {args rest : List Arg} {results more : List Result} (hargs : Reads args results)
    (hrest : Reads rest more) : Reads (args ++ rest) (results ++ more) := by
  rw [Reads, readArgs_append, hargs]
  simp only [show readArgs spec .ready rest = _ from hrest]

theorem Reads.ite {args : List Arg} {results : List Result} (c : Prop) [Decidable c]
    (hargs : c → Reads args results) : Reads (if c then args else []) (if c then results else []) := by
  split
  · next hc => exact hargs hc
  · rfl

theorem Reads.required {val : Char} (hval : val ≠ '-') (hfind : findShort spec val = some .required) (arg : Arg) :
    Reads [['-', val], arg] [.option val (some arg)] :=
  readArgs_required hval hfind arg

theorem Reads.no {val : Char} (hval : val ≠ '-') (hfind : findShort spec val = some .no) :
    Reads [['-', val]] [.option val none] :=
  readArgs_no hval hfind

def methodLetter : DesyncMethod → Char
  | .none => ' '
  | .split => 's'
  | .disorder => 'd'
  | .fake => 'f'
  | .oob => 'o'
  | .disoob => 'q'

-- The options, in the order of the arguments.
def cmdOptions (prefs : ByeDpiProxyUIPreferences) : List Result :=
  [Result.option 'i' (some prefs.ip)] ++ [Result.option 'p' (some (decimal prefs.port.toInt))] ++
  [Result.option 'c' (some (decimal prefs.maxConnections.toInt))] ++
  [Result.option 'b' (some (decimal prefs.bufferSize.toInt))] ++
  (if prefs.customTtl then [Result.option 'g' (some (decimal prefs.defaultTtl.toInt))] else []) ++
  (if prefs.noDomain then [Result.option 'N' none] else []) ++
  (if prefs.tcpFastOpen then [Result.option 'F' none] else []) ++
  (if prefs.dropSack then [Result.option 'Y' none] else []) ++
  (if protoLetters prefs ≠ [] then [Result.option 'K' (some (protoLetters prefs))] else []) ++
  (if modHttpLetters prefs ≠ [] then [Result.option 'M' (some (modHttpLetters prefs))] else []) ++
  (if prefs.hostsMode ≠ .disable ∧ ¬prefs.hosts.all isBlank then
    [Result.option (if prefs.hostsMode = .whitelist then 'V' else 'H') (some [':'])] else []) ++
  (if methodArg prefs.desyncMethod ≠ [] then
    [Result.option (methodLetter prefs.desyncMethod) (some (position prefs.splitAtHost prefs.splitPosition))]
  else []) ++
  (if prefs.tlsRecordSplit then
    [Result.option 'r' (some (position prefs.tlsRecordSplitAtSni prefs.tlsRecordSplitPosition))] else []) ++
  (if prefs.desyncMethod = .fake then
    [Result.option 't' (some (decimal prefs.fakeTtl.toInt))] ++ [Result.option 'n' (some prefs.fakeSni)] ++
      (if 0 < prefs.fakeOffset.toInt then [Result.option 'O' (some (decimal prefs.fakeOffset.toInt))] else [])
  else []) ++
  (if prefs.desyncMethod = .oob ∨ prefs.desyncMethod = .disoob then
    [Result.option 'e' (some (oobText prefs.oobChar))] else []) ++
  (if 0 < prefs.udpFakeCount.toInt then [Result.option 'a' (some (decimal prefs.udpFakeCount.toInt))] else [])

theorem reads_hosts (mode : HostsMode) :
    Reads [if mode = .whitelist then ['-', 'V'] else ['-', 'H'], [':']]
      [.option (if mode = .whitelist then 'V' else 'H') (some [':'])] := by
  split
  · exact .required (by decide) (by decide) _
  · exact .required (by decide) (by decide) _

theorem reads_method {method : DesyncMethod} (hmethod : methodArg method ≠ []) (arg : Arg) :
    Reads [methodArg method, arg] [.option (methodLetter method) (some arg)] := by
  cases method with
  | none => exact absurd rfl hmethod
  | split => exact .required (by decide) (by decide) arg
  | disorder => exact .required (by decide) (by decide) arg
  | fake => exact .required (by decide) (by decide) arg
  | oob => exact .required (by decide) (by decide) arg
  | disoob => exact .required (by decide) (by decide) arg

theorem reads_fake (prefs : ByeDpiProxyUIPreferences) :
    Reads ([['-', 't'], decimal prefs.fakeTtl.toInt] ++ [['-', 'n'], prefs.fakeSni] ++
        (if 0 < prefs.fakeOffset.toInt then [['-', 'O'], decimal prefs.fakeOffset.toInt] else []))
      ([.option 't' (some (decimal prefs.fakeTtl.toInt))] ++ [.option 'n' (some prefs.fakeSni)] ++
        (if 0 < prefs.fakeOffset.toInt then [.option 'O' (some (decimal prefs.fakeOffset.toInt))] else [])) := by
  refine .append (.append ?_ ?_) (.ite _ fun _ => ?_)
  · exact .required (by decide) (by decide) _
  · exact .required (by decide) (by decide) _
  · exact .required (by decide) (by decide) _

theorem reads_toCmdArgs (prefs : ByeDpiProxyUIPreferences) : Reads (toCmdArgs prefs).tail (cmdOptions prefs) := by
  have hno (val : Char) (c : Bool) (hval : val ≠ '-') (hfind : findShort spec val = some .no) :
      Reads (if c then [['-', val]] else []) (if c then [.option val none] else []) :=
    .ite _ fun _ => .no hval hfind
  have hrequired (val : Char) (c : Prop) [Decidable c] (arg : Arg) (hval : val ≠ '-')
      (hfind : findShort spec val = some .required) :
      Reads (if c then [['-', val], arg] else []) (if c then [.option val (some arg)] else []) :=
    .ite _ fun _ => .required hval hfind arg
  have hbase : Reads ([['-', 'i'], prefs.ip] ++ [['-', 'p'], decimal prefs.port.toInt] ++
      [['-', 'c'], decimal prefs.maxConnections.toInt] ++ [['-', 'b'], decimal prefs.bufferSize.toInt])
      ([.option 'i' (some prefs.ip)] ++ [.option 'p' (some (decimal prefs.port.toInt))] ++
        [.option 'c' (some (decimal prefs.maxConnections.toInt))] ++
        [.option 'b' (some (decimal prefs.bufferSize.toInt))]) := by
    refine .append (.append (.append ?_ ?_) ?_) ?_
    · exact .required (by decide) (by decide) _
    · exact .required (by decide) (by decide) _
    · exact .required (by decide) (by decide) _
    · exact .required (by decide) (by decide) _
  have hflags := (((hbase.append
    (hrequired 'g' prefs.customTtl (decimal prefs.defaultTtl.toInt) (by decide) (by decide))).append
    (hno 'N' prefs.noDomain (by decide) (by decide))).append
    (hno 'F' prefs.tcpFastOpen (by decide) (by decide))).append
    (hno 'Y' prefs.dropSack (by decide) (by decide))
  have hlists := ((hflags.append
    (hrequired 'K' (protoLetters prefs ≠ []) (protoLetters prefs) (by decide) (by decide))).append
    (hrequired 'M' (modHttpLetters prefs ≠ []) (modHttpLetters prefs) (by decide) (by decide))).append
    (.ite (prefs.hostsMode ≠ .disable ∧ ¬prefs.hosts.all isBlank) fun _ => reads_hosts prefs.hostsMode)
  have hparts := (hlists.append (.ite (methodArg prefs.desyncMethod ≠ []) fun hmethod =>
    reads_method hmethod (position prefs.splitAtHost prefs.splitPosition))).append
    (hrequired 'r' prefs.tlsRecordSplit (position prefs.tlsRecordSplitAtSni prefs.tlsRecordSplitPosition)
      (by decide) (by decide))
  exact ((hparts.append (.ite (prefs.desyncMethod = .fake) fun _ => reads_fake prefs)).append
    (hrequired 'e' (prefs.desyncMethod = .oob ∨ prefs.desyncMethod = .disoob) (oobText prefs.oobChar)
      (by decide) (by decide))).append
    (hrequired 'a' (0 < prefs.udpFakeCount.toInt) (decimal prefs.udpFakeCount.toInt) (by decide) (by decide))

end ToInet.Byedpi.ByeDpiProxyUIPreferences
