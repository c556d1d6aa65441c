import ToInet.Lib.Getopt
import ToInet.Lib.MachineInt
import ToInet.Lib.Strtol
import Mathlib.Data.List.DropRight

-- The preferences of byedpi: a command of the user or the switches of the settings, and the
-- argument vector that either of them gives.
namespace ToInet.Byedpi

open ToInet.Lib ToInet.Lib.Getopt

-- Character.isWhitespace
def isWhitespace (c : Char) : Bool :=
  let n := c.toNat
  9 ≤ n ∧ n ≤ 13 ∨ 28 ≤ n ∧ n ≤ 32 ∨ n = 0x1680 ∨ 0x2000 ≤ n ∧ n ≤ 0x200A ∧ n ≠ 0x2007 ∨
    n = 0x2028 ∨ n = 0x2029 ∨ n = 0x205F ∨ n = 0x3000

-- Character.isSpaceChar
def isSpaceChar (c : Char) : Bool :=
  let n := c.toNat
  n = 32 ∨ n = 0xA0 ∨ n = 0x1680 ∨ 0x2000 ≤ n ∧ n ≤ 0x200A ∨ n = 0x2028 ∨ n = 0x2029 ∨ n = 0x202F ∨
    n = 0x205F ∨ n = 0x3000

-- What isBlank and trim of Kotlin take for whitespace.
def isBlankChar (c : Char) : Bool := isWhitespace c || isSpaceChar c

def isBlank (text : List Char) : Bool := text.all isBlankChar

def trim (text : List Char) : List Char := (text.dropWhile isBlankChar).rdropWhile isBlankChar

structure ShellSplit where
  tokens : List Arg
  escaping : Bool
  quoteChar : Char
  quoting : Bool
  lastCloseQuoteIndex : Option Nat
  current : List Char

namespace ShellSplit

-- A token that is empty counts where it has been quoted.
def push (s : ShellSplit) (i : Nat) : ShellSplit :=
  if s.current ≠ [] ∨ s.lastCloseQuoteIndex.map (· + 1) = some i then
    { s with tokens := s.tokens ++ [s.current], current := [] }
  else s

def read (s : ShellSplit) (c : Char) (i : Nat) : ShellSplit :=
  if s.escaping then { s with current := s.current ++ [c], escaping := false }
  else if c = '\\' ∧ ¬(s.quoting ∧ s.quoteChar = '\'') then { s with escaping := true }
  else if s.quoting ∧ c = s.quoteChar then { s with quoting := false, lastCloseQuoteIndex := some i }
  else if ¬s.quoting ∧ (c = '\'' ∨ c = '"') then { s with quoting := true, quoteChar := c }
  else if ¬s.quoting ∧ isWhitespace c then s.push i
  else { s with current := s.current ++ [c] }

end ShellSplit

def shellSplit (string : List Char) : List Arg :=
  let start : ShellSplit :=
    { tokens := [], escaping := false, quoteChar := ' ', quoting := false, lastCloseQuoteIndex := none
      current := [] }
  ((string.zipIdx.foldl (fun s (c, i) => s.read c i) start).push string.length).tokens

-- The command begins at its first option.
def cmdToArgs (cmd : List Char) : List Arg :=
  let argsStr := trim (match cmd.dropWhile (· ≠ '-') with
    | [] => cmd
    | args => args)
  "ciadpi".toList :: shellSplit argsStr

structure ByeDpiProxyCmdPreferences where
  args : List Arg

namespace ByeDpiProxyCmdPreferences

def ofCmd (openProxyOnAllInterfaces : Bool) (cmd : List Char) : ByeDpiProxyCmdPreferences :=
  { args := cmdToArgs (if openProxyOnAllInterfaces then cmd ++ " -i 0.0.0.0".toList else cmd) }

section

-- Character.digit in base 10.
variable (digit : Char → Option Nat)

def toIntOrNull (text : List Char) : Option Int := do
  let signed := takeSign text
  if signed.2 = [] then none
  else
    let magnitude := ofDigits 10 (← signed.2.mapM digit)
    let n : Int := if signed.1 then -magnitude else magnitude
    if FitsInt32 n then some n else none

-- substring, which throws beyond the end.
def substring (text : List Char) (startIndex : Nat) : Option (List Char) :=
  if startIndex ≤ text.length then some (text.drop startIndex) else none

-- none is an IndexOutOfBoundsException.
def portFrom : Bool → List Arg → Option Int
  | _, [] => some 1080
  | nextIsPort, arg :: args =>
      match if nextIsPort then toIntOrNull digit arg else none with
      | some p => some p
      | none =>
          if arg = ['-', 'p'] ∨ arg = "--port".toList then portFrom true args
          else if ['-', 'p'] <+: arg then
            match toIntOrNull digit (arg.drop 2) with
            | some p => some p
            | none => portFrom false args
          else if "--port=".toList <+: arg then
            match substring arg 9 with
            | none => none
            | some text =>
                match toIntOrNull digit text with
                | some p => some p
                | none => portFrom false args
          else portFrom false args

def port (prefs : ByeDpiProxyCmdPreferences) : Option Int := portFrom digit false prefs.args

end

end ByeDpiProxyCmdPreferences

inductive DesyncMethod where
  | none
  | split
  | disorder
  | fake
  | oob
  | disoob
deriving DecidableEq

inductive HostsMode where
  | disable
  | blacklist
  | whitelist
deriving DecidableEq

-- The hosts are there exactly where their mode is not off, and then they are not blank.
structure ByeDpiProxyUIPreferences where
  ip : List Char
  port : Int32
  maxConnections : Int32
  bufferSize : Int32
  defaultTtl : Int32
  customTtl : Bool
  noDomain : Bool
  desyncHttp : Bool
  desyncHttps : Bool
  desyncUdp : Bool
  desyncMethod : DesyncMethod
  splitPosition : Int32
  splitAtHost : Bool
  fakeTtl : Int32
  fakeSni : List Char
  oobChar : Int8
  hostMixedCase : Bool
  domainMixedCase : Bool
  hostRemoveSpaces : Bool
  tlsRecordSplit : Bool
  tlsRecordSplitPosition : Int32
  tlsRecordSplitAtSni : Bool
  hostsMode : HostsMode
  hosts : Option (List Char)
  tcpFastOpen : Bool
  udpFakeCount : Int32
  dropSack : Bool
  fakeOffset : Int32
  hosts_disabled : hostsMode = .disable → hosts = none
  hosts_enabled : hostsMode ≠ .disable → ∃ text, hosts = some text ∧ isBlank text = false

-- The arguments of the constructor; one that is not given is none.
structure UIArguments where
  ip : Option (List Char) := none
  port : Option Int32 := none
  maxConnections : Option Int32 := none
  bufferSize : Option Int32 := none
  defaultTtl : Option Int32 := none
  noDomain : Option Bool := none
  desyncHttp : Option Bool := none
  desyncHttps : Option Bool := none
  desyncUdp : Option Bool := none
  desyncMethod : Option DesyncMethod := none
  splitPosition : Option Int32 := none
  splitAtHost : Option Bool := none
  fakeTtl : Option Int32 := none
  fakeSni : Option (List Char) := none
  oobChar : Option (List Char) := none
  hostMixedCase : Option Bool := none
  domainMixedCase : Option Bool := none
  hostRemoveSpaces : Option Bool := none
  tlsRecordSplit : Option Bool := none
  tlsRecordSplitPosition : Option Int32 := none
  tlsRecordSplitAtSni : Option Bool := none
  hostsMode : Option HostsMode := none
  hosts : Option (List Char) := none
  tcpFastOpen : Option Bool := none
  udpFakeCount : Option Int32 := none
  dropSack : Option Bool := none
  byedpiFakeOffset : Option Int32 := none

namespace ByeDpiProxyUIPreferences

theorem all_dropWhile (p : Char → Bool) (text : List Char) : (text.dropWhile p).all p = text.all p := by
  conv_rhs => rw [← List.takeWhile_append_dropWhile (p := p) (l := text), List.all_append]
  simp [List.all_takeWhile]

theorem isBlank_trim (text : List Char) : isBlank (trim text) = isBlank text := by
  rw [isBlank, trim, List.rdropWhile, List.all_reverse, all_dropWhile, List.all_reverse, all_dropWhile, isBlank]

-- The mode is off where there are no hosts.
def hostsModeOf (hostsMode : Option HostsMode) (hosts : Option (List Char)) : HostsMode :=
  if hosts.all isBlank then .disable else hostsMode.getD .disable

def hostsOf (hostsMode : Option HostsMode) (hosts : Option (List Char)) : Option (List Char) :=
  if hostsModeOf hostsMode hosts = .disable then none else hosts.map trim

theorem hostsOf_enabled {hostsMode : Option HostsMode} {hosts : Option (List Char)}
    (hmode : hostsModeOf hostsMode hosts ≠ .disable) :
    ∃ text, hostsOf hostsMode hosts = some text ∧ isBlank text = false := by
  cases hosts with
  | none => exact absurd rfl hmode
  | some text =>
      have htext : isBlank text = false := by
        by_contra hblank
        exact hmode (by simp [hostsModeOf, hblank])
      exact ⟨trim text, by simp [hostsOf, hmode], (isBlank_trim text).trans htext⟩

-- [0].code.toByte(), where a character above 0xFFFF begins with the first of its two halves.
def oobByte (c : Char) : Int8 :=
  .ofNat (if c.toNat < 0x10000 then c.toNat else 0xD800 + (c.toNat - 0x10000) / 1024)

-- The constructor, which throws for an empty oobChar.
def create (openProxyOnAllInterfaces : Bool) (a : UIArguments) : Option ByeDpiProxyUIPreferences :=
  ((a.oobChar.getD ['a']).head?).map fun oobChar =>
    { ip := a.ip.getD (if openProxyOnAllInterfaces then "0.0.0.0".toList else "127.0.0.1".toList)
      port := a.port.getD 1080
      maxConnections := a.maxConnections.getD 512
      bufferSize := a.bufferSize.getD 16384
      defaultTtl := a.defaultTtl.getD 0
      customTtl := a.defaultTtl.isSome
      noDomain := a.noDomain.getD false
      desyncHttp := a.desyncHttp.getD true
      desyncHttps := a.desyncHttps.getD true
      desyncUdp := a.desyncUdp.getD false
      desyncMethod := a.desyncMethod.getD .disorder
      splitPosition := a.splitPosition.getD 1
      splitAtHost := a.splitAtHost.getD false
      fakeTtl := a.fakeTtl.getD 8
      fakeSni := a.fakeSni.getD "www.iana.org".toList
      oobChar := oobByte oobChar
      hostMixedCase := a.hostMixedCase.getD false
      domainMixedCase := a.domainMixedCase.getD false
      hostRemoveSpaces := a.hostRemoveSpaces.getD false
      tlsRecordSplit := a.tlsRecordSplit.getD false
      tlsRecordSplitPosition := a.tlsRecordSplitPosition.getD 0
      tlsRecordSplitAtSni := a.tlsRecordSplitAtSni.getD false
      hostsMode := hostsModeOf a.hostsMode a.hosts
      hosts := hostsOf a.hostsMode a.hosts
      tcpFastOpen := a.tcpFastOpen.getD false
      udpFakeCount := a.udpFakeCount.getD 0
      dropSack := a.dropSack.getD false
      fakeOffset := a.byedpiFakeOffset.getD 0
      hosts_disabled := fun hmode => by simp [hostsOf, hmode]
      hosts_enabled := hostsOf_enabled }

-- The letters of the options that are switched on.
def letters (switches : List (Bool × Char)) : List Char :=
  switches.filterMap fun (on, letter) => if on then some letter else none

def methodArg : DesyncMethod → Arg
  | .none => []
  | .split => ['-', 's']
  | .disorder => ['-', 'd']
  | .fake => ['-', 'f']
  | .oob => ['-', 'o']
  | .disoob => ['-', 'q']

-- A position, with its mark in front.
def position (atSni : Bool) (pos : Int32) : Arg := (if atSni then ['+', 's'] else []) ++ decimal pos.toInt

-- oobChar.toInt().toChar()
def oobText (oobChar : Int8) : List Char := [Char.ofNat (oobChar.toInt % 2 ^ 16).toNat]

def toCmdArgs (prefs : ByeDpiProxyUIPreferences) : List Arg :=
  let proto := letters [(prefs.desyncHttp, 'h'), (prefs.desyncHttps, 't'), (prefs.desyncUdp, 'u')]
  let modHttp := letters [(prefs.hostMixedCase, 'h'), (prefs.domainMixedCase, 'd'), (prefs.hostRemoveSpaces, 'r')]
  "ciadpi".toList ::
    ([['-', 'i'], prefs.ip] ++ [['-', 'p'], decimal prefs.port.toInt] ++
    [['-', 'c'], decimal prefs.maxConnections.toInt] ++ [['-', 'b'], decimal prefs.bufferSize.toInt] ++
    (if prefs.customTtl then [['-', 'g'], decimal prefs.defaultTtl.toInt] else []) ++
    (if prefs.noDomain then [['-', 'N']] else []) ++ (if prefs.tcpFastOpen then [['-', 'F']] else []) ++
    (if prefs.dropSack then [['-', 'Y']] else []) ++
    (if proto ≠ [] then [['-', 'K'], proto] else []) ++ (if modHttp ≠ [] then [['-', 'M'], modHttp] else []) ++
    (if prefs.hostsMode ≠ .disable ∧ ¬prefs.hosts.all isBlank then
      [if prefs.hostsMode = .whitelist then ['-', 'V'] else ['-', 'H'], [':']] else []) ++
    (if methodArg prefs.desyncMethod ≠ [] then
      [methodArg prefs.desyncMethod, position prefs.splitAtHost prefs.splitPosition] else []) ++
    (if prefs.tlsRecordSplit then
      [['-', 'r'], position prefs.tlsRecordSplitAtSni prefs.tlsRecordSplitPosition] else []) ++
    (if prefs.desyncMethod = .fake then
      [['-', 't'], decimal prefs.fakeTtl.toInt] ++ [['-', 'n'], prefs.fakeSni] ++
        (if 0 < prefs.fakeOffset.toInt then [['-', 'O'], decimal prefs.fakeOffset.toInt] else []) else []) ++
    (if prefs.desyncMethod = .oob ∨ prefs.desyncMethod = .disoob then
      [['-', 'e'], oobText prefs.oobChar] else []) ++
    (if 0 < prefs.udpFakeCount.toInt then [['-', 'a'], decimal prefs.udpFakeCount.toInt] else []))

end ByeDpiProxyUIPreferences

end ToInet.Byedpi
