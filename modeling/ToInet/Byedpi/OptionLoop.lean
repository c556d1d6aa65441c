import ToInet.Byedpi.Packets
import ToInet.Lib.Getopt
import ToInet.Lib.MachineInt
import ToInet.Lib.Strtol

-- main of byedpi: from the argument vector to the parameters.
namespace ToInet.Byedpi.OptionLoop

open ToInet.Lib ToInet.Lib.Getopt

inductive Addr where
  | inet (addr : BitVec 32)
  | inet6 (addr : BitVec 128)
deriving DecidableEq

inductive Demode where
  | none
  | split
  | disorder
  | oob
  | disoob
  | fake
deriving DecidableEq

-- The flag of a part: what its position counts from.
inductive Offset where
  | start
  | sni
  | host
  | fromEnd
deriving DecidableEq

structure Part where
  m : Demode
  flag : Offset
  pos : Int
deriving DecidableEq

structure DesyncParams where
  ttl : Int
  ipOptions : Option Bytes
  md5sig : Bool
  fakeData : Option Bytes
  udpFakeCount : Int
  fakeOffset : Int
  dropSack : Bool
  oobChar : Option UInt8
  parts : List Part
  modHttp : Nat
  tlsrec : List Part
  proto : Nat
  detect : Nat
  hosts : Option (List Bytes)
  pf : Int × Int
deriving DecidableEq

-- What add leaves of a new entry.
def DesyncParams.zero : DesyncParams :=
  { ttl := 0, ipOptions := none, md5sig := false, fakeData := none, udpFakeCount := 0, fakeOffset := 0
    dropSack := false, oobChar := none, parts := [], modHttp := 0, tlsrec := [], proto := 0, detect := 0
    hosts := none, pf := (0, 0) }

-- dp is the last entry of the array, dps those before it; fakeTls is the global fake ClientHello, and behindFakeTls
-- what has been written behind its end.
structure Params where
  dps : List DesyncParams
  dp : DesyncParams
  sfdelay : Int
  waitSend : Bool
  defTtl : Int
  customTtl : Bool
  tfo : Bool
  timeout : Int
  cacheTtl : Int
  ipv6 : Bool
  resolve : Bool
  udp : Bool
  maxOpen : Int
  debug : Int
  bfsize : Int
  baddr : Addr
  laddr : Addr
  port : Int
  protectPath : Option Arg
  fakeTls : Bytes
  behindFakeTls : Bytes
deriving DecidableEq

def Params.sniChange (params : Params) : Packets.SniChange := ⟨params.fakeTls, params.behindFakeTls⟩

def Params.withSni (params : Params) (change : Packets.SniChange) : Params :=
  { params with fakeTls := change.buffer, behindFakeTls := change.behind }

-- default_params of native-lib, with the port and the first entry that main adds to them.
def defaultParams (fakeTls : Bytes) : Params :=
  { dps := [], dp := .zero, sfdelay := 0, waitSend := false, defTtl := 0, customTtl := false, tfo := false
    timeout := 0, cacheTtl := 0, ipv6 := true, resolve := true, udp := true, maxOpen := 512, debug := 0
    bfsize := 16384, baddr := .inet6 0, laddr := .inet 0, port := 1080, protectPath := none, fakeTls
    behindFakeTls := [] }

-- The numeric addresses of getaddrinfo, the files that are neither empty nor unreadable, and strtof
-- for a thousandth of its unit.
structure Environment where
  getAddr : Arg → Option Addr
  readFile : Arg → Option Bytes
  strtof : Arg → Int × Arg

-- A system with one address and no files.
def loopbackOnly : Environment :=
  { getAddr := fun arg => if arg = "127.0.0.1".toList then some (.inet 0x7F000001) else none
    readFile := fun _ => none
    strtof := strtol }

def options : List LongOption :=
  [⟨"no-domain".toList, .no, 'N'⟩, ⟨"no-ipv6".toList, .no, 'X'⟩, ⟨"no-udp".toList, .no, 'U'⟩,
   ⟨"help".toList, .no, 'h'⟩, ⟨"version".toList, .no, 'v'⟩, ⟨"ip".toList, .required, 'i'⟩,
   ⟨"port".toList, .required, 'p'⟩, ⟨"conn-ip".toList, .required, 'I'⟩,
   ⟨"buf-size".toList, .required, 'b'⟩, ⟨"max-conn".toList, .required, 'c'⟩,
   ⟨"debug".toList, .required, 'x'⟩, ⟨"tfo ".toList, .no, 'F'⟩, ⟨"auto".toList, .required, 'A'⟩,
   ⟨"cache-ttl".toList, .required, 'u'⟩, ⟨"timeout".toList, .required, 'T'⟩,
   ⟨"proto".toList, .required, 'K'⟩, ⟨"hosts".toList, .required, 'H'⟩, ⟨"pf".toList, .required, 'V'⟩,
   ⟨"split".toList, .required, 's'⟩, ⟨"disorder".toList, .required, 'd'⟩,
   ⟨"oob".toList, .required, 'o'⟩, ⟨"disoob".toList, .required, 'q'⟩, ⟨"fake".toList, .required, 'f'⟩,
   ⟨"ttl".toList, .required, 't'⟩, ⟨"ip-opt".toList, .optional, 'k'⟩, ⟨"md5sig".toList, .no, 'S'⟩,
   ⟨"fake-data".toList, .required, 'l'⟩, ⟨"tls-sni".toList, .required, 'n'⟩,
   ⟨"fake-offset".toList, .required, 'O'⟩, ⟨"oob-data".toList, .required, 'e'⟩,
   ⟨"mod-http".toList, .required, 'M'⟩, ⟨"tlsrec".toList, .required, 'r'⟩,
   ⟨"udp-fake".toList, .required, 'a'⟩, ⟨"def-ttl".toList, .required, 'g'⟩,
   ⟨"delay".toList, .required, 'w'⟩, ⟨"not-wait-send".toList, .no, 'W'⟩,
   ⟨"drop-sack".toList, .no, 'Y'⟩, ⟨"protect-path".toList, .required, 'P'⟩]

-- The letters of opt are those of the options, with as many colons behind them.
def spec : Spec := { short := options.map fun long => (long.val, long.hasArg), long := options }

-- Where main does not come to run: it ends with an exit code, or does what C leaves undefined.
inductive Stop where
  | exit (code : Int)
  | undefined
deriving DecidableEq

abbrev Exit := Except Stop

def invalid {α : Type} : Exit α := .error (.exit (-1))

-- GetStringUTFChars: a text as modified UTF-8, with a character above 0xFFFF in two halves.
def utf16Unit (n : Nat) : Bytes :=
  if n = 0 then [0xC0, 0x80]
  else if n < 0x80 then [.ofNat n]
  else if n < 0x800 then [.ofNat (0xC0 + n / 64), .ofNat (0x80 + n % 64)]
  else [.ofNat (0xE0 + n / 4096), .ofNat (0x80 + n / 64 % 64), .ofNat (0x80 + n % 64)]

def utfChars (text : List Char) : Bytes :=
  text.flatMap fun c =>
    if c.toNat < 0x10000 then utf16Unit c.toNat
    else utf16Unit (0xD800 + (c.toNat - 0x10000) / 1024) ++ utf16Unit (0xDC00 + (c.toNat - 0x10000) % 1024)

-- sscanf for one byte of at most width characters, with the number of the characters read.
def scanByte (base width : Nat) (str : Bytes) : Option (UInt8 × Nat) :=
  let text := str.map fun byte => Char.ofNat byte.toNat
  let item := (text.dropWhile isSpace).take width
  let signed := takeSign item
  let digits := (takeDigits base signed.2).1
  if digits = [] then none
  else
    some (toByte (if signed.1 then -(ofDigits base digits : Int) else ofDigits base digits),
      (text.takeWhile isSpace).length + (item.length - signed.2.length) + digits.length)

def esca : List (UInt8 × UInt8) :=
  [(114, 13), (110, 10), (116, 9), (92, 92), (102, 12), (98, 8), (118, 11), (97, 7)]

-- What stands behind a backslash: a letter, or a number in base 16 or 8.
def escaped (str : Bytes) : Option (UInt8 × Nat) :=
  match str with
  | [] => none
  | c :: rest =>
      match esca.lookup c with
      | some byte => some (byte, 1)
      | none =>
          (if c = 120 then (scanByte 16 2 rest).map fun read => (read.1, read.2 + 1) else none) <|>
            scanByte 8 3 str

-- At most blen bytes, with skip bytes of the string read already. A backslash in front of nothing
-- that it can escape is dropped.
def parseCform : Nat → Nat → Bytes → Bytes
  | blen, skip + 1, _ :: str => parseCform blen skip str
  | blen + 1, 0, c :: str =>
      if c ≠ 92 then c :: parseCform blen 0 str
      else
        match escaped str with
        | some (byte, n) => byte :: parseCform blen n str
        | none => parseCform (blen + 1) 0 str
  | _, _, _ => []

def dataFromStr (str : Bytes) : Option Bytes :=
  match parseCform str.length 0 str with
  | [] => none
  | data => some data

def ftob (env : Environment) : Arg → Option Bytes
  | ':' :: str => dataFromStr (utfChars str)
  | path => env.readFile path

def lowerChar (c : UInt8) : UInt8 := if 65 ≤ c ∧ c ≤ 90 then c + 32 else c

def parseHosts (buffer : Bytes) : List Bytes :=
  ((buffer.map lowerChar).splitOnP fun c => c = 32 ∨ c = 10 ∨ c = 13).filter (· ≠ [])

def parseOffset (str : Arg) : Exit (Offset × Int) :=
  let read := strtol str
  match read.2 with
  | [] => .ok (.start, read.1)
  | '+' :: 's' :: _ => .ok (.sni, read.1)
  | '+' :: 'h' :: _ => .ok (.host, read.1)
  | '+' :: 'e' :: _ => .ok (.fromEnd, read.1)
  | _ => invalid

-- A number in a range, with nothing behind it.
def number (lo hi : Int) (optarg : Arg) : Exit Int :=
  let read := strtol optarg
  if read.1 < lo ∨ hi < read.1 ∨ read.2 ≠ [] then invalid else .ok read.1

-- A mask, from the first letter of each item of a list.
def letters (bit : Char → Option Nat) (mask : Nat) (optarg : Arg) : Exit Nat :=
  (optarg.splitOn ',').foldlM (fun mask item =>
    match item.head? >>= bit with
    | some value => .ok (mask ||| value)
    | none => invalid) mask

def detectBit : Char → Option Nat
  | 't' => some 8
  | 'r' => some 1
  | 'a' => some 2
  | 's' => some 2
  | 'n' => some 0
  | _ => none

def protoBit : Char → Option Nat
  | 't' => some 8
  | 'h' => some 4
  | 'u' => some 2
  | _ => none

def modHttpBit : Char → Option Nat
  | 'r' => some 2
  | 'h' => some 1
  | 'd' => some 4
  | _ => none

-- A range of ports.
def ports (optarg : Arg) : Exit (Int × Int) :=
  let read := strtol optarg
  if read.1 ≤ 0 ∨ 65535 < read.1 then invalid
  else
    match read.2 with
    | [] => .ok (read.1, read.1)
    | '-' :: str => (number 1 65535 str).map fun last => (read.1, last)
    | _ => invalid

-- One of the options s, d, o, q and f.
def addPart (m : Demode) (dp : DesyncParams) (optarg : Arg) : Exit DesyncParams := do
  let (flag, pos) ← parseOffset optarg
  .ok { dp with parts := dp.parts ++ [{ m, flag, pos }] }

def addTlsrec (dp : DesyncParams) (optarg : Arg) : Exit DesyncParams := do
  let (flag, pos) ← parseOffset optarg
  if 65535 < pos then invalid
  else .ok { dp with tlsrec := dp.tlsrec ++ [{ m := .none, flag, pos }] }

-- The options of the entry dp.
def handleDp (env : Environment) (dp : DesyncParams) (rez : Char) (optarg : Option Arg) : Exit DesyncParams :=
  let arg := optarg.getD []
  match rez with
  | 'K' => do .ok { dp with proto := ← letters protoBit dp.proto arg }
  | 'H' =>
      if dp.hosts.isSome then .ok dp
      else
        match ftob env arg with
        | some file => .ok { dp with hosts := some (parseHosts file) }
        | none => invalid
  | 's' => addPart .split dp arg
  | 'd' => addPart .disorder dp arg
  | 'o' => addPart .oob dp arg
  | 'q' => addPart .disoob dp arg
  | 'f' => addPart .fake dp arg
  | 't' => do .ok { dp with ttl := ← number 1 255 arg }
  | 'k' =>
      if dp.ipOptions.isSome then .ok dp
      else
        match optarg with
        | none => .ok { dp with ipOptions := some [0] }
        | some arg =>
            match ftob env arg with
            | some data => .ok { dp with ipOptions := some data }
            | none => invalid
  | 'S' => .ok { dp with md5sig := true }
  | 'O' => do .ok { dp with fakeOffset := toInt32 (← number 1 (2 ^ 63 - 1) arg) }
  | 'l' =>
      if dp.fakeData.isSome then .ok dp
      else
        match ftob env arg with
        | some data => .ok { dp with fakeData := some data }
        | none => invalid
  | 'e' =>
      match parseCform 1 0 (utfChars arg) with
      | [byte] => .ok { dp with oobChar := some byte }
      | _ => invalid
  | 'M' => do .ok { dp with modHttp := ← letters modHttpBit dp.modHttp arg }
  | 'r' => addTlsrec dp arg
  | 'a' => do .ok { dp with udpFakeCount := ← number 0 (2 ^ 31 - 1) arg }
  | 'V' => do .ok { dp with pf := ← ports arg }
  | 'Y' => .ok { dp with dropSack := true }
  | _ => invalid

-- One pass of the loop.
def handle (env : Environment) (params : Params) : Result → Exit Params
  | .unknown => invalid
  | .option rez optarg =>
      let arg := optarg.getD []
      match rez with
      | 'N' => .ok { params with resolve := false }
      | 'X' => .ok { params with ipv6 := false }
      | 'U' => .ok { params with udp := false }
      | 'h' => .error (.exit 0)
      | 'v' => .error (.exit 0)
      | 'i' =>
          match env.getAddr arg with
          | some addr => .ok { params with laddr := addr }
          | none => invalid
      | 'p' => do .ok { params with port := ← number 1 65535 arg }
      | 'I' =>
          match env.getAddr arg with
          | some addr => .ok { params with baddr := addr }
          | none => invalid
      | 'b' => do .ok { params with bfsize := ← number 1 ((2 ^ 31 - 1) / 4) arg }
      | 'c' => do .ok { params with maxOpen := ← number 1 (65535 / 2 - 1) arg }
      | 'x' =>
          let debug := toInt32 (strtol arg).1
          if debug < 0 then invalid else .ok { params with debug }
      | 'F' => .ok { params with tfo := true }
      | 'A' => do
          let detect ← letters detectBit 0 arg
          .ok { params with dps := params.dps ++ [params.dp], dp := { DesyncParams.zero with detect } }
      | 'u' => do .ok { params with cacheTtl := ← number 1 (2 ^ 63 - 1) arg }
      | 'T' =>
          let read := env.strtof arg
          if read.1 ≤ 0 ∨ 2 ^ 32 - 1 < read.1 ∨ read.2 ≠ [] then invalid
          else .ok { params with timeout := read.1 }
      | 'n' =>
          match params.sniChange.change (utfChars arg) with
          | .ok next => .ok (params.withSni next)
          | .error .refused => invalid
          | .error .undefined => .error .undefined
      | 'g' => do
          let defTtl ← number 1 255 arg
          .ok { params with defTtl, customTtl := true }
      | 'w' => do
          let sfdelay ← number 0 999 arg
          if arg = [] then invalid else .ok { params with sfdelay }
      | 'W' => .ok { params with waitSend := false }
      | 'P' => .ok { params with protectPath := some arg }
      | rez => do .ok { params with dp := ← handleDp env params.dp rez optarg }

def parseOptions (env : Environment) (params : Params) (results : List Result) : Exit Params :=
  results.foldlM (handle env) params

-- A filter needs an entry behind it that stands for all else.
def addLast (params : Params) : Params :=
  if params.dp.hosts.isSome ∨ params.dp.proto ≠ 0 ∨ params.dp.pf.1 ≠ 0 then
    { params with dps := params.dps ++ [params.dp], dp := .zero }
  else params

-- Without an IPv6 address to bind to there is no IPv6.
def boundFamily (params : Params) : Params :=
  match params.baddr with
  | .inet6 _ => params
  | .inet _ => { params with ipv6 := false }

-- The parameters with which main goes on to run, where none of its calls fails for a lack of
-- resources. The first argument is the name of the program.
def main (env : Environment) (fakeTls : Bytes) (argv : List Arg) : Exit Params :=
  (parseOptions env (defaultParams fakeTls) (getopt spec argv.tail)).map fun params => boundFamily (addLast params)

end ToInet.Byedpi.OptionLoop
