import ToInet.Lib.LinkedMap
import ToInet.Util.Json

-- Prefs reads the default preferences through the cursor of PreferenceProvider.
namespace ToInet.Util.Prefs

open ToInet.Lib

variable (texts : FloatTexts) (prefs : SharedPreferences)

-- toString() of a stored value, as MatrixCursor.getString returns it.
def text : PrefValue → String
  | .boolean value => toString value
  | .int value => toString value.toInt
  | .long value => toString value.toInt
  | .float bits => texts.float bits
  | .string value => value
  | .stringSet values => "[" ++ ", ".intercalate values ++ "]"

def getPrefString (key default : String) : String := ((prefs.lookup key).map (text texts)).getD default

def getPrefBoolean (key : String) (default : Bool) : Bool :=
  match prefs.lookup key with
  | some value => text texts value = "true"
  | none => default

def transport : String := getPrefString texts prefs "pref_connection_pathway" "direct"

def torEnabled : Bool := getPrefBoolean texts prefs "tor_enabled" true

def tgwsEnabled : Bool := getPrefBoolean texts prefs "tgws_enabled" false

def byedpiEnabled : Bool := getPrefBoolean texts prefs "byedpi_enabled" false

def turnProxyEnabled : Bool := getPrefBoolean texts prefs "pref_turn_proxy_enabled" false

def operaProxyEnabled : Bool := getPrefBoolean texts prefs "operaproxy_enabled" false

def rehabilitatorEnabled : Bool := getPrefBoolean texts prefs "rehabilitator_enabled" false

def isGlobalVpnEnabled : Bool := getPrefBoolean texts prefs "pref_global_vpn_enabled" false

def vpnProvider : String := getPrefString texts prefs "pref_vpn_provider" "byedpi"

-- Where the ten decimal digits of each script begin.
def digitZeros : List Nat :=
  [0x30, 0x660, 0x6F0, 0x7C0, 0x966, 0x9E6, 0xA66, 0xAE6, 0xB66, 0xBE6, 0xC66, 0xCE6, 0xD66, 0xDE6,
    0xE50, 0xED0, 0xF20, 0x1040, 0x1090, 0x17E0, 0x1810, 0x1946, 0x19D0, 0x1A80, 0x1A90, 0x1B50,
    0x1BB0, 0x1C40, 0x1C50, 0xA620, 0xA8D0, 0xA900, 0xA9D0, 0xA9F0, 0xAA50, 0xABF0, 0xFF10]

-- Character.digit(c, 10)
def digit (c : Char) : Option Nat :=
  (digitZeros.find? fun start => start ≤ c.toNat ∧ c.toNat < start + 10).map fun start => c.toNat - start

def digits (acc : Nat) : List Char → Option Nat
  | [] => some acc
  | c :: cs => (digit c).bind fun d => digits (10 * acc + d) cs

-- Integer.parseInt; none is a NumberFormatException.
def parseInt (chars : List Char) : Option Int :=
  let signed (sign : Int) : List Char → Option Int
    | [] => none
    | cs => (digits 0 cs).bind fun n => if FitsInt32 (sign * n) then some (sign * n) else none
  match chars with
  | '-' :: cs => signed (-1) cs
  | '+' :: cs => signed 1 cs
  | cs => signed 1 cs

-- MatrixCursor.getInt takes the intValue() of a number and parses anything else.
def isInt : Option PrefValue → Bool
  | none | some (.int _) | some (.long _) | some (.float _) => true
  | some value => (parseInt (text texts value).toList).isSome

-- Kotlin's Char.isWhitespace
def isWhitespace (c : Char) : Bool :=
  0x9 ≤ c.toNat ∧ c.toNat ≤ 0xD ∨ 0x1C ≤ c.toNat ∧ c.toNat ≤ 0x20 ∨
    0x2000 ≤ c.toNat ∧ c.toNat ≤ 0x200A ∨
    c.toNat ∈ [0xA0, 0x1680, 0x2028, 0x2029, 0x202F, 0x205F, 0x3000]

def trim (chars : List Char) : List Char :=
  ((chars.dropWhile isWhitespace).reverse.dropWhile isWhitespace).reverse

def defaultDcMappings : String := "2:149.154.167.220\n4:149.154.167.220"

-- A line with a colon is cut at its colons; none is a NumberFormatException.
def tgwsDcMappings : Option (LinkedMap Int String) :=
  let lines := (getPrefString texts prefs "tgws_dc_mappings" defaultDcMappings).toList.splitOn '\n'
  LinkedMap.associate
    (fun line => do
      let parts := line.splitOn ':'
      let key ← parseInt (trim (parts.getD 0 []))
      return (key, String.ofList (trim (parts.getD 1 []))))
    (lines.filter fun line => ':' ∈ line)

def setTgwsDcMappings (value : LinkedMap Int String) : SharedPreferences :=
  let lines := value.entries.map fun entry => (toString entry.1).toList ++ ':' :: entry.2.toList
  prefs.insert "tgws_dc_mappings" (.string (String.ofList (['\n'].intercalate lines)))

-- Whether each line of the mappings with a colon has an Int before the first one.
def tgwsDcMappingsParse : Bool :=
  let lines := (getPrefString texts prefs "tgws_dc_mappings" defaultDcMappings).toList.splitOn '\n'
  (lines.filter fun line => ':' ∈ line).all fun line =>
    (parseInt (trim (line.takeWhile (· ≠ ':')))).isSome

end ToInet.Util.Prefs
