import ToInet.Lib.Store
import ToInet.Lib.MachineInt
import Mathlib.Data.Int.Init

-- The part of org.json on Android that presets pass through.
namespace ToInet.Util

open ToInet.Lib

-- The values of SharedPreferences. A Float is given by its bits, a set of strings in
-- the order in which it is iterated.
inductive PrefValue where
  | boolean (value : Bool)
  | int (value : Int32)
  | long (value : Int64)
  | float (bits : BitVec 32)
  | string (value : String)
  | stringSet (values : List String)
deriving DecidableEq

abbrev SharedPreferences := Store String PrefValue

-- What a Float stands for: significand * 2 ^ scale, with the sign apart.
structure FloatParts where
  finite : Bool
  negative : Bool
  significand : Nat
  scale : Int

def floatParts (bits : BitVec 32) : FloatParts :=
  let exponent : Nat := bits.toNat / 2 ^ 23 % 256
  let mantissa : Nat := bits.toNat % 2 ^ 23
  { finite := exponent ≠ 255
    negative := bits.toNat / 2 ^ 31 = 1
    significand := if exponent = 0 then mantissa else 2 ^ 23 + mantissa
    scale := (max exponent 1 : Nat) - 150 }

-- The value of a finite Float without a fractional part.
def wholeValue (bits : BitVec 32) : Option Int :=
  let parts := floatParts bits
  let divisor := 2 ^ (-parts.scale).toNat
  if parts.finite ∧ parts.significand % divisor = 0 then
    let magnitude : Int := (parts.significand / divisor * 2 ^ parts.scale.toNat : Nat)
    some (if parts.negative then -magnitude else magnitude)
  else none

-- A literal of the text: an integral number is told from other numbers by its spelling.
inductive Token where
  | boolean (value : Bool)
  | integral (value : Int)
  | real (bits : BitVec 32)
  | string (value : String)
deriving DecidableEq

-- JSONObject.numberToString for a Float: longValue() saturates, and as a double the
-- largest long is 2 ^ 63.
def floatToString (bits : BitVec 32) : Token :=
  match wholeValue bits with
  | some n =>
      let longValue := max (-2 ^ 63) (min n (2 ^ 63 - 1))
      if n = longValue ∨ n = 2 ^ 63 then .integral longValue else .real bits
  | none => .real bits

-- JSONStringer.value; a set is written as the string of its toString().
def PrefValue.token : PrefValue → Token
  | boolean value => .boolean value
  | int value => .integral value.toInt
  | long value => .integral value.toInt
  | float bits => floatToString bits
  | string value => .string value
  | stringSet values => .string ("[" ++ ", ".intercalate values ++ "]")

-- JSON.checkDouble: a number that is not finite cannot be put.
def PrefValue.checked : PrefValue → Option PrefValue
  | float bits => if (floatParts bits).finite then some (.float bits) else none
  | value => some value

inductive Json where
  | boolean (value : Bool)
  | integer (value : Int32)
  | long (value : Int64)
  | double (bits : BitVec 32)
  | string (value : String)
deriving DecidableEq

-- JSONTokener.readLiteral: an integral number that fits an Integer becomes one.
def Token.read : Token → Json
  | boolean value => .boolean value
  | integral value => if FitsInt32 value then .integer (.ofInt value) else .long (.ofInt value)
  | real bits => .double bits
  | string value => .string value

abbrev JSONObject := Store String Json

-- How Java writes a Float, and the Double that is read of its text.
structure FloatTexts where
  float : BitVec 32 → String
  double : BitVec 32 → String

namespace JSONObject

def opt (object : JSONObject) (key : String) : Option Json := object.lookup key

-- JSON.toBoolean
def optBoolean (object : JSONObject) (key : String) : Bool :=
  match opt object key with
  | some (.boolean value) => value
  | some (.string value) => value.toLower = "true"
  | _ => false

-- JSON.toString
def optString (texts : FloatTexts) (object : JSONObject) (key : String) : String :=
  match opt object key with
  | none => ""
  | some (.boolean value) => toString value
  | some (.integer value) => toString value.toInt
  | some (.long value) => toString value.toInt
  | some (.double bits) => texts.double bits
  | some (.string value) => value

end JSONObject

-- The members of a text.
abbrev JSONText := Store String Token

def toText (members : Store String PrefValue) : JSONText :=
  Store.putAll (fun _ value => some value.token) members ∅

def parse (text : JSONText) : JSONObject :=
  Store.putAll (fun _ token => some token.read) text ∅

end ToInet.Util
