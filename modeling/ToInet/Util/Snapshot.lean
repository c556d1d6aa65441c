import ToInet.Util.Json

namespace ToInet.Util.PresetManager

open ToInet.Lib

def isPresetKey (key : String) : Bool := "preset_".toList.isPrefixOf key.toList

-- A value that cannot be put is logged and left out.
def createSnapshot (prefs : SharedPreferences) : JSONText :=
  toText (Store.putAll (fun key value => if isPresetKey key then none else value.checked) prefs ∅)

-- The branches of when. The parser never returns a Float, and a Double has no branch.
def edited : Json → Option PrefValue
  | .boolean value => some (.boolean value)
  | .string value => some (.string value)
  | .integer value => some (.int value)
  | .long value => some (.long value)
  | .double _ => none

-- The preferences behind applySnapshot. The text of an object is never blank.
def applySnapshot (prefs : SharedPreferences) (snapshotJson : JSONText) : SharedPreferences :=
  Store.putAll (fun _ value => edited value) (parse snapshotJson) prefs

end ToInet.Util.PresetManager
