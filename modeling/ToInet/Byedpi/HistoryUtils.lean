import ToInet.Byedpi.ByeDpiProxyPreferences
import ToInet.Util.Json

-- HistoryUtils: the commands that the user tried, which are stored as a JSON array.
namespace ToInet.Byedpi.HistoryUtils

open ToInet.Lib ToInet.Util

structure Command where
  text : String
  pinned : Bool
  name : Option String
deriving DecidableEq

-- A text that is no array is none, and so is a member of an array that is no object.
abbrev HistoryJson := Option (List (Option JSONText))

-- The value of the key, where there is one.
abbrev Stored := Option HistoryJson

def maxHistorySize : Nat := 40

def Command.toObject (command : Command) : Store String PrefValue :=
  let obj : Store String PrefValue :=
    AList.insert "pinned" (.boolean command.pinned) (AList.insert "text" (.string command.text) ∅)
  match command.name with
  | none => obj
  | some name => AList.insert "name" (.string name) obj

def Command.toJson (command : Command) : JSONText := toText command.toObject

-- The first entry with the text.
def find (command : String) (history : List Command) : Option Command :=
  history.find? fun entry => entry.text = command

def update (command : String) (change : Command → Command) : List Command → List Command
  | [] => []
  | entry :: history =>
      if entry.text = command then change entry :: history else entry :: update command change history

def unpinned (history : List Command) : List Command := history.filter fun entry => !entry.pinned

-- remove takes the first entry that is equal to the last one without a pin.
def add (command : String) (history : List Command) : List Command :=
  match find command history with
  | some _ => history
  | none =>
      let added := { text := command, pinned := false, name := none } :: history
      if added.length > maxHistorySize then
        match (unpinned history).getLast? with
        | some last => added.erase last
        | none => added
      else added

section

variable (texts : FloatTexts)

def Command.ofJson (text : JSONText) : Command :=
  let obj := parse text
  { text := obj.optString texts "text"
    pinned := obj.optBoolean "pinned"
    name := if (obj.opt "name").isSome then some (obj.optString texts "name") else none }

-- An exception gives no commands.
def getHistory : Stored → List Command
  | some (some members) => (members.mapM (Option.map (Command.ofJson texts))).getD []
  | _ => []

def saveHistory (history : List Command) : Stored := some (some (history.map fun entry => some entry.toJson))

variable (stored : Stored)

def addCommand (command : String) : Stored :=
  if isBlank command.toList then stored else saveHistory (add command (getHistory texts stored))

def pinCommand (command : String) : Stored :=
  saveHistory (update command (fun entry => { entry with pinned := true }) (getHistory texts stored))

def unpinCommand (command : String) : Stored :=
  saveHistory (update command (fun entry => { entry with pinned := false }) (getHistory texts stored))

def deleteCommand (command : String) : Stored :=
  saveHistory ((getHistory texts stored).filter fun entry => entry.text ≠ command)

def renameCommand (command newName : String) : Stored :=
  saveHistory (update command (fun entry => { entry with name := some newName }) (getHistory texts stored))

def editCommand (command newText : String) : Stored :=
  saveHistory (update command (fun entry => { entry with text := newText }) (getHistory texts stored))

def clearAllHistory : Stored := saveHistory []

def clearUnpinnedHistory : Stored := saveHistory ((getHistory texts stored).filter Command.pinned)

end

inductive Operation where
  | addCommand (command : String)
  | pinCommand (command : String)
  | unpinCommand (command : String)
  | deleteCommand (command : String)
  | renameCommand (command newName : String)
  | editCommand (command newText : String)
  | clearAllHistory
  | clearUnpinnedHistory
deriving DecidableEq

-- Every operation is possible at any time.
def step (texts : FloatTexts) (stored : Stored) : Operation → Option Stored
  | .addCommand command => some (addCommand texts stored command)
  | .pinCommand command => some (pinCommand texts stored command)
  | .unpinCommand command => some (unpinCommand texts stored command)
  | .deleteCommand command => some (deleteCommand texts stored command)
  | .renameCommand command newName => some (renameCommand texts stored command newName)
  | .editCommand command newText => some (editCommand texts stored command newText)
  | .clearAllHistory => some clearAllHistory
  | .clearUnpinnedHistory => some (clearUnpinnedHistory texts stored)

-- What an operation makes of the entries.
def change (history : List Command) : Operation → List Command
  | .addCommand command => if isBlank command.toList then history else add command history
  | .pinCommand command => update command (fun entry => { entry with pinned := true }) history
  | .unpinCommand command => update command (fun entry => { entry with pinned := false }) history
  | .deleteCommand command => history.filter fun entry => entry.text ≠ command
  | .renameCommand command newName => update command (fun entry => { entry with name := some newName }) history
  | .editCommand command newText => update command (fun entry => { entry with text := newText }) history
  | .clearAllHistory => []
  | .clearUnpinnedHistory => history.filter Command.pinned

section

variable {texts : FloatTexts}

theorem opt_toJson (command : Command) (key : String) :
    (parse command.toJson).opt key = (command.toObject.lookup key).map fun value => value.token.read := by
  rw [Command.toJson, parse, toText, JSONObject.opt, Store.lookup_putAll, Store.lookup_putAll]
  cases command.toObject.lookup key <;> simp

theorem lookup_text (command : Command) : command.toObject.lookup "text" = some (.string command.text) := by
  unfold Command.toObject
  split
  · rw [AList.lookup_insert_ne (by decide), AList.lookup_insert]
  · rw [AList.lookup_insert_ne (by decide), AList.lookup_insert_ne (by decide), AList.lookup_insert]

theorem lookup_pinned (command : Command) : command.toObject.lookup "pinned" = some (.boolean command.pinned) := by
  unfold Command.toObject
  split
  · rw [AList.lookup_insert]
  · rw [AList.lookup_insert_ne (by decide), AList.lookup_insert]

theorem lookup_name (command : Command) : command.toObject.lookup "name" = command.name.map .string := by
  unfold Command.toObject
  split
  · rename_i hname
    rw [hname, AList.lookup_insert_ne (by decide), AList.lookup_insert_ne (by decide), AList.lookup_empty]
    rfl
  · rename_i name hname
    rw [hname, AList.lookup_insert]
    rfl

theorem ofJson_toJson (command : Command) : Command.ofJson texts command.toJson = command := by
  have htext := opt_toJson command "text"
  have hpinned := opt_toJson command "pinned"
  have hname := opt_toJson command "name"
  rw [lookup_text] at htext
  rw [lookup_pinned] at hpinned
  rw [lookup_name] at hname
  obtain ⟨text, pinned, name⟩ := command
  cases name with
  | none => simp [Command.ofJson, JSONObject.optString, JSONObject.optBoolean, htext, hpinned, hname,
      PrefValue.token, Token.read]
  | some name => simp [Command.ofJson, JSONObject.optString, JSONObject.optBoolean, htext, hpinned, hname,
      PrefValue.token, Token.read]

@[simp] theorem getHistory_saveHistory (history : List Command) : getHistory texts (saveHistory history) = history := by
  have hread : (history.map fun entry => some entry.toJson).mapM (Option.map (Command.ofJson texts)) =
      some history := by
    induction history with
    | nil => rfl
    | cons entry history ih => simp [ih, ofJson_toJson]
  rw [saveHistory, getHistory, hread, Option.getD_some]

def entryStep (history : List Command) (operation : Operation) : Option (List Command) :=
  some (change history operation)

-- What is stored follows the entries.
theorem entryStep_getHistory (stored : Stored) (operation : Operation) :
    entryStep (getHistory texts stored) operation = (step texts stored operation).map (getHistory texts) := by
  cases operation with
  | addCommand command =>
      rw [entryStep, change, step, addCommand]
      split
      · rfl
      · rw [Option.map_some, getHistory_saveHistory]
  | _ => exact congrArg some (getHistory_saveHistory _).symm

end

end ToInet.Byedpi.HistoryUtils
