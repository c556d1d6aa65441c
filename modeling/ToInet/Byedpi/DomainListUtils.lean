import ToInet.Byedpi.ByeDpiProxyPreferences
import ToInet.Lib.KeyedList
import ToInet.Lib.LinkedMap
import ToInet.Lib.Transition

-- The domain lists of the strategy test: those that come with the app and those of the user, in
-- one file.
namespace ToInet.Byedpi

open ToInet.Lib

structure DomainList where
  id : List Char
  name : List Char
  domains : List (List Char)
  isActive : Bool := true
  isBuiltIn : Bool := false
  isModified : Bool := false
  isDeleted : Bool := false
deriving DecidableEq

-- String.lowercase and Char.uppercase of the platform.
structure Letters where
  lowercase : List Char → List Char
  uppercase : Char → List Char

-- The files at the top of the assets of one version of the app, with their lines.
abbrev Assets := LinkedMap (List Char) (List (List Char))

namespace DomainListUtils

def getDefaultActiveIds (lang : List Char) : List (List Char) :=
  if lang = "tr".toList then ["türkiye".toList, "discord".toList]
  else ["youtube".toList, "googlevideo".toList]

def assetStart : List Char := "proxytest_".toList

def assetEnd : List Char := ".sites".toList

def isAssetFile (file : List Char) : Bool := assetStart.isPrefixOf file && assetEnd.isSuffixOf file

def removePrefix (start text : List Char) : List Char :=
  if start.isPrefixOf text then text.drop start.length else text

def removeSuffix (ending text : List Char) : List Char :=
  if ending.isSuffixOf text then text.take (text.length - ending.length) else text

def assetId (file : List Char) : List Char := removeSuffix assetEnd (removePrefix assetStart file)

-- The ids of the bundled lists, and their domains.
def assetLists (assets : Assets) : List (List Char × List (List Char)) :=
  (assets.entries.filter fun asset => isAssetFile asset.1).map fun asset =>
    (assetId asset.1, (asset.2.map trim).filter fun domain => !domain.isEmpty)

def newBuiltInIds (assets : Assets) : List (List Char) := (assetLists assets).map Prod.fst

variable (letters : Letters)

def replaceFirstChar : List Char → List Char
  | [] => []
  | c :: text => letters.uppercase c ++ text

-- The first list that has the id.
def indexOfFirst (id : List Char) (lists : List DomainList) : Option (Fin lists.length) :=
  lists.findFinIdx? fun list => list.id = id

-- Of several built-in lists with one id, associateBy keeps the last.
def builtInMap (lists : List DomainList) (id : List Char) : Option DomainList :=
  ((lists.filter fun list => list.isBuiltIn).filter fun list => list.id = id).getLast?

def newBuiltIn (lang : List Char) (asset : List Char × List (List Char)) : DomainList :=
  { id := asset.1
    name := replaceFirstChar letters asset.1
    domains := asset.2
    isActive := asset.1 ∈ getDefaultActiveIds lang
    isBuiltIn := true }

def syncAsset (lang : List Char) (builtIn : List Char → Option DomainList) (currentLists : List DomainList)
    (asset : List Char × List (List Char)) : List DomainList :=
  match builtIn asset.1 with
  | none => currentLists ++ [newBuiltIn letters lang asset]
  | some existing =>
      if existing.isDeleted then currentLists
      else if existing.isModified then currentLists
      else
        match indexOfFirst asset.1 currentLists with
        | some index => currentLists.set index { existing with domains := asset.2 }
        -- No list of the map has left the lists.
        | none => currentLists

def syncLists (assets : Assets) (lang : List Char) (lists : List DomainList) : List DomainList :=
  ((assetLists assets).foldl (syncAsset letters lang (builtInMap lists)) lists).filter fun list =>
    !(list.isBuiltIn && list.id ∉ newBuiltInIds assets)

def idOf (name : List Char) : List Char :=
  (letters.lowercase name).map fun c => if c = ' ' then '_' else c

-- An operation that returns false saves nothing.
def addList (name : List Char) (domains : List (List Char)) (lists : List DomainList) :
    Option (List DomainList) :=
  let id := idOf letters name
  match indexOfFirst id lists with
  | some index =>
      if lists[index].isBuiltIn ∧ lists[index].isDeleted then
        some (lists.set index
          { lists[index] with name, domains, isDeleted := false, isModified := true, isActive := true })
      else none
  | none => some (lists ++ [{ id, name, domains }])

def updateList (id name : List Char) (domains : List (List Char)) (lists : List DomainList) :
    Option (List DomainList) :=
  (indexOfFirst id lists).map fun index : Fin lists.length =>
    lists.set index { lists[index] with name, domains, isModified := lists[index].isBuiltIn }

def toggleListActive (id : List Char) (lists : List DomainList) : Option (List DomainList) :=
  (indexOfFirst id lists).map fun index : Fin lists.length =>
    lists.set index { lists[index] with isActive := !lists[index].isActive }

def deleteList (id : List Char) (lists : List DomainList) : Option (List DomainList) :=
  (indexOfFirst id lists).map fun index : Fin lists.length =>
    if lists[index].isBuiltIn then
      lists.set index { lists[index] with isDeleted := true, isActive := false }
    else lists.eraseIdx index

def resetLists (assets : Assets) (lang : List Char) : List DomainList := syncLists letters assets lang []

inductive Operation where
  | syncLists (assets : Assets) (lang : List Char)
  | addList (name : List Char) (domains : List (List Char))
  | updateList (id name : List Char) (domains : List (List Char))
  | toggleListActive (id : List Char)
  | deleteList (id : List Char)
  | resetLists (assets : Assets) (lang : List Char)

def perform (lists : List DomainList) : Operation → List DomainList
  | .syncLists assets lang => syncLists letters assets lang lists
  | .addList name domains => (addList letters name domains lists).getD lists
  | .updateList id name domains => (updateList id name domains lists).getD lists
  | .toggleListActive id => (toggleListActive id lists).getD lists
  | .deleteList id => (deleteList id lists).getD lists
  | .resetLists assets lang => resetLists letters assets lang

def step (lists : List DomainList) (operation : Operation) : Option (List DomainList) :=
  some (perform letters lists operation)

end DomainListUtils

end ToInet.Byedpi
