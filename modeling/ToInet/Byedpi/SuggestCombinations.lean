import ToInet.Lib.LinkedMap

-- The combined commands that a strategy test suggests.
namespace ToInet.Byedpi

open ToInet.Lib

structure SiteResult where
  site : String
  successCount : Int
  totalCount : Int
deriving DecidableEq

structure StrategyResult where
  command : String
  successCount : Int
  totalRequests : Int
  siteResults : List SiteResult
deriving DecidableEq

def workingStrats (completeStrategies : List StrategyResult) (domain : String) : List String :=
  (completeStrategies.filter fun strat => strat.siteResults.any fun result =>
    result.site = domain ∧ result.successCount = result.totalCount ∧ 0 < result.totalCount).map
      StrategyResult.command

def domainToWorkingCmds (completeStrategies : List StrategyResult) (sites : List String) (torFallback : Bool) :
    LinkedMap String (List String) :=
  sites.foldl (fun map domain =>
    let cmds := workingStrats completeStrategies domain
    if cmds ≠ [] then map.put domain cmds else if torFallback then map.put domain ["TOR"] else map) LinkedMap.empty

-- The JSON object of a combination has its entries in the same order.
def currentCombo (working : LinkedMap String (List String)) (i : Nat) : LinkedMap String String :=
  working.entries.foldl (fun map entry =>
    map.put entry.1 (entry.2.getD (if i < entry.2.length then i else 0) "")) LinkedMap.empty

def maxCombos : Nat := 3

-- A combination is left out when a strategy has its text for a command.
def addCombo (toString : LinkedMap String String → String) (strategies : List StrategyResult)
    (combos : List (LinkedMap String String)) (combo : LinkedMap String String) :
    List (LinkedMap String String) :=
  if toString combo ∈ strategies.map StrategyResult.command ++ combos.map toString then combos
  else combos ++ [combo]

def suggestCombinations (toString : LinkedMap String String → String)
    (strategies completeStrategies : List StrategyResult)
    (sites : List String) (torFallback : Bool) : List (LinkedMap String String) :=
  if completeStrategies = [] ∨ sites = [] then []
  else if completeStrategies.any fun strat =>
      strat.successCount = strat.totalRequests ∧ 0 < strat.totalRequests then []
  else
    let working := domainToWorkingCmds completeStrategies sites torFallback
    if working.entries = [] then []
    else
      (List.range maxCombos).foldl
        (fun combos i => addCombo toString strategies combos (currentCombo working i)) []

end ToInet.Byedpi
