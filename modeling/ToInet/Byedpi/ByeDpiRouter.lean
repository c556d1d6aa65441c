import ToInet.Lib.LinkedMap

-- ByeDpiRouter: the instances that it starts for a set of rules, and the port that it sends a
-- connection to.
namespace ToInet.Byedpi

open ToInet.Lib

-- A START intent for an instance of byedpi.
structure Intent where
  service : Nat
  cmd : String
  port : Nat
deriving DecidableEq

structure ByeDpiRouter where
  domainToPort : LinkedMap String Nat
  defaultPort : Nat
  intents : List Intent

namespace ByeDpiRouter

-- The number of the instance services.
def instances : Nat := 5

def torPort : Nat := 5242

section

-- What two characters that differ in case only have in common.
variable (fold : Char → Char)

def equalsIgnoreCase (a b : String) : Bool := a.toList.map fold == b.toList.map fold

def endsWithIgnoreCase (a suffix : String) : Bool := (suffix.toList.map fold).isSuffixOf (a.toList.map fold)

def isTor (cmd : String) : Bool := equalsIgnoreCase fold cmd "TOR"

-- The set of the commands, in the order of the rules.
def addCmd (uniqueCmds : List String) (cmd : String) : List String :=
  if cmd ∈ uniqueCmds then uniqueCmds else uniqueCmds ++ [cmd]

def uniqueCmds (rules : LinkedMap String String) : List String :=
  rules.entries.foldl (fun cmds entry => addCmd cmds entry.2) []

structure Launches where
  cmdToPort : LinkedMap String Nat
  currentPort : Nat
  launched : List Intent

def launchCmd (s : Launches) (cmd : String) : Launches :=
  if isTor fold cmd then { s with cmdToPort := s.cmdToPort.put cmd torPort }
  else if s.launched.length < instances then
    { cmdToPort := s.cmdToPort.put cmd s.currentPort, currentPort := s.currentPort + 1
      launched := s.launched ++ [{ service := s.launched.length, cmd, port := s.currentPort }] }
  else s

def putDomain (cmdToPort : LinkedMap String Nat) (domainToPort : LinkedMap String Nat)
    (entry : String × String) : LinkedMap String Nat :=
  match cmdToPort.get? entry.2 with
  | some port => domainToPort.put entry.1 port
  | none => domainToPort

-- The rules are a JSON object, whose keys are read in their order.
def start (jsonObj : LinkedMap String String) : ByeDpiRouter :=
  let domainToCmd := jsonObj.entries.foldl (fun map entry => map.put entry.1 entry.2) LinkedMap.empty
  let launches := (uniqueCmds jsonObj).foldl (launchCmd fold)
    { cmdToPort := LinkedMap.empty, currentPort := 11081, launched := [] }
  { domainToPort := domainToCmd.entries.foldl (putDomain launches.cmdToPort) LinkedMap.empty
    defaultPort := (launches.cmdToPort.entries.head?.map Prod.snd).getD 11081
    intents := launches.launched }

-- A rule is for its domain and for those below it.
def covers (targetDomain domain : String) : Bool :=
  equalsIgnoreCase fold targetDomain domain || endsWithIgnoreCase fold targetDomain ("." ++ domain)

-- The port that handleClient connects to.
def targetPort (router : ByeDpiRouter) (targetDomain : String) : Nat :=
  if targetDomain = "" then router.defaultPort
  else ((router.domainToPort.entries.find? fun entry => covers fold targetDomain entry.1).map Prod.snd).getD
    router.defaultPort

-- What listens on a port runs a command: an instance that has been started with it, or Tor.
def Runs (router : ByeDpiRouter) (port : Nat) (cmd : String) : Prop :=
  (∃ intent ∈ router.intents, intent.cmd = cmd ∧ intent.port = port) ∨ isTor fold cmd = true ∧ port = torPort

-- The commands that need an instance of their own.
def instanceCmds (rules : LinkedMap String String) : List String :=
  (uniqueCmds rules).filter fun cmd => !isTor fold cmd

-- The first rule for a domain; the first of all rules where there is no domain.
def firstRule (rules : LinkedMap String String) (domain : String) : Option (String × String) :=
  if domain = "" then rules.entries.head? else rules.entries.find? fun entry => covers fold domain entry.1

def SameCmd (cmd other : String) : Prop := cmd = other ∨ isTor fold cmd = true ∧ isTor fold other = true

end

end ByeDpiRouter

end ToInet.Byedpi
