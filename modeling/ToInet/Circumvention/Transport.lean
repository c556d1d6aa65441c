import ToInet.Util.Prefs

-- The pluggable transports and what starting and stopping them does to the controller.
namespace ToInet.Circumvention

open ToInet.Util

inductive Transport where
  | none
  | meek
  | obfs4
  | snowflake
  | snowflakeAmp
  | snowflakeSqs
  | webtunnel
  | dnstt
  | byedpi
  | custom
deriving DecidableEq

def isBlank (chars : List Char) : Bool := chars.all Prefs.isWhitespace

-- Prefs.bridgesList, from the string that is stored.
def bridgesList (stored : String) : List String :=
  ((stored.toList.splitOn '\n').filter fun line => !isBlank line).map fun line =>
    String.ofList (Prefs.trim line)

-- What setting Prefs.bridgesList stores.
def storedBridges (value : List String) : String :=
  "\n".intercalate ((value.filter fun line => !isBlank line.toList).map fun line =>
    String.ofList (Prefs.trim line.toList))

-- Bridge.transport: a line of fewer than three pieces has none.
def bridgeTransport (raw : String) : Option String :=
  match raw.toList.splitOn ' ' with
  | name :: _ :: _ :: _ => if name.isEmpty then Option.none else some (String.ofList name)
  | _ => Option.none

-- IPtProxy.MeekLite, which the tunnel of AutoConf uses as well.
def meekLite : String := "meek_lite"

namespace Transport

-- The names are the constants of IPtProxy.
def transportNames (bridges : List String) : Transport → List String
  | none | byedpi => []
  | meek => [meekLite]
  | obfs4 => ["obfs4"]
  | webtunnel => ["webtunnel"]
  | dnstt => ["dnstt"]
  | custom => (bridges.filterMap bridgeTransport).filter fun name => !isBlank name.toList
  | snowflake | snowflakeAmp | snowflakeSqs => ["snowflake"]

-- What runs in the controller after start, and whether start returned. It can throw in
-- front of any name, and it always does for Snowflake with SQS.
def start (bridges : List String) (transport : Transport) (failsAt : Option Nat)
    (started : List String) : List String × Bool :=
  if transport = snowflakeSqs then (started, false)
  else
    let names := transport.transportNames bridges
    match failsAt with
    | Option.none => (started ++ names, true)
    | some count => (started ++ names.take count, false)

def stop (bridges : List String) (transport : Transport) (started : List String) : List String :=
  started.filter fun name => name ∉ transport.transportNames bridges

theorem start_subset {bridges : List String} {transport : Transport} (failsAt : Option Nat)
    {started : List String} (h : started ⊆ transport.transportNames bridges) :
    (start bridges transport failsAt started).1 ⊆ transport.transportNames bridges := by
  unfold start
  split
  · exact h
  · cases failsAt with
    | none => exact List.append_subset.mpr ⟨h, List.Subset.refl _⟩
    | some count => exact List.append_subset.mpr ⟨h, List.take_subset _ _⟩

theorem stop_subset {bridges : List String} {transport : Transport} {started : List String} :
    stop bridges transport started ⊆ started :=
  List.filter_subset_self _

theorem stop_eq_nil {bridges : List String} {transport : Transport} {started : List String}
    (h : started ⊆ transport.transportNames bridges) : stop bridges transport started = [] := by
  rw [stop, List.filter_eq_nil_iff]
  intro name hname
  simpa using h hname

end Transport

end ToInet.Circumvention
