import ToInet.Circumvention.BuiltInBridges

-- AutoConf: what the Moat services advertise, and the transport and the bridges that are made of it.
namespace ToInet.Circumvention

namespace MoatApi

structure Bridge where
  type : String
  source : String
  bridges : Option (List String)

def SOURCE_BUILTIN : String := "builtin"

structure Setting where
  bridge : Bridge

structure MoatError where
  id : Option String
  type : Option String
  version : Option String
  code : Option Int
  status : Option String
  detail : Option String

structure SettingsResponse where
  settings : Option (List Setting)
  country : Option String
  errors : Option (List MoatError)

structure SettingsRequest where
  country : Option String
  transports : List String := ["obfs4", "snowflake", "webtunnel", "dnstt"]

end MoatApi

inductive MoatTunnel where
  | torProject
  | guardianProject
deriving DecidableEq

def MoatTunnel.methodName : MoatTunnel → String
  | torProject => meekLite
  | guardianProject => "dnstt"

namespace AutoConf

open MoatApi BuiltInBridges

-- The variables of extract, with the lists that it updates.
structure Extraction where
  transport : Option Transport
  customBridges : List String
  builtIn : Companion

namespace Extraction

variable (e : Extraction)

-- if (transport == null) transport = …
def choose (transport : Transport) : Extraction := { e with transport := e.transport.or (some transport) }

def addAll (bridges : Option (List String)) : Extraction :=
  { e with customBridges := e.customBridges ++ bridges.getD [] }

def update (bridges : Option (List String)) (change : List Bridge → BuiltInBridges → BuiltInBridges) : Extraction :=
  if isNullOrEmpty bridges then e
  else { e with builtIn := e.builtIn.assign (change ((bridges.getD []).map fun line => { raw := line.toList })) }

-- One pass of the loop.
def pass (setting : Setting) : Extraction :=
  let type := setting.bridge.type
  let builtin := setting.bridge.source = SOURCE_BUILTIN
  let bridges := setting.bridge.bridges
  if type = "snowflake" then
    (e.update bridges fun list built => { built with snowflake := some list }).choose .snowflake
  else if type = "obfs4" then
    if builtin then (e.update bridges fun list built => { built with obfs4 := some list }).choose .obfs4
    else if isNullOrEmpty bridges then e
    else (e.addAll bridges).choose .custom
  else if type = "webtunnel" then
    if builtin then (e.update bridges fun list built => { built with webtunnel := some list }).choose .webtunnel
    else if isNullOrEmpty bridges then e
    else (e.addAll bridges).choose .custom
  else if type = "dnstt" then
    if builtin then
      ((e.update bridges fun list built => { built with dnstt := some list }).addAll bridges).choose .custom
    else if isNullOrEmpty bridges then e
    else (e.addAll bridges).choose .custom
  else e

end Extraction

def extract (builtIn : Companion) (settings : Option (List Setting)) :
    Option (Transport × List String) × Companion :=
  let e := (settings.getD []).foldl Extraction.pass { transport := none, customBridges := [], builtIn }
  (e.transport.map fun transport => (transport, e.customBridges), e.builtIn)

inductive Throwable where
  | moatError (error : MoatError)
  | other (message : String)

-- What the calls that do makes come to, with the time, and the time of the update file. A store that
-- throws leaves something in that file.
structure Calls where
  start : MoatTunnel → Except Throwable Unit
  getInstance : MoatTunnel → Except Throwable Unit
  builtin : Except Throwable BuiltInBridges
  store : Except (Throwable × Option BuiltInBridges) Unit
  settings : MoatTunnel → SettingsRequest → Except Throwable SettingsResponse
  defaults : SettingsRequest → Except Throwable SettingsResponse
  lowercase : String → String
  now : Int
  lastModified : Int

-- What runs in the controller, the tunnels that have been started, and the authenticator, which
-- goes by its tunnel.
structure State where
  started : List String
  opened : List MoatTunnel
  authenticator : Option MoatTunnel
  builtIn : Companion

abbrev Action := EStateM Throwable State

def setDefault (authenticator : Option MoatTunnel) : Action Unit := modify fun s => { s with authenticator }

def stopTunnel (tunnel : MoatTunnel) : Action Unit :=
  modify fun s => { s with started := s.started.filter (· ≠ tunnel.methodName) }

-- done, behind which conf is returned.
def done : Action Unit := do
  stopTunnel .torProject
  setDefault none

def extracted (settings : Option (List Setting)) : Action (Option (Transport × List String)) :=
  modifyGet fun s => ((extract s.builtIn settings).1, { s with builtIn := (extract s.builtIn settings).2 })

section

variable (calls : Calls) (country : Option String)

def startTunnel (tunnel : MoatTunnel) : Action Unit := do
  MonadExcept.ofExcept (calls.start tunnel)
  modify fun s => { s with started := s.started ++ [tunnel.methodName], opened := s.opened ++ [tunnel] }

def storeBuiltIn (bridges : BuiltInBridges) : Action Unit :=
  match calls.store with
  | .ok _ => modify fun s => { s with builtIn := s.builtIn.store bridges }
  | .error (exception, left) => do
      modify fun s => { s with builtIn := { s.builtIn with updated := left } }
      throw exception

-- The bridges that are stored before anything is asked for.
def newBuiltIns : Option BuiltInBridges :=
  if isOutdated calls.now calls.lastModified then
    match calls.builtin with
    | .ok bridges => if bridges.empty then none else some bridges
    | .error _ => none
  else none

def updateBuiltIns : Action Unit :=
  match newBuiltIns calls with
  | none => pure ()
  | some bridges => do
      storeBuiltIn calls bridges
      modify fun s => { s with builtIn := s.builtIn.invalidate.getInstance }

def answer (tunnel : MoatTunnel) : Except Throwable SettingsResponse :=
  calls.settings tunnel { country := country.map calls.lowercase }

-- country.isNullOrEmpty()
def noCountry : Bool := country.all String.isEmpty

-- What the second service answers, if it is asked.
def response2 : Option SettingsResponse :=
  if noCountry country then none else (answer calls country .guardianProject).toOption

def askGuardianProject : Action Unit :=
  if noCountry country then pure ()
  else do
    startTunnel calls .guardianProject
    setDefault (some .guardianProject)
    MonadExcept.ofExcept (calls.getInstance .guardianProject)
    stopTunnel .guardianProject
    setDefault (some .torProject)

def response : Option SettingsResponse := (answer calls country .torProject).toOption

def firstError : Option MoatError := (response calls country).bind fun response => response.errors.bind List.head?

def needsTransport (error : MoatError) : Bool := error.code = some 404 ∨ error.code = some 406

def lastException : Option Throwable :=
  match answer calls country .torProject with
  | .error exception => some exception
  | .ok _ => ((firstError calls country).filter fun error => !needsTransport error).map .moatError

-- The settings of the two answers.
def settings : List Setting := ((response calls country).bind (·.settings)).getD []

def settings2 : List Setting := ((response2 calls country).bind (·.settings)).getD []

-- No service advertises anything, and nothing says that a transport is needed.
def safe (cannotConnectWithoutPt : Bool) : Bool :=
  (settings calls country).isEmpty && (settings2 calls country).isEmpty &&
    !(cannotConnectWithoutPt || (firstError calls country).any needsTransport)

def useDefaults : Action (Option (Transport × List String)) :=
  match calls.defaults { country := none } with
  | .error exception => do
      done
      throw exception
  | .ok response => do
      let conf ← extracted response.settings
      done
      return conf

def useSettings : Action (Option (Transport × List String)) := do
  let conf ← extracted ((response calls country).bind (·.settings))
  let conf2 ← extracted ((response2 calls country).bind (·.settings))
  let customBridges := (conf.map Prod.snd).getD [] ++ (conf2.map Prod.snd).getD []
  match (conf2.map Prod.fst).or (conf.map Prod.fst) with
  | some transport => do
      done
      return some (transport, customBridges)
  | none => useDefaults calls

def useNone : Action (Option (Transport × List String)) := do
  done
  match lastException calls country with
  | some exception => throw exception
  | none => return some (.none, [])

def do' (cannotConnectWithoutPt : Bool) : Action (Option (Transport × List String)) := do
  startTunnel calls .torProject
  setDefault (some .torProject)
  MonadExcept.ofExcept (calls.getInstance .torProject)
  updateBuiltIns calls
  askGuardianProject calls country
  if safe calls country cannotConnectWithoutPt then useNone calls country
  else useSettings calls country

end

end AutoConf

end ToInet.Circumvention
