import ToInet.Service.Running
import ToInet.Util.Snapshot

-- How PresetManager takes the services from one preset to the next, as the commands
-- that it sends them.
namespace ToInet.Util.PresetManager

open ToInet.Lib ToInet.Running

-- Context.sendIntentToService(ACTION_STOP)
def sendStop : List Command :=
  [.stop .byedpiProxy, .stop .byedpiVpn, .stop .orbot, .stop .tgws, .stop .rehabilitator,
    .stop .turnProxy, .stop .operaProxy]

def stopAll : List Command :=
  sendStop ++
    [.stop .tgws, .stopByedpi, .stop .turnProxy, .stop .operaProxy, .stop .rehabilitator]

variable (texts : FloatTexts) (prefs : SharedPreferences)

-- The preference that a service is started by.
def enabled : Service → Bool
  | .torService | .orbot => Prefs.torEnabled texts prefs
  | .tgws => Prefs.tgwsEnabled texts prefs
  | .byedpiProxy => Prefs.byedpiEnabled texts prefs
  | .byedpiVpn => Prefs.isGlobalVpnEnabled texts prefs
  | .turnProxy => Prefs.turnProxyEnabled texts prefs
  | .operaProxy => Prefs.operaProxyEnabled texts prefs
  | .rehabilitator => Prefs.rehabilitatorEnabled texts prefs

def started (enabled : Bool) (service : Service) : List Service := if enabled then [service] else []

-- The port and the mappings are parsed before TgwsService is sent an intent.
def tgwsPreferencesParse : Bool :=
  Prefs.isInt texts (prefs.lookup "tgws_port") && Prefs.tgwsDcMappingsParse texts prefs

-- The services that Context.sendIntentToService(ACTION_START) starts. Where the
-- preferences of TgwsService do not parse, the exception ends the call.
def sendStart : List Service :=
  started (Prefs.byedpiEnabled texts prefs) .byedpiProxy ++
    started (Prefs.isGlobalVpnEnabled texts prefs) .byedpiVpn ++
    started (Prefs.torEnabled texts prefs) .orbot ++
    if Prefs.tgwsEnabled texts prefs && !tgwsPreferencesParse texts prefs then []
    else
      started (Prefs.tgwsEnabled texts prefs) .tgws ++
        started (Prefs.rehabilitatorEnabled texts prefs) .rehabilitator ++
        started (Prefs.turnProxyEnabled texts prefs) .turnProxy ++
        started (Prefs.operaProxyEnabled texts prefs) .operaProxy

-- The services that startEnabled starts, in order.
def startEnabled : List Service :=
  started (Prefs.torEnabled texts prefs) .torService ++
    if Prefs.tgwsEnabled texts prefs && !tgwsPreferencesParse texts prefs then []
    else
      started (Prefs.tgwsEnabled texts prefs) .tgws ++
        started (Prefs.byedpiEnabled texts prefs) .byedpiProxy ++
        started (Prefs.turnProxyEnabled texts prefs) .turnProxy ++
        started (Prefs.operaProxyEnabled texts prefs) .operaProxy ++
        started (Prefs.rehabilitatorEnabled texts prefs) .rehabilitator ++
        if Prefs.vpnProvider texts prefs ≠ "none" ∨ Prefs.isGlobalVpnEnabled texts prefs then
          sendStart texts prefs
        else []

def restartAll : List Command := stopAll ++ (startEnabled texts prefs).map .start

variable (oldJson newJson : JSONObject)

def changed (keys : List String) : Bool := keys.any fun key => oldJson.opt key ≠ newJson.opt key

-- A service that was enabled is stopped when it is not any more, or a key of its changed.
def disabledOrChanged (enabledKey : String) (keys : List String) : Bool :=
  oldJson.optBoolean enabledKey && (!newJson.optBoolean enabledKey || changed oldJson newJson keys)

def stopsTor : Bool := disabledOrChanged oldJson newJson "tor_enabled" ["tor_bridges", "tor_transport"]

def stopsTgws : Bool :=
  disabledOrChanged oldJson newJson "tgws_enabled"
    ["tgws_host", "tgws_port", "tgws_secret", "tgws_faketls", "tgws_use_byedpi"]

def stopsByedpi : Bool :=
  disabledOrChanged oldJson newJson "byedpi_enabled" ["byedpi_port", "byedpi_args"]

def stopsTurnProxy : Bool :=
  disabledOrChanged oldJson newJson "turnproxy_enabled" ["turnproxy_port", "turnproxy_host"]

def stopsOperaProxy : Bool :=
  disabledOrChanged oldJson newJson "operaproxy_enabled"
    ["operaproxy_bind_address", "operaproxy_upstream", "operaproxy_use_byedpi"]

def stopsRehabilitator : Bool :=
  disabledOrChanged oldJson newJson "rehabilitator_enabled" ["rehabilitator_bind_address"]

def stopsVpn : Bool :=
  oldJson.optString texts "vpn_provider" ≠ newJson.optString texts "vpn_provider"

def stopped (stops : Bool) (commands : List Command) : List Command := if stops then commands else []

def stopDisabledOrChanged : List Command :=
  stopped (stopsTor oldJson newJson) [.stop .torService] ++
    stopped (stopsTgws oldJson newJson) [.stop .tgws] ++
    stopped (stopsByedpi oldJson newJson) [.stopByedpi] ++
    stopped (stopsTurnProxy oldJson newJson) [.stop .turnProxy] ++
    stopped (stopsOperaProxy oldJson newJson) [.stop .operaProxy] ++
    stopped (stopsRehabilitator oldJson newJson) [.stop .rehabilitator] ++
    stopped (stopsVpn texts oldJson newJson) sendStop

def smartSwitch : List Command :=
  stopDisabledOrChanged texts oldJson newJson ++ (startEnabled texts prefs).map .start

end ToInet.Util.PresetManager
