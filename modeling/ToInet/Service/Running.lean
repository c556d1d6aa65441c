import ToInet.Lib.Services
import ToInet.Util.Prefs

-- What the services make of the intents that are sent to them.
namespace ToInet.Running

open ToInet.Lib ToInet.Util

inductive Service where
  | torService
  | orbot
  | tgws
  | byedpiProxy
  | byedpiVpn
  | turnProxy
  | operaProxy
  | rehabilitator
deriving DecidableEq

inductive Mode where
  | proxy
  | vpn
deriving DecidableEq

-- A key that a start path reads, with the value in place of a missing one.
abbrev Setting := String × Option PrefValue

-- The configuration of a service is what its start path finds in the preferences.
abbrev Configuration := List Setting

def read (prefs : SharedPreferences) (settings : List Setting) : Configuration :=
  settings.map fun (key, default) => (key, (prefs.lookup key).or default)

def bool (key : String) (default : Bool) : Setting := (key, some (.boolean default))

def int (key : String) (default : Int32) : Setting := (key, some (.int default))

def str (key : String) (default : String) : Setting := (key, some (.string default))

-- A string without a default.
def nullable (key : String) : Setting := (key, none)

def openProxyOnAllInterfaces : Setting := bool "pref_open_proxy_on_all_interfaces" false

-- What the platform adds: how it writes numbers, and whether a start gets through.
structure Android where
  texts : FloatTexts
  startSucceeds : Service → SharedPreferences → Bool

variable (android : Android) (prefs : SharedPreferences)

def tgwsSettings : List Setting :=
  [openProxyOnAllInterfaces, int "tgws_port" 1480, str "tgws_dc_mappings" Prefs.defaultDcMappings,
    str "tgws_secret" "", str "tgws_fake_tls" "", bool "pref_tgws_use_byedpi" false]

def byeDpiCmdPreferences : List Setting := [str "byedpi_cmd_args" "", openProxyOnAllInterfaces]

-- hosts is read of the list that hostsMode names.
def hostsSettings : List Setting :=
  match prefs.lookup "byedpi_hosts_mode" with
  | some (.string "blacklist") => [nullable "byedpi_hosts_blacklist"]
  | some (.string "whitelist") => [nullable "byedpi_hosts_whitelist"]
  | _ => []

def byeDpiUIPreferences : List Setting :=
  [nullable "byedpi_proxy_ip", openProxyOnAllInterfaces, nullable "byedpi_proxy_port",
    nullable "byedpi_max_connections", nullable "byedpi_buffer_size", nullable "byedpi_default_ttl",
    bool "byedpi_no_domain" false, bool "byedpi_desync_http" true, bool "byedpi_desync_https" true,
    bool "byedpi_desync_udp" false, nullable "byedpi_desync_method", nullable "byedpi_split_position",
    bool "byedpi_split_at_host" false, nullable "byedpi_fake_ttl", nullable "byedpi_fake_sni",
    nullable "byedpi_oob_data", bool "byedpi_host_mixed_case" false,
    bool "byedpi_domain_mixed_case" false, bool "byedpi_host_remove_spaces" false,
    bool "byedpi_tlsrec_enabled" false, nullable "byedpi_tlsrec_position",
    bool "byedpi_tlsrec_at_sni" false, nullable "byedpi_hosts_mode",
    bool "byedpi_tcp_fast_open" false, nullable "byedpi_udp_fake_count",
    bool "byedpi_drop_sack" false, nullable "byedpi_fake_offset"] ++ hostsSettings prefs

-- ByeDpiProxyPreferences.fromSharedPreferences
def byeDpiSettings : List Setting :=
  bool "byedpi_enable_cmd_settings" true ::
    if prefs.lookup "byedpi_enable_cmd_settings" = some (.boolean false) then byeDpiUIPreferences prefs
    else byeDpiCmdPreferences

-- The addresses of startTun2Socks, by the provider.
def vpnProviderSettings : List Setting :=
  match Prefs.vpnProvider android.texts prefs with
  | "tor" | "rehab" | "fakevpn" => []
  | "tgws" => [int "tgws_port" 1480]
  | "turnproxy" => [int "pref_turn_proxy_local_port" 9000]
  | "operaproxy" => [str "operaproxy_bind_address" "127.0.0.1:1888", openProxyOnAllInterfaces]
  | "custom" => [str "custom_socks_ip" "127.0.0.1", int "custom_socks_port" 1080]
  | _ => byeDpiSettings prefs

def byedpiVpnSettings : List Setting :=
  let provider := Prefs.vpnProvider android.texts prefs
  str "pref_vpn_provider" "byedpi" :: vpnProviderSettings android prefs ++
    [str "dns_ip" "208.67.222.222"] ++
    (if provider = "fakevpn" ∨ provider = "byedpi" then [str "custom_vpn_dns" ""] else []) ++
    [bool "ipv6_enable" false, str "pref_vpn_excluded_apps" "",
      bool "pref_vpn_apps_initialized" false]

def turnProxySettings : List Setting :=
  bool "pref_turn_proxy_raw_mode" false ::
    (if Prefs.getPrefBoolean android.texts prefs "pref_turn_proxy_raw_mode" false then
      [str "pref_turn_proxy_raw_command" ""]
    else
      [str "pref_turn_proxy_server_addr" "", str "pref_turn_proxy_provider" "vk"] ++
        (if Prefs.getPrefString android.texts prefs "pref_turn_proxy_provider" "vk" = "vk" then
          [str "pref_turn_proxy_vk_link" "", str "pref_turn_proxy_browser" "firefox"] else []) ++
        [openProxyOnAllInterfaces, int "pref_turn_proxy_local_port" 9000,
          int "pref_turn_proxy_threads" 12, int "pref_turn_proxy_streams_per_cred" 6,
          bool "pref_turn_proxy_tcp_forward" false] ++
        (if Prefs.getPrefBoolean android.texts prefs "pref_turn_proxy_tcp_forward" false then
          [bool "pref_turn_proxy_bond" false] else []) ++
        [bool "pref_turn_proxy_use_udp" false, str "pref_turn_proxy_obf_key" ""] ++
        (if Prefs.getPrefString android.texts prefs "pref_turn_proxy_obf_key" "" ≠ "" then
          [str "pref_turn_proxy_obf_profile" "rtpopus"] else []) ++
        [bool "pref_turn_proxy_manual_captcha" false, str "pref_turn_proxy_dns_servers" "",
          str "pref_turn_proxy_dns_mode" "auto", str "pref_turn_proxy_magic_turn" "",
          str "pref_turn_proxy_client_id" ""]) ++
    [bool "pref_turn_proxy_use_byedpi" false]

def operaProxySettings : List Setting :=
  [str "operaproxy_bind_address" "127.0.0.1:1888", openProxyOnAllInterfaces,
    str "operaproxy_upstream" "", bool "opera_proxy_verbose" false,
    bool "opera_proxy_use_byedpi" false]

def rehabilitatorSettings : List Setting :=
  [str "rehabilitator_args" "--disorder 1", openProxyOnAllInterfaces,
    str "rehabilitator_upstream_host" "", int "rehabilitator_upstream_port" 1080,
    str "rehabilitator_username" "", str "rehabilitator_password" ""]

def isEmpty (key : String) : Bool :=
  (Prefs.trim (Prefs.getPrefString android.texts prefs key "").toList).isEmpty

-- Prefs.outboundProxy
def outboundProxySettings : List Setting :=
  bool "pref_proxy_enabled" false ::
    if !Prefs.getPrefBoolean android.texts prefs "pref_proxy_enabled" false then []
    else if isEmpty android prefs "pref_proxy_type" then [nullable "pref_proxy_type"]
    else if isEmpty android prefs "pref_proxy_host" then
      [nullable "pref_proxy_type", nullable "pref_proxy_host"]
    else
      [nullable "pref_proxy_type", nullable "pref_proxy_host", nullable "pref_proxy_username",
        nullable "pref_proxy_password", nullable "pref_proxy_port"]

-- Transport.getTorConfig
def transportSettings : List Setting :=
  outboundProxySettings android prefs ++ [bool "byedpi_enabled" false] ++
    (if Prefs.byedpiEnabled android.texts prefs then
      bool "byedpi_use_as_upstream" false ::
        if Prefs.getPrefBoolean android.texts prefs "byedpi_use_as_upstream" false then
          byeDpiSettings prefs
        else []
    else []) ++
    match Prefs.transport android.texts prefs with
    | "webtunnel" => [bool "pref_tor_ignore_empty_url" false]
    | "custom" => [nullable "pref_bridges_list"]
    | _ => []

-- TorConfig.build
def torSettings : List Setting :=
  [nullable "pref_socks", nullable "pref_http", bool "pref_isolate_dest" false,
    bool "pref_isolate_port" false, bool "pref_isolate_protocol" false,
    bool "pref_isolate_keep_alive" false, bool "pref_prefer_ipv6" true, bool "pref_disable_ipv4" false,
    openProxyOnAllInterfaces, bool "pref_connection_padding" false,
    bool "pref_reduced_connection_padding" true, bool "pref_circuit_padding" true,
    bool "pref_reduced_circuit_padding" true, nullable "pref_transport", nullable "pref_dnsport",
    bool "pref_enable_logging" false, str "pref_connection_pathway" "direct"] ++
    transportSettings android prefs ++
    [nullable "pref_entrance_nodes", nullable "pref_exit_nodes", nullable "pref_exclude_nodes",
      bool "pref_strict_nodes" false, bool "pref_reachable_addresses" false] ++
    (if Prefs.getPrefBoolean android.texts prefs "pref_reachable_addresses" false then
      [nullable "pref_reachable_addresses_ports"] else []) ++
    [bool "pref_host_onionservices" false, nullable "pref_custom_torrc"]

-- TorService is not part of the repository. An intent meets it with the configuration it
-- runs with, if it runs.
inductive TorAction where
  | start
  | stop

structure TorService where
  onStartCommand : TorAction → SharedPreferences → Option Configuration → Option Configuration
  stop_ends : ∀ prefs running, onStartCommand .stop prefs running = none
  start_ignored : ∀ prefs configuration,
    onStartCommand .start prefs (some configuration) = some configuration

variable (tor : TorService)

def configuration : Service → Configuration
  | .torService | .orbot => read prefs (torSettings android prefs)
  | .tgws => read prefs tgwsSettings
  | .byedpiProxy => read prefs (byeDpiSettings prefs)
  | .byedpiVpn => read prefs (byedpiVpnSettings android prefs)
  | .turnProxy => read prefs (turnProxySettings android prefs)
  | .operaProxy => read prefs operaProxySettings
  | .rehabilitator => read prefs rehabilitatorSettings

-- What runs after a start of a service that is not running.
def launched : Service → Option Configuration
  | .torService => tor.onStartCommand .start prefs none
  | service =>
      if android.startSucceeds service prefs then some (configuration android prefs service) else none

-- Whether a start of a running service launches it anew.
def restarts : Service → Bool
  | .tgws | .turnProxy | .operaProxy | .rehabilitator => true
  | .torService | .orbot | .byedpiProxy | .byedpiVpn => false

-- The mode of appStatus is that of the ByeDPI service that changed its status last.
structure State where
  running : Service → Option Configuration
  mode : Mode

def State.set (s : State) (service : Service) (running : Option Configuration) : State :=
  { s with running := Function.update s.running service running }

-- The mode that a change of status of a service leaves.
def Service.mode (service : Service) (previous : Mode) : Mode :=
  match service with
  | .byedpiProxy => .proxy
  | .byedpiVpn => .vpn
  | _ => previous

def onStart (s : State) (service : Service) : State :=
  match service with
  | .torService => s.set .torService (tor.onStartCommand .start prefs (s.running .torService))
  | .orbot =>
      -- already started, ignoring start request
      if (s.running .orbot).isSome then s
      else
        -- binding TorService creates it
        let bound := s.set .torService (tor.onStartCommand .start prefs (s.running .torService))
        bound.set .orbot (launched android prefs tor .orbot)
  | .byedpiProxy | .byedpiVpn =>
      if (s.running service).isSome then s
      else { s.set service (launched android prefs tor service) with mode := service.mode s.mode }
  | service => s.set service (launched android prefs tor service)

def onStop (s : State) (service : Service) : State :=
  match service with
  | .torService => s.set .torService (tor.onStartCommand .stop prefs (s.running .torService))
  | .orbot =>
      -- without a control connection there is nothing to shut down
      if (s.running .orbot).isSome then (s.set .torService none).set .orbot none else s
  | .byedpiProxy | .byedpiVpn => { s.set service none with mode := service.mode s.mode }
  | service => s.set service none

inductive Command where
  | start (service : Service)
  | stop (service : Service)
  | stopByedpi

-- ServiceManager.stop
def Mode.service : Mode → Service
  | .proxy => .byedpiProxy
  | .vpn => .byedpiVpn

def deliver (s : State) : Command → State
  | .start service => onStart android prefs tor s service
  | .stop service => onStop prefs tor s service
  | .stopByedpi => onStop prefs tor s s.mode.service

def deliverAll (commands : List Command) (s : State) : State :=
  commands.foldl (deliver android prefs tor) s

end ToInet.Running
