import ToInet.Circumvention.BuiltInBridges
import ToInet.Circumvention.SnowflakeAmp
import ToInet.Util.OutboundProxy

-- Transport.getTorConfig: the lines of a transport in the configuration of Tor.
namespace ToInet.Circumvention.GetTorConfig

open ToInet.Lib ToInet.Util

-- What the lines are made of. A port of ByeDPI that is none is an exception.
structure Sources where
  proxy : ProxySettings
  byedpiEnabled : Bool
  byedpiUseAsUpstream : Bool
  byedpiPort : Option Int
  torIgnoreEmptyUrl : Bool
  bridgesList : List String
  builtIn : Option BuiltInBridges
  controllerPort : String → Int

def directive (keyword : String) (value : List Char) : List Char := keyword.toList ++ ' ' :: value

def localHost : List Char := "127.0.0.1".toList

def dnsttBridges : List String :=
  ["dnstt 192.0.3.1:80 F6B3CCA08E3C4026783FA14DBB14A3ADBCD0D27D udp=2.176.225.123:53 " ++
      "pubkey=488dd8eeab891e2df1b0fc0e5d8da28da23ea057a81934994d150105c2024048 domain=r.f14.1e-100.net",
    "dnstt 192.0.3.2:80 F6B3CCA08E3C4026783FA14DBB14A3ADBCD0D27D udp=185.129.168.241:53 " ++
      "pubkey=488dd8eeab891e2df1b0fc0e5d8da28da23ea057a81934994d150105c2024048 domain=r.f14.1e-100.net",
    "dnstt 192.0.2.3:80 F6B3CCA08E3C4026783FA14DBB14A3ADBCD0D27D udp=188.121.110.163:53 " ++
      "pubkey=488dd8eeab891e2df1b0fc0e5d8da28da23ea057a81934994d150105c2024048 domain=r.f14.1e-100.net",
    "dnstt 192.0.2.4:80 F6B3CCA08E3C4026783FA14DBB14A3ADBCD0D27D udp=195.114.8.10:53 " ++
      "pubkey=488dd8eeab891e2df1b0fc0e5d8da28da23ea057a81934994d150105c2024048 domain=r.f14.1e-100.net",
    "dnstt 192.0.2.5:80 F6B3CCA08E3C4026783FA14DBB14A3ADBCD0D27D doh=https://dns.google/dns-query " ++
      "pubkey=488dd8eeab891e2df1b0fc0e5d8da28da23ea057a81934994d150105c2024048 domain=r.f14.1e-100.net",
    "dnstt 192.0.2.6:80 A998F319ADB60EE344540EC4B21524CC484F96BE doh=https://dns.google/dns-query " ++
      "pubkey=241169008830694749fe96bb070c4855c5bb5b9c47b3833ed7d88521ba30a43f domain=t.ruhnama.net",
    "dnstt 192.0.3.7:80 80EEFA4F4875ED2B7B5A86DF2D7588AD32E29F15 doh=https://dns.google/dns-query " ++
      "pubkey=a2fb71077eeaa54a02cda7a90be306af5d299ab21822a8b277d4eacbc9168631 domain=t2.bypasscensorship.org"]

def hardcodedObfs4 : List String :=
  ["obfs4 84.22.108.82:9202 38D749F6FA80488329EDB1233B8FF8D229A1C57A " ++
      "cert=HX55aw36yJCnQu+1hSAg4pc7VhzE/6pgv9XlMf1AuCRPg8UlanGvfQiILqiGpLoXW4RiVA iat-mode=0",
    "obfs4 109.235.37.47:8443 CC3D4004181ACADE02AA19229777153F8C685684 " ++
      "cert=hbfGbCsbMFuZbTllS4H3JkOaXBpNNlA2Z32+hgy7JZum9DRAPAdZFZxIikof5qhu6SdyYw iat-mode=0",
    "obfs4 57.128.45.196:18384 E30D5552BEE79C5E8C61A943E9B3D2949F227C41 " ++
      "cert=boaTbcdp+rFHgUvweiAg60UUUpLZWecGl0uXRU358L/a7ZMrAnS/BodUKM3eyfWC+UVXTg iat-mode=0",
    "obfs4 51.89.228.250:21668 BA8BD67D8898CF378D4F73821DEB5657F4BB98DF " ++
      "cert=bEpLLgOwJ9fOJbeHb5r+ronUF2ck5nRd0Jl3zuy7rLoUp732QK2p/CUHjTAfBPCGfcVtSA iat-mode=0"]

def hardcodedWebtunnel : List String :=
  ["webtunnel [2001:db8:b1d5:4998:8150:f75b:988f:1f48]:443 216C8BB1C44FC2BFF7AF823B55AC38F113079B93 " ++
      "url=https://cdn-38.triplebit.dev/Bai8aXeiPhar5gai ver=0.0.2",
    "webtunnel [2001:db8:12ff:2d55:9130:36a7:c49b:d1f4]:443 933C998EC827D1C17CC93D1292BBC41735867CF8 " ++
      "url=https://x7t2qctb.xoomlia.com/qzxrtfmu/ ver=0.0.3",
    "webtunnel [2001:db8:9830:b7ec:bb37:f12:ec5f:aace]:443 67DFB4E30EF8CC5EFD87CC066D919D12DEDB5170 url= ver=0.0.4"]

section

variable (platform : UriPlatform) (s : Sources) (transport : Transport)

def hostPort (uri : Uri) : List Char :=
  uri.authority.host.getD "null".toList ++ ProxySettings.portPart uri.authority.port

-- The credentials, of which a password that is missing or empty is a space.
def credentials (userInfo : List Char) : List (List Char) :=
  match userInfo.splitOn ':' with
  | [] | [] :: _ => []
  | username :: rest =>
      let password := match rest with
        | [] | [] :: _ => [' ']
        | password :: _ => password
      [directive "Socks5ProxyUsername" username, directive "Socks5ProxyPassword" password]

def schemeLines (uri : Uri) : List (List Char) :=
  let userInfo := (uri.getUserInfo platform.decode).getD []
  if uri.scheme = some "https".toList then
    directive "HTTPSProxy" (hostPort uri) ::
      if isBlank userInfo then [] else [directive "HTTPSProxyAuthenticator" userInfo]
  else if uri.scheme = some "socks4".toList then [directive "Socks4Proxy" (hostPort uri)]
  else if uri.scheme = some "socks5".toList then directive "Socks5Proxy" (hostPort uri) :: credentials userInfo
  else []

def proxyLines : List (List Char) :=
  match (s.proxy.outboundProxy platform).1 with
  | some uri => schemeLines platform uri ++ [directive "NoProxy" localHost]
  | none => []

def upstreamLines : Option (List (List Char)) :=
  if s.byedpiEnabled ∧ s.byedpiUseAsUpstream then
    s.byedpiPort.map fun port =>
      [directive "Socks5Proxy" (localHost ++ ':' :: decimal port), directive "NoProxy" localHost]
  else some []

def pluginLines : List (List Char) :=
  ((transport.transportNames s.bridgesList).eraseDups.filter fun name => 0 < s.controllerPort name).map fun name =>
    directive "ClientTransportPlugin"
      (name.toList ++ ' ' :: ("socks5 ".toList ++ (localHost ++ ':' :: decimal (s.controllerPort name))))

def bridgeLine (raw : List Char) : List Char := directive "Bridge" raw

def builtInLines (list : BuiltInBridges → Option (List Bridge)) : List Bridge := (s.builtIn.bind list).getD []

-- A builder without a broker and fronts; none is an exception.
def sqsBridge (idx : Nat) (bridge : Bridge) : Option Bridge :=
  (Bridge.Builder.ofBridge bridge).map fun builder =>
    { builder with ip := SnowflakeAmp.ampIp idx, url := none, fronts := [] }.build

def sqsLines (idx : Nat) : List Bridge → Option (List (List Char))
  | [] => some []
  | bridge :: bridges => do
      let built ← sqsBridge idx bridge
      let lines ← sqsLines (idx + 1) bridges
      some (bridgeLine built.raw :: lines)

def hasEmptyUrl (line : List Char) : Bool := "url= ".toList <:+: line ∨ "url=".toList <:+ line

def bridgeLines : Option (List (List Char)) :=
  match transport with
  | .none | .byedpi => some []
  | .meek => some ((builtInLines s (·.meek)).map fun bridge => bridgeLine bridge.raw)
  | .obfs4 => some (hardcodedObfs4.map fun line => bridgeLine line.toList)
  | .snowflake => some ((builtInLines s (·.snowflake)).map fun bridge => bridgeLine bridge.raw)
  | .snowflakeAmp => SnowflakeAmp.getTorConfig 0 (builtInLines s (·.snowflake))
  | .snowflakeSqs => sqsLines 0 (builtInLines s (·.snowflake))
  | .webtunnel =>
      some ((hardcodedWebtunnel.filter fun line => !s.torIgnoreEmptyUrl || !hasEmptyUrl line.toList).map fun line =>
        bridgeLine line.toList)
  | .dnstt =>
      some ((builtInLines s (·.dnstt)).map (fun bridge => bridgeLine bridge.raw) ++
        dnsttBridges.map fun line => bridgeLine line.toList)
  | .custom => some (s.bridgesList.map fun line => bridgeLine line.toList)

-- none is an exception.
def getTorConfig : Option (List (List Char)) := do
  let upstream ← upstreamLines s
  let bridges ← bridgeLines s transport
  some (directive "UseBridges" [if transport = .none then '0' else '1'] ::
    (proxyLines platform s ++ upstream ++ pluginLines s transport ++ bridges))

end

end ToInet.Circumvention.GetTorConfig
