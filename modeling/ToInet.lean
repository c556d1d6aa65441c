import ToInet.Lib.Bytes
import ToInet.Lib.MachineInt
import ToInet.Lib.Stream
import ToInet.Lib.Ctr
import ToInet.Lib.Framing
import ToInet.Lib.Decoder
import ToInet.Lib.WebSocket
import ToInet.Lib.Transition
import ToInet.Lib.Store
import ToInet.Lib.Services
import ToInet.Lib.Getopt
import ToInet.Lib.LinkedMap
import ToInet.Lib.Strtol
import ToInet.Lib.KeyedList
import ToInet.Lib.Socks5
import ToInet.Lib.Charset
import ToInet.Lib.FileTree
import ToInet.Lib.Lines
import ToInet.Lib.Hex
import ToInet.Lib.IpLiteral
import ToInet.Lib.Http
import ToInet.Lib.Regex
import ToInet.Lib.Split
import ToInet.Lib.Exceptions
import ToInet.Lib.Uri
import ToInet.Lib.AvlTree
import ToInet.Lib.Machine
import ToInet.Lib.TlsRecords
import ToInet.Lib.TlsExtensions
import ToInet.Lib.SparseSet
import ToInet.Lib.Outcome
import ToInet.FakeVpn.SniSpoofer
import ToInet.FakeVpn.ClientHello
import ToInet.FakeVpn.SniSpoofer.Theorems
import ToInet.FakeVpn.SniSpoofer.Prefix
import ToInet.FakeVpn.DirectSocks5Connection
import ToInet.FakeVpn.DirectSocks5Connection.Handle
import ToInet.FakeVpn.SniSpoofer.Extracted
import ToInet.FakeVpn.SniSpoofer.Frame
import ToInet.FakeVpn.SniSpoofer.Marks
import ToInet.Tgws.MsgSplitter
import ToInet.Tgws.MsgSplitter.Theorems
import ToInet.Tgws.MsgSplitter.Packets
import ToInet.Tgws.WsFrame
import ToInet.Tgws.WsFrame.Reading
import ToInet.Tgws.WsFrame.Sending
import ToInet.Tgws.BridgeWs
import ToInet.Tgws.BridgeWs.Theorems
import ToInet.Tgws.TgwsCore
import ToInet.Tgws.TgwsCore.FakeTls
import ToInet.Tgws.TgwsCore.Relay
import ToInet.Tgws.TgwsCore.Relay.Theorems
import ToInet.Tgws.TgwsCore.Socks5
import ToInet.Tgws.TgwsCore.SecretBytes
import ToInet.Tgws.TgwsService
import ToInet.Tgws.TgwsService.Mappings
import ToInet.Tgws.WsFrame.Boundaries
import ToInet.Tgws.TgwsCore.Mapped
import ToInet.Util.Json
import ToInet.Util.Snapshot
import ToInet.Util.Snapshot.Theorems
import ToInet.Util.Prefs
import ToInet.Util.PresetSwitch
import ToInet.Util.PresetSwitch.Theorems
import ToInet.Util.NetworkSwitchListener
import ToInet.Util.Prefs.Theorems
import ToInet.Util.OutboundProxy
import ToInet.Service.Running
import ToInet.Service.OnionServiceColumns
import ToInet.Service.OnionServiceColumns.Theorems
import ToInet.Service.ServerSocket
import ToInet.Service.ServerSocket.Theorems
import ToInet.Service.OrbotRawEventListener
import ToInet.Service.OrbotRawEventListener.Circuits
import ToInet.Service.TorConfig
import ToInet.Service.TorConfig.Ports
import ToInet.Operaproxy.SocksToHttpProxy
import ToInet.Operaproxy.SocksToHttpProxy.Request
import ToInet.Circumvention.Transport
import ToInet.Circumvention.SmartConnect
import ToInet.Circumvention.SmartConnect.Guard
import ToInet.Circumvention.SmartConnect.Started
import ToInet.Circumvention.Bridge
import ToInet.Circumvention.Bridge.Build
import ToInet.Circumvention.Bridge.Pieces
import ToInet.Circumvention.Bridge.Rebuilt
import ToInet.Circumvention.CustomBridgeBottomSheet
import ToInet.Circumvention.CustomBridgeBottomSheet.Parsed
import ToInet.Circumvention.CustomBridgeBottomSheet.Stored
import ToInet.Circumvention.SnowflakeAmp
import ToInet.Circumvention.AutoConf
import ToInet.Circumvention.AutoConf.Closed
import ToInet.Circumvention.AutoConf.Custom
import ToInet.Circumvention.AutoConf.Extract
import ToInet.Circumvention.BuiltInBridges
import ToInet.Circumvention.GetTorConfig
import ToInet.Circumvention.GetTorConfig.Socks5
import ToInet.Circumvention.SmartConnect.Ranks
import ToInet.Circumvention.Transport.BridgesList
import ToInet.Byedpi.ByeDpiInstanceService
import ToInet.Byedpi.ByeDpiInstanceService.Theorems
import ToInet.Byedpi.ByeDpiProxyPreferences
import ToInet.Byedpi.ByeDpiProxyPreferences.Port
import ToInet.Byedpi.ByeDpiProxyPreferences.ToCmdArgs
import ToInet.Byedpi.ByeDpiProxyService
import ToInet.Byedpi.ByeDpiProxyService.Theorems
import ToInet.Byedpi.ByeDpiRouter
import ToInet.Byedpi.ByeDpiRouter.Theorems
import ToInet.Byedpi.OptionLoop
import ToInet.Byedpi.OptionLoop.Theorems
import ToInet.Byedpi.NativeLib
import ToInet.Byedpi.Packets
import ToInet.Byedpi.SuggestCombinations
import ToInet.Byedpi.TestActivity
import ToInet.Byedpi.TestActivity.Theorems
import ToInet.Byedpi.ByeDpiProxyService.Steps
import ToInet.Byedpi.ByeDpiProxyPreferences.ToCmdArgs.Options
import ToInet.Byedpi.ByeDpiProxyPreferences.ToCmdArgs.Theorems
import ToInet.Byedpi.DomainListUtils
import ToInet.Byedpi.DomainListUtils.Syncing
import ToInet.Byedpi.DomainListUtils.Theorems
import ToInet.Byedpi.ByeDpiVpnService
import ToInet.Byedpi.ByeDpiVpnService.Theorems
import ToInet.Byedpi.ByeDpiRouter.ExtractDomain
import ToInet.Byedpi.ByeDpiRouter.ExtractDomain.Http
import ToInet.Byedpi.ByeDpiRouter.ExtractDomain.Prefix
import ToInet.Byedpi.ByeDpiRouter.HandleClient
import ToInet.Byedpi.ByeDpiRouter.HandleClient.Theorems
import ToInet.Byedpi.ByeDpiRouter.Lifecycle
import ToInet.Byedpi.ByeDpiRouter.Order
import ToInet.Byedpi.SuggestCombinations.Covered
import ToInet.Byedpi.ByeDpiProxyPreferences.ShellSplit
import ToInet.Byedpi.ByeDpiProxyPreferences.ShellSplit.Complete
import ToInet.Byedpi.ByeDpiProxyPreferences.AllInterfaces
import ToInet.Byedpi.HistoryUtils
import ToInet.Byedpi.HistoryUtils.Cap
import ToInet.Byedpi.HistoryUtils.Texts
import ToInet.Byedpi.Kavl
import ToInet.Byedpi.Mpool
import ToInet.Byedpi.Extend.ModeAddGet
import ToInet.Byedpi.Packets.PartTls
import ToInet.Byedpi.Packets.Parse
import ToInet.Byedpi.Packets.ModHttp
import ToInet.Byedpi.Conev
import ToInet.Byedpi.Desync
import ToInet.Byedpi.Desync.Resume
import ToInet.Byedpi.Extend.CheckHost
import ToInet.Byedpi.Packets.ChangeSni
import ToInet.Byedpi.Packets.IsHttpRedirect
import ToInet.Byedpi.Packets.NeqTlsSid
import ToInet.Byedpi.OptionLoop.FakeTls
import ToInet.Byedpi.Extend.Groups
import ToInet.Byedpi.Proxy.Socks
import ToInet.Byedpi.Proxy
import ToInet.Byedpi.Proxy.Links
import ToInet.Byedpi.Proxy.Steps
import ToInet.Byedpi.Proxy.Handlers
import ToInet.Byedpi.Proxy.Theorems
import ToInet.Byedpi.Proxy.Failures
import ToInet.Byedpi.Proxy.Relay
import ToInet.Rehabilitator.MainProcess
import ToInet.Rehabilitator.MainProcess.Theorems
import ToInet.Rehabilitator.RehabilitatorService
import ToInet.Rehabilitator.RehabilitatorService.Theorems
import ToInet.Rehabilitator.RehabilitatorService.Steps
import ToInet.Rehabilitator.RehabilitatorService.Standing
import ToInet.Rehabilitator.Socks5Connection
import ToInet.Rehabilitator.Socks5Connection.Theorems
import ToInet.Rehabilitator.Socks5Connection.Reading
import ToInet.Rehabilitator.Socks5Connection.Upstream
import ToInet.V3onionservice.V3BackupUtils
import ToInet.V3onionservice.V3BackupUtils.Theorems
import ToInet.V3onionservice.OnionServices
import ToInet.V3onionservice.OnionServices.Distinct
import ToInet.V3onionservice.OnionServices.Theorems
import ToInet.V3onionservice.Restored
import ToInet.V3onionservice.Backup
import ToInet.V3onionservice.ClientAuth
import ToInet.V3onionservice.ClientAuth.Theorems
import ToInet.V3onionservice.ZipUtilities
import ToInet.V3onionservice.ZipUtilities.Theorems
import ToInet.V3onionservice.ZipUtilities.Refinement
