import PortManager.Native.Isolation
import PortManager.Native.DnsTerminator
import PortManager.Native.RouteContents
import PortManager.Native.RouteRace
import PortManager.Node.RouteAdoption
import PortManager.Node.RouteCleanup
import PortManager.Node.RejectedCalls
import PortManager.Node.ProcessEnvironment
import PortManager.Node.BrowserDnsSync
import PortManager.Networks.TerminalAttachments
import PortManager.Networks.ComposeAttachments
import PortManager.Networks.NetworkRows
import PortManager.Networks.GuardedRoutePolicy
import PortManager.Networks.ProcessLabels
import PortManager.Browser.HeaderRewrite
import PortManager.Browser.HttpAdmission
import PortManager.Browser.DnsSyncCoordinator
import PortManager.Browser.ConnectionSniffing
import PortManager.Ports.LogicalPortRouter
import PortManager.Ports.ConnectionProcess
import PortManager.NetworkKeys
import PortManager.InjectedCommand
import PortManager.DnsResponders
import PortManager.Shell.ProfileAppends
import PortManager.Hook.NetworkEnv
import PortManager.Hook.ChildEnvironment
import PortManager.Hook.InterfaceList
import PortManager.Hook.FileSubstitution
import PortManager.Hook.RespawnCommand
import PortManager.Hook.WaitCalls
import PortManager.Extension.StartIntent
import PortManager.Extension.StartupLock
import PortManager.Broker.SharedFlags
import PortManager.DockerShim.ComposeRoutes
import PortManager.DockerShim.ComposeArgs
import PortManager.DockerShim.ContainerTarget
import PortManager.Shared.TcpProxy
