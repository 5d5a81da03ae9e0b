import NetOrchestrator.Macos.OpenVpn

/-!
# `Macos.Ipv6Warning`: the warning about IPv6 beside the tunnel

A primary tunnel that captures IPv4 and leaves IPv6 to the uplink says so in its status
(`Ipv6NotCovered`). WireGuard looks for default routes among the allowed addresses, OpenVPN for
halves among the routes that it has installed.
-/

namespace NetOrchestrator.Macos

open Net

/-- `covers`: a default route of the family. -/
def covers (networks : List IpNet) (v6 : Bool) : Bool :=
  networks.any fun net => net.len == 0 && (!net.isIpv4) == v6

/-- `all_allowed`. -/
def WgConfig.allAllowed (config : WgConfig) : List IpNet := config.peers.flatMap WgPeer.allowedIps

/-- Whether `connect_logged` adds `Ipv6NotCovered`. -/
def wgIpv6NotCovered (request : WgRequest) (config : WgConfig) : Bool :=
  request.role != .secondary && !config.tableOff && covers config.allAllowed false &&
    !covers config.allAllowed true

/-- `applied_nets`: the destinations of the routes into the tunnel. -/
def appliedNets (installed : List RouteOp) : List IpNet :=
  installed.filterMap fun op =>
    match op.target with
    | .interface _ => some op.destination
    | .gateway _ => none

/-- `v4_default` and `v6_default`. -/
def hasHalf (nets : List IpNet) (v4 : Bool) : Bool :=
  nets.any fun net => net.len == 1 && net.isIpv4 == v4

/-- Whether `apply_network` leaves `Ipv6NotCovered` in the status. -/
def ovpnIpv6NotCovered (role : TunnelRole) (applied : List IpNet) : Bool :=
  role != .secondary && hasHalf applied true && !hasHalf applied false

end NetOrchestrator.Macos
