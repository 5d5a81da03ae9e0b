import NetOrchestrator.Net.Ip
import NetOrchestrator.Lib.LastMax

/-!
# `Macos.WgEngine`: the userspace WireGuard data path

One thread moves packets between the tun device and the UDP sockets, through one state
machine a peer. The state machines are a third-party crate and stand here as `Boringtun`: the
functions that the engine calls, and the one thing it relies on to stop asking, that the
backlog of answers shrinks.

A step of the engine is one packet from the tun, one datagram from a socket or one timer
tick. Its effects are what it hands to a state machine, to a socket and to the tun, in the
order it does so.
-/

namespace NetOrchestrator.Macos

open Net Lib

abbrev Bytes := List UInt8

abbrev WgKey := BitVec 256

structure SocketAddr where
  ip : IpAddr
  port : Nat
  deriving DecidableEq

inductive TunnResult where
  | done
  | err
  | writeToNetwork (datagram : Bytes)
  | writeToTunnelV4 (packet : Bytes) (source : BitVec 32)
  | writeToTunnelV6 (packet : Bytes) (source : BitVec 128)
  deriving DecidableEq

/-- There is more to ask for after such an answer. -/
def TunnResult.goesOn : TunnResult → Bool
  | .done => false
  | .err => false
  | _ => true

/-- An incoming datagram, as far as the engine reads it. -/
inductive Packet where
  | handshakeInit (init : Bytes)
  | handshakeResponse (receiverIdx : Nat)
  | packetCookieReply (receiverIdx : Nat)
  | packetData (receiverIdx : Nat)
  deriving DecidableEq

structure PeerSetup where
  publicKey : WgKey
  presharedKey : Option WgKey
  endpoint : Option SocketAddr
  allowedIps : List IpNet
  keepalive : Option Nat
  deriving DecidableEq

/-- The third-party crate: packet parsing and the state machine of one peer. -/
structure Boringtun where
  Tunn : Type
  newTunn : PeerSetup → Nat → Option Tunn
  dstAddress : Bytes → Option IpAddr
  parseIncomingPacket : Bytes → Option Packet
  /-- The static key of an initiation's sender, read with the engine's own key. -/
  parseHandshakeAnon : Bytes → Option WgKey
  encapsulate : Tunn → Bytes → TunnResult × Tunn
  decapsulate : Tunn → IpAddr → Bytes → TunnResult × Tunn
  updateTimers : Tunn → TunnResult × Tunn
  /-- How many answers are left to fetch, at most. -/
  backlog : Tunn → Bytes → Nat
  drains : ∀ t ip input, (decapsulate t ip input).1.goesOn = true →
    backlog (decapsulate t ip input).2 [] < backlog t input

structure PeerState (bt : Boringtun) where
  tunn : bt.Tunn
  publicKey : WgKey
  endpoint : Option SocketAddr
  allowed : List IpNet

/-- `Runner`: the peers and which of the two sockets could be opened. -/
structure Runner (bt : Boringtun) where
  udp4 : Bool
  udp6 : Bool
  peers : List (PeerState bt)

/-- What the engine does. `handed` and `wrote` name the peer. -/
inductive Effect where
  | handed (peer : Nat) (packet : Bytes)
  | sent (dest : SocketAddr) (datagram : Bytes)
  | wrote (peer : Nat) (source : IpAddr) (packet : Bytes)
  deriving DecidableEq

section
variable {bt : Boringtun}

/-- `Engine::start`, up to the thread: one state machine a peer, or no engine. -/
def Runner.start (bt : Boringtun) (udp4 udp6 : Bool) (setups : List PeerSetup) :
    Option (Runner bt) :=
  if !udp4 && !udp6 then none
  else do
    let peers ← setups.zipIdx.mapM fun (setup, index) => do
      let tunn ← bt.newTunn setup index
      some
        { tunn
          publicKey := setup.publicKey
          endpoint := setup.endpoint
          allowed := setup.allowedIps }
    some { udp4, udp6, peers }

variable (r : Runner bt)

def Runner.socketFor (dest : SocketAddr) : Bool :=
  if dest.ip.isIpv4 then r.udp4 else r.udp6

/-- `send`: without a socket of the family the datagram is dropped. -/
def Runner.send (dest : SocketAddr) (datagram : Bytes) : List Effect :=
  if r.socketFor dest then [.sent dest datagram] else []

/-- The longest `AllowedIPs` entry of a peer that contains the address. -/
def PeerState.bestMatch (peer : PeerState bt) (ip : IpAddr) : Option Nat :=
  ((peer.allowed.filter fun net => net.containsAddr ip).map IpNet.len).max?

/-- `peer_for`. -/
def Runner.peerFor (dst : IpAddr) : Option Nat :=
  (lastMax Prod.snd
    (r.peers.zipIdx.filterMap fun (peer, index) =>
      (peer.bestMatch dst).map fun len => (index, len))).map Prod.fst

def Runner.setPeer (index : Nat) (peer : PeerState bt) : Runner bt :=
  { r with peers := r.peers.set index peer }

/-- What a state machine wants on the wire goes to the peer's endpoint, if it has one. -/
def Runner.sendTo (endpoint : Option SocketAddr) : TunnResult → List Effect
  | .writeToNetwork datagram =>
    match endpoint with
    | some endpoint => r.send endpoint datagram
    | none => []
  | _ => []

/-- `outgoing`. -/
def Runner.outgoing (packet : Bytes) : List Effect × Runner bt :=
  match bt.dstAddress packet with
  | none => ([], r)
  | some dst =>
    match r.peerFor dst with
    | none => ([], r)
    | some index =>
      match r.peers[index]? with
      | none => ([], r)
      | some peer =>
        let (result, tunn) := bt.encapsulate peer.tunn packet
        (.handed index packet :: r.sendTo peer.endpoint result,
          r.setPeer index { peer with tunn })

/-- `index_of`. -/
def Runner.indexOf (receiverIdx : Nat) : Option Nat :=
  let index := receiverIdx / 256
  if index < r.peers.length then some index else none

/-- `peer_for_datagram`. -/
def Runner.peerForDatagram (datagram : Bytes) : Option Nat :=
  match bt.parseIncomingPacket datagram with
  | none => none
  | some (.handshakeInit init) =>
    match bt.parseHandshakeAnon init with
    | none => none
    | some key => r.peers.findIdx? fun peer => peer.publicKey == key
  | some (.handshakeResponse idx) => r.indexOf idx
  | some (.packetCookieReply idx) => r.indexOf idx
  | some (.packetData idx) => r.indexOf idx

/-- A decrypted packet reaches the tun when its source is in the peer's own `AllowedIPs`. -/
def PeerState.deliver (peer : PeerState bt) (index : Nat) (source : IpAddr) (packet : Bytes) :
    List Effect :=
  if peer.allowed.any fun net => net.containsAddr source then [.wrote index source packet] else []

/-- One answer of the state machine. A reply goes to the endpoint the peer had. -/
def Runner.answer (index : Nat) (peer : PeerState bt) (sender : SocketAddr) :
    TunnResult → List Effect
  | .writeToNetwork reply => r.send (peer.endpoint.getD sender) reply
  | .writeToTunnelV4 packet source => peer.deliver index (.v4 source) packet
  | .writeToTunnelV6 packet source => peer.deliver index (.v6 source) packet
  | _ => []

/-- The answers to a datagram: again with an empty one until there is nothing left. -/
def answers (bt : Boringtun) (sender : IpAddr) : Nat → bt.Tunn → Bytes → List TunnResult × bt.Tunn
  | 0, tunn, _ => ([], tunn)
  | fuel + 1, tunn, input =>
    let (result, tunn) := bt.decapsulate tunn sender input
    if result.goesOn then
      let (rest, tunn) := answers bt sender fuel tunn []
      (result :: rest, tunn)
    else ([], tunn)

/-- The answers of a peer to a datagram. -/
def PeerState.answers (peer : PeerState bt) (sender : SocketAddr) (datagram : Bytes) :
    List TunnResult × bt.Tunn :=
  Macos.answers bt sender.ip (bt.backlog peer.tunn datagram + 1) peer.tunn datagram

/-- `incoming`. The endpoint moves only after all answers are out. -/
def Runner.incoming (sender : SocketAddr) (datagram : Bytes) : List Effect × Runner bt :=
  match r.peerForDatagram datagram with
  | none => ([], r)
  | some index =>
    match r.peers[index]? with
    | none => ([], r)
    | some peer =>
      let (results, tunn) := peer.answers sender datagram
      let endpoint := if results.isEmpty then peer.endpoint else some sender
      (results.flatMap (r.answer index peer sender),
        r.setPeer index { peer with tunn, endpoint })

/-- `tick`. -/
def Runner.tick : List Effect × Runner bt :=
  let ticked := r.peers.map fun peer => (peer, bt.updateTimers peer.tunn)
  (ticked.flatMap fun (peer, result, _) => r.sendTo peer.endpoint result,
    { r with peers := ticked.map fun (peer, _, tunn) => { peer with tunn } })

/-- What wakes the engine up. -/
inductive EngineInput where
  | tun (packet : Bytes)
  | datagram (sender : SocketAddr) (bytes : Bytes)
  | tick
  deriving DecidableEq

/-- One turn of `run`. A datagram comes in through the socket of its sender's family. -/
def Runner.step : EngineInput → List Effect × Runner bt
  | .tun packet => r.outgoing packet
  | .datagram sender bytes => if r.socketFor sender then r.incoming sender bytes else ([], r)
  | .tick => r.tick

/-- A turn of the engine: the state before it, its input and its effects. -/
structure Turn (bt : Boringtun) where
  runner : Runner bt
  input : EngineInput
  effects : List Effect

/-- `run`: the turns of the engine on these inputs. -/
def Runner.run (r : Runner bt) : List EngineInput → List (Turn bt)
  | [] => []
  | input :: rest =>
    let (effects, next) := r.step input
    { runner := r, input, effects } :: next.run rest

end

end NetOrchestrator.Macos
