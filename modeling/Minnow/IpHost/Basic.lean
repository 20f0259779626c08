import Minnow.IcmpMessage
import Minnow.Ipv4Datagram
import Minnow.TcpConnection.Basic

set_option autoImplicit false

/-! # A host with one TCP connection

`ip_host.rs`: the connection behind IPv4. An operation returns the datagrams to send and the
events to report; the payload of every incoming segment is one of them, reported before the
connection has seen the segment.
-/

namespace Minnow

structure IpHostConfig where
  localIp : Ipv4AddrBytes
  peerIp : Ipv4AddrBytes
  localPort : UInt16
  peerPort : UInt16
  senderCapacity : Nat
  receiverCapacity : Nat
  isn : Wrap32
  senderConfig : TcpSenderConfig

def IpHostConfig.tcpDemo (localIp peerIp : Ipv4AddrBytes) (localPort peerPort : UInt16)
    (isn : Wrap32) : IpHostConfig where
  localIp := localIp
  peerIp := peerIp
  localPort := localPort
  peerPort := peerPort
  senderCapacity := 64 * 1024
  receiverCapacity := 64 * 1024
  isn := isn
  senderConfig :=
    { initialRtoMs := 1000
      maxTimerIntervalMs := 60000
      maxPayloadSize := 1000 }

inductive IpHostEvent where
  | incomingTcp (segment : TcpSegment)
  | outgoingTcp (segment : TcpSegment)
  | tcpPayload (payload : Bytes)
  | icmpEchoRequest (srcIp dstIp : Ipv4AddrBytes) (identifier sequenceNumber : UInt16)
      (payloadLen : Nat)
  | icmpEchoReply (srcIp dstIp : Ipv4AddrBytes) (identifier sequenceNumber : UInt16)
      (payloadLen : Nat)
  | ignoredMalformedIpv4 (error : String)
  | ignoredMalformedTcp (error : String)
  | ignoredMalformedIcmp (error : String)
  deriving DecidableEq, Repr

structure IpHostOutput where
  datagrams : List Ipv4Datagram
  events : List IpHostEvent
  deriving DecidableEq, Repr

namespace IpHostOutput

/-- `IpHostOutput::default()`. -/
def empty : IpHostOutput where
  datagrams := []
  events := []

def extend (output other : IpHostOutput) : IpHostOutput where
  datagrams := output.datagrams ++ other.datagrams
  events := output.events ++ other.events

end IpHostOutput

structure IpHost where
  config : IpHostConfig
  connection : TcpConnection

namespace IpHost

def new (config : IpHostConfig) : Exec IpHost := do
  let connection ← TcpConnection.new
    { localPort := config.localPort
      peerPort := config.peerPort
      senderCapacity := config.senderCapacity
      receiverCapacity := config.receiverCapacity
      isn := config.isn
      senderConfig := config.senderConfig }
  .ok { config := config, connection := connection }

/-- The loop of `wrap_tcp_segments`. -/
def wrapTcpSegments (host : IpHost) : List TcpSegment → Exec IpHostOutput
  | [] => .ok .empty
  | segment :: rest => do
      let tcpBytes ← segment.serializeIpv4 host.config.localIp host.config.peerIp
      let output ← host.wrapTcpSegments rest
      .ok
        { datagrams :=
            Ipv4Datagram.newTcp host.config.localIp host.config.peerIp tcpBytes :: output.datagrams
          events := .outgoingTcp segment :: output.events }

def connect (host : IpHost) : Exec (IpHost × IpHostOutput) := do
  let (connection, segments) ← host.connection.connect
  let output ← host.wrapTcpSegments segments
  .ok ({ host with connection := connection }, output)

/-- `write`; the number is how many bytes were accepted. -/
def write (host : IpHost) (data : Bytes) : Exec (IpHost × Nat × IpHostOutput) := do
  let (connection, accepted, segments) ← host.connection.write data
  let output ← host.wrapTcpSegments segments
  .ok ({ host with connection := connection }, accepted, output)

def close (host : IpHost) : Exec (IpHost × IpHostOutput) := do
  let (connection, segments) ← host.connection.close
  let output ← host.wrapTcpSegments segments
  .ok ({ host with connection := connection }, output)

def tick (host : IpHost) (elapsedMs : Nat) : Exec (IpHost × IpHostOutput) := do
  let (connection, segments) ← host.connection.tick elapsedMs
  let output ← host.wrapTcpSegments segments
  .ok ({ host with connection := connection }, output)

def receiveIcmp (srcIp dstIp : Ipv4AddrBytes) (payload : Bytes) : Exec IpHostOutput := do
  match ← IcmpMessage.parseBytes payload with
  | .error err => .ok { datagrams := [], events := [.ignoredMalformedIcmp err.debug] }
  | .ok message =>
      match message.echoReplyFromRequest with
      | none => .ok .empty
      | some reply => do
          let bytes ← reply.serialize
          .ok
            { datagrams := [Ipv4Datagram.newIcmp dstIp srcIp bytes]
              events :=
                [.icmpEchoRequest srcIp dstIp message.identifier message.sequenceNumber
                    message.payload.length,
                  .icmpEchoReply dstIp srcIp reply.identifier reply.sequenceNumber
                    reply.payload.length] }

def receiveTcp (host : IpHost) (srcIp dstIp : Ipv4AddrBytes) (payload : Bytes) :
    Exec (IpHost × IpHostOutput) := do
  match ← TcpSegment.parseIpv4Bytes srcIp dstIp payload with
  | .error err => .ok (host, { datagrams := [], events := [.ignoredMalformedTcp err.debug] })
  | .ok segment =>
      if segment.header.srcPort ≠ host.connection.peerPort ∨
          segment.header.dstPort ≠ host.connection.localPort then
        .ok (host, .empty)
      else do
        let events : List IpHostEvent := .incomingTcp segment ::
          if segment.payload.isEmpty then [] else [.tcpPayload segment.payload]
        let (connection, responses) ← host.connection.receiveSegment segment
        let output ← host.wrapTcpSegments responses
        .ok ({ host with connection := connection },
          IpHostOutput.extend { datagrams := [], events := events } output)

def receiveDatagram (host : IpHost) (datagram : Ipv4Datagram) : Exec (IpHost × IpHostOutput) :=
  let srcIp := datagram.header.src
  let dstIp := datagram.header.dst
  if dstIp ≠ host.config.localIp then .ok (host, .empty)
  else if datagram.header.protocol = IPV4_PROTOCOL_ICMP then do
    let output ← receiveIcmp srcIp dstIp datagram.payload
    .ok (host, output)
  else if datagram.header.protocol = IPV4_PROTOCOL_TCP ∧ srcIp = host.config.peerIp then
    host.receiveTcp srcIp dstIp datagram.payload
  else .ok (host, .empty)

def receiveIpv4Bytes (host : IpHost) (packet : Bytes) : Exec (IpHost × IpHostOutput) := do
  match ← Ipv4Datagram.parseBytes packet with
  | .ok datagram => host.receiveDatagram datagram
  | .error err => .ok (host, { datagrams := [], events := [.ignoredMalformedIpv4 err.debug] })

end IpHost

end Minnow
