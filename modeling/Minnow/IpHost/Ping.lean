import Minnow.Codec.Icmp
import Minnow.IpHost.Dispatch

set_option autoImplicit false

/-! # Echo requests and their answers

A host answers an ICMP echo request that is addressed to it, whatever its connection is doing,
and sends ICMP for no other reason. The answer is no request, so it ends there: two hosts cannot
keep each other busy.

* `receiveIpv4Bytes_of_request`: a request is answered by one datagram.
* `request_of_icmp`: only a request is.
* `receiveDatagram_of_reply`: the answer is not answered, nor reported.
-/

namespace Minnow

namespace IpHost

/-- The bytes are an echo request for the host: `datagram` is what the IPv4 parser makes of them,
and `request` what the ICMP parser makes of its payload. -/
structure EchoRequest (host : IpHost) (packet : Bytes) (datagram : Ipv4Datagram)
    (request : IcmpMessage) : Prop where
  ipv4 : Ipv4Datagram.parseBytes packet = .ok (.ok datagram)
  dst : datagram.header.dst = host.config.localIp
  protocol : datagram.header.protocol = IPV4_PROTOCOL_ICMP
  icmp : IcmpMessage.parseBytes datagram.payload = .ok (.ok request)
  icmpType : request.icmpType = ICMP_ECHO_REQUEST
  code : request.code = 0

/-- The answer to a request, as a message. -/
def replyTo (request : IcmpMessage) : IcmpMessage where
  icmpType := ICMP_ECHO_REPLY
  code := 0
  identifier := request.identifier
  sequenceNumber := request.sequenceNumber
  payload := request.payload

variable {host host1 : IpHost} {packet bytes : Bytes} {datagram : Ipv4Datagram}
  {request : IcmpMessage} {output : IpHostOutput} {segments : List TcpSegment}

/-! ## A request is answered -/

/-- What a request carries fits in a datagram, and the answer carries no more. -/
theorem EchoRequest.serialized (h : EchoRequest host packet datagram request) :
    ∃ bytes, (replyTo request).serialize = .ok bytes ∧ bytes.length ≤ 65515 := by
  obtain ⟨result, hparsed, hlength⟩ := Ipv4Datagram.parseBytes_total packet
  obtain rfl := Except.ok.inj (h.ipv4.symm.trans hparsed)
  have hdatagram := hlength datagram rfl
  unfold IPV4_HEADER_MIN_LEN at hdatagram
  have hsum : wordSum datagram.payload < 2 ^ 32 := wordSum_lt_of_length (by omega)
  obtain ⟨result, hparsed, hlength⟩ := IcmpMessage.parseBytes_total hsum
  obtain rfl := Except.ok.inj (h.icmp.symm.trans hparsed)
  have hrequest := hlength request rfl
  have hfits : (replyTo request).payload.length + ICMP_ECHO_HEADER_LEN ≤ 131070 := by
    show request.payload.length + ICMP_ECHO_HEADER_LEN ≤ 131070
    omega
  obtain ⟨bytes, hbytes⟩ := IcmpMessage.serialize_total hfits
  refine ⟨bytes, hbytes, ?_⟩
  rw [IcmpMessage.length_serialize hbytes]
  show ICMP_ECHO_HEADER_LEN + request.payload.length ≤ 65515
  omega

theorem receiveIcmp_of_request (srcIp dstIp : Ipv4AddrBytes)
    (hparsed : IcmpMessage.parseBytes packet = .ok (.ok request))
    (htype : request.icmpType = ICMP_ECHO_REQUEST) (hcode : request.code = 0)
    (hbytes : (replyTo request).serialize = .ok bytes) :
    ∃ events, receiveIcmp srcIp dstIp packet
      = .ok { datagrams := [Ipv4Datagram.newIcmp dstIp srcIp bytes], events := events } := by
  have hreply : request.echoReplyFromRequest = some (replyTo request) :=
    IcmpMessage.echoReplyFromRequest_eq_some.mpr ⟨htype, hcode, rfl⟩
  unfold receiveIcmp
  rw [hparsed, Exec.ok_bind]
  dsimp only
  rw [hreply]
  dsimp only
  rw [hbytes]
  exact ⟨_, rfl⟩

theorem receiveIpv4Bytes_of_request (h : EchoRequest host packet datagram request)
    (hbytes : (replyTo request).serialize = .ok bytes) :
    ∃ events, host.receiveIpv4Bytes packet = .ok (host,
      { datagrams := [Ipv4Datagram.newIcmp host.config.localIp datagram.header.src bytes]
        events := events }) := by
  obtain ⟨events, hicmp⟩ := receiveIcmp_of_request datagram.header.src datagram.header.dst h.icmp
    h.icmpType h.code hbytes
  have hlocal : ¬ datagram.header.dst ≠ host.config.localIp := not_not.mpr h.dst
  refine ⟨events, ?_⟩
  rw [receiveIpv4Bytes, h.ipv4, Exec.ok_bind]
  dsimp only
  unfold receiveDatagram
  dsimp only
  rw [if_neg hlocal, if_pos h.protocol, hicmp, h.dst]
  rfl

/-! ## Nothing else is -/

theorem wrapTcpSegments_protocol (h : host.wrapTcpSegments segments = .ok output) :
    ∀ datagram ∈ output.datagrams, datagram.header.protocol = IPV4_PROTOCOL_TCP := by
  induction segments generalizing output with
  | nil =>
      obtain rfl := Except.ok.inj h
      exact fun _ hd => absurd hd List.not_mem_nil
  | cons segment rest ih =>
      obtain ⟨bytes, -, h⟩ := Exec.bind_eq_ok.mp h
      obtain ⟨output1, hrest, h⟩ := Exec.bind_eq_ok.mp h
      obtain rfl := Except.ok.inj h
      intro datagram hdatagram
      rcases List.mem_cons.mp hdatagram with rfl | hdatagram
      · rfl
      · exact ih hrest datagram hdatagram

/-- A segment is answered by segments. -/
theorem receiveTcp_protocol {srcIp dstIp : Ipv4AddrBytes}
    (h : host.receiveTcp srcIp dstIp bytes = .ok (host1, output)) :
    ∀ datagram ∈ output.datagrams, datagram.header.protocol = IPV4_PROTOCOL_TCP := by
  obtain ⟨parsed, -, h⟩ := Exec.bind_eq_ok.mp h
  cases parsed with
  | error err =>
      obtain ⟨rfl, rfl⟩ := Prod.mk.inj (Except.ok.inj h)
      exact fun _ hd => absurd hd List.not_mem_nil
  | ok segment =>
      dsimp only at h
      by_cases hport : segment.header.srcPort ≠ host.connection.peerPort ∨
          segment.header.dstPort ≠ host.connection.localPort
      · rw [if_pos hport] at h
        obtain ⟨rfl, rfl⟩ := Prod.mk.inj (Except.ok.inj h)
        exact fun _ hd => absurd hd List.not_mem_nil
      · rw [if_neg hport] at h
        obtain ⟨⟨connection, responses⟩, -, h⟩ := Exec.bind_eq_ok.mp h
        obtain ⟨wrapped, hwrap, h⟩ := Exec.bind_eq_ok.mp h
        obtain ⟨rfl, rfl⟩ := Prod.mk.inj (Except.ok.inj h)
        have hwrapped := wrapTcpSegments_protocol hwrap
        exact hwrapped

/-- ICMP messages other than requests, and what is none, get no answer. -/
theorem request_of_receiveIcmp {srcIp dstIp : Ipv4AddrBytes} {reply : Ipv4Datagram}
    (h : receiveIcmp srcIp dstIp packet = .ok output) (hreply : reply ∈ output.datagrams) :
    ∃ request, IcmpMessage.parseBytes packet = .ok (.ok request) ∧
      request.icmpType = ICMP_ECHO_REQUEST ∧ request.code = 0 := by
  obtain ⟨parsed, hparsed, h⟩ := Exec.bind_eq_ok.mp h
  cases parsed with
  | error err =>
      obtain rfl := Except.ok.inj h
      exact absurd hreply List.not_mem_nil
  | ok request =>
      dsimp only at h
      cases hanswer : request.echoReplyFromRequest with
      | none =>
          rw [hanswer] at h
          obtain rfl := Except.ok.inj h
          exact absurd hreply List.not_mem_nil
      | some message =>
          obtain ⟨htype, hcode, -⟩ := IcmpMessage.echoReplyFromRequest_eq_some.mp hanswer
          exact ⟨request, hparsed, htype, hcode⟩

theorem request_of_icmp {reply : Ipv4Datagram}
    (h : host.receiveIpv4Bytes packet = .ok (host1, output)) (hreply : reply ∈ output.datagrams)
    (hprotocol : reply.header.protocol = IPV4_PROTOCOL_ICMP) :
    ∃ datagram request, EchoRequest host packet datagram request := by
  obtain ⟨parsed, hparsed, h⟩ := Exec.bind_eq_ok.mp h
  cases parsed with
  | error err =>
      obtain ⟨rfl, rfl⟩ := Prod.mk.inj (Except.ok.inj h)
      exact absurd hreply List.not_mem_nil
  | ok datagram =>
      dsimp only [receiveDatagram] at h
      split_ifs at h with hdst hicmp htcp
      · obtain ⟨rfl, rfl⟩ := Prod.mk.inj (Except.ok.inj h)
        exact absurd hreply List.not_mem_nil
      · obtain ⟨output1, hreceive, h⟩ := Exec.bind_eq_ok.mp h
        obtain ⟨rfl, rfl⟩ := Prod.mk.inj (Except.ok.inj h)
        obtain ⟨request, hrequest, htype, hcode⟩ := request_of_receiveIcmp hreceive hreply
        exact ⟨datagram, request, hparsed, not_not.mp hdst, hicmp, hrequest, htype, hcode⟩
      · -- what the connection sends is TCP
        have htcp1 := receiveTcp_protocol h reply hreply
        rw [hprotocol] at htcp1
        exact absurd htcp1 (by decide)
      · obtain ⟨rfl, rfl⟩ := Prod.mk.inj (Except.ok.inj h)
        exact absurd hreply List.not_mem_nil

/-! ## The answer is not answered -/

theorem receiveDatagram_of_reply (host : IpHost)
    (hprotocol : datagram.header.protocol = IPV4_PROTOCOL_ICMP)
    (hparsed : IcmpMessage.parseBytes datagram.payload = .ok (.ok (replyTo request))) :
    host.receiveDatagram datagram = .ok (host, .empty) := by
  unfold receiveDatagram
  dsimp only
  by_cases hdst : datagram.header.dst = host.config.localIp
  · rw [if_neg (not_not.mpr hdst), if_pos hprotocol, receiveIcmp, hparsed]
    rfl
  · rw [if_pos hdst]

/-- Whatever its connection is doing, a host that is given bytes sends ICMP if and only if they
are an echo request for it, and then it sends one datagram and is as it was before. The datagram
can be written out; read again it is, from the host to the requester, the reply with the
identifier, the sequence number and the payload of the request. No host answers or reports it. -/
theorem ping_answered (host : IpHost) (packet : Bytes) :
    ((∃ host1 output, host.receiveIpv4Bytes packet = .ok (host1, output) ∧
        ∃ reply ∈ output.datagrams, reply.header.protocol = IPV4_PROTOCOL_ICMP) ↔
      ∃ datagram request, EchoRequest host packet datagram request) ∧
    ∀ datagram request, EchoRequest host packet datagram request →
      ∃ reply events bytes,
        host.receiveIpv4Bytes packet = .ok (host, { datagrams := [reply], events := events }) ∧
        reply.serialize = .ok bytes ∧ bytes.length ≤ 65535 ∧
        (∃ parsed, Ipv4Datagram.parseBytes bytes = .ok (.ok parsed) ∧
          parsed.header.src = host.config.localIp ∧
          parsed.header.dst = datagram.header.src ∧
          parsed.header.protocol = IPV4_PROTOCOL_ICMP ∧
          IcmpMessage.parseBytes parsed.payload = .ok (.ok
            { icmpType := ICMP_ECHO_REPLY
              code := 0
              identifier := request.identifier
              sequenceNumber := request.sequenceNumber
              payload := request.payload })) ∧
        ∀ host1 : IpHost, host1.receiveDatagram reply = .ok (host1, .empty) ∧
          host1.receiveIpv4Bytes bytes = .ok (host1, .empty) := by
  have hanswered : ∀ datagram request, EchoRequest host packet datagram request →
      ∃ events icmpBytes, (replyTo request).serialize = .ok icmpBytes ∧
        icmpBytes.length ≤ 65515 ∧ host.receiveIpv4Bytes packet = .ok (host,
          { datagrams := [Ipv4Datagram.newIcmp host.config.localIp datagram.header.src icmpBytes]
            events := events }) := by
    intro datagram request h
    obtain ⟨icmpBytes, hserialized, hfits⟩ := h.serialized
    obtain ⟨events, hrun⟩ := receiveIpv4Bytes_of_request h hserialized
    exact ⟨events, icmpBytes, hserialized, hfits, hrun⟩
  -- an ICMP datagram is only ever sent for a request, and every request gets one
  refine ⟨⟨?_, ?_⟩, ?_⟩
  · rintro ⟨host1, output, hrun, reply, hreply, hprotocol⟩
    exact request_of_icmp hrun hreply hprotocol
  · rintro ⟨datagram, request, h⟩
    obtain ⟨events, icmpBytes, -, -, hrun⟩ := hanswered datagram request h
    exact ⟨host, _, hrun, _, List.mem_singleton_self _, rfl⟩
  · intro datagram request h
    obtain ⟨events, icmpBytes, hserialized, hfits, hrun⟩ := hanswered datagram request h
    have hparsed := IcmpMessage.parseBytes_serialize hserialized
    set reply := Ipv4Datagram.newIcmp host.config.localIp datagram.header.src icmpBytes with hreply
    have hwritten := Ipv4Datagram.serialize_eq (show reply.payload.length ≤ 65515 from hfits)
    have hread := Ipv4Datagram.parseBytes_serialize hwritten
    -- an echo reply is not a request, so no host answers it
    have hsilent : ∀ host1 : IpHost, host1.receiveDatagram reply = .ok (host1, .empty) :=
      fun host1 => receiveDatagram_of_reply host1 rfl hparsed
    refine ⟨reply, events, _, hrun, hwritten, ?_, ⟨reply, hread, rfl, rfl, rfl, hparsed⟩, ?_⟩
    · rw [List.length_append, Ipv4Datagram.length_headerBytes]
      show 20 + icmpBytes.length ≤ 65535
      omega
    · intro host1
      refine ⟨hsilent host1, ?_⟩
      rw [receiveIpv4Bytes, hread]
      exact hsilent host1

/-- A request behind four bytes of IPv4 options, with nothing to send back: identifier and sequence
number are zero and there is no payload. -/
def zeroPing : Bytes :=
  [70, 0, 0, 32, 0, 0, 64, 0, 64, 1, 35, 218, 10, 0, 0, 2, 10, 0, 0, 1, 1, 1, 1, 0, 8, 0, 247, 255,
    0, 0, 0, 0]

theorem ping_answered_zero : ∃ host reply events bytes parsed,
    IpHost.new (.tcpDemo ⟨10, 0, 0, 1⟩ ⟨10, 0, 0, 9⟩ 4000 80 ⟨0⟩) = .ok host ∧
    host.receiveIpv4Bytes zeroPing = .ok (host, { datagrams := [reply], events := events }) ∧
    reply.serialize = .ok bytes ∧ Ipv4Datagram.parseBytes bytes = .ok (.ok parsed) ∧
    parsed.header.dst = ⟨10, 0, 0, 2⟩ ∧
    IcmpMessage.parseBytes parsed.payload = .ok (.ok ⟨ICMP_ECHO_REPLY, 0, 0, 0, []⟩) ∧
    host.receiveIpv4Bytes bytes = .ok (host, .empty) := by
  obtain ⟨host, hnew, hlocal⟩ : ∃ host,
      IpHost.new (.tcpDemo ⟨10, 0, 0, 1⟩ ⟨10, 0, 0, 9⟩ 4000 80 ⟨0⟩) = .ok host ∧
        host.config.localIp = ⟨10, 0, 0, 1⟩ := by
    decide +kernel
  have hrequest : EchoRequest host zeroPing
      ⟨⟨⟨10, 0, 0, 2⟩, ⟨10, 0, 0, 1⟩, 64, 1, 0, 0x4000⟩, [8, 0, 247, 255, 0, 0, 0, 0]⟩
      ⟨8, 0, 0, 0, []⟩ :=
    ⟨by decide +kernel, hlocal.symm, rfl, by decide +kernel, rfl, rfl⟩
  obtain ⟨reply, events, bytes, hrun, hserialized, -, hread, hsilent⟩ :=
    (ping_answered host zeroPing).2 _ _ hrequest
  obtain ⟨parsed, hparsed, -, hdst, -, hmessage⟩ := hread
  exact ⟨host, reply, events, bytes, parsed, hnew, hrun, hserialized, hparsed, hdst, hmessage,
    (hsilent host).2⟩

end IpHost

end Minnow
