import Minnow.ArpMessage
import Minnow.Checksum.Rfc1071
import Minnow.IcmpMessage
import Minnow.Ipv4Datagram
import Minnow.TcpSegment

set_option autoImplicit false

/-! # Which bytes the parsers return on

The parsers answer with a message or with an error, and the Ethernet, ARP and IPv4 parsers do so
on any bytes: IPv4 sums up a header only, whose length it has checked. The ICMP and TCP parsers
sum up all they are given before they look at its length.

* `IcmpMessage.parseBytes_returns_iff`: the sum is a `u32`, which is enough for every message of
  up to 131074 bytes (`IcmpMessage.returns_of_length_iff`).
* `TcpSegment.parseIpv4_returns_iff`: the pseudo-header has a 16-bit length, and a longer segment
  fails the assertion of `tcp_checksum_ipv4`.
-/

namespace Minnow

/-! ## The sum -/

theorem wordSum_replicate (n : Nat) :
    wordSum (List.replicate n 0xff) = 65535 * (n / 2) + 65280 * (n % 2) := by
  induction n using Nat.twoStepInduction with
  | zero => rfl
  | one => rfl
  | more n ih _ =>
      have hbyte : UInt8.toNat 0xff = 255 := rfl
      rw [List.replicate_succ, List.replicate_succ, wordSum, ih, hbyte]
      omega

/-! ## The parsers that sum up -/

theorem IcmpMessage.parseBytes_returns_iff (bytes : Bytes) :
    (∃ result, IcmpMessage.parseBytes bytes = .ok result) ↔ wordSum bytes < 2 ^ 32 := by
  constructor
  · rintro ⟨result, hparse⟩
    by_cases hshort : bytes.length < ICMP_ECHO_HEADER_LEN
    · unfold ICMP_ECHO_HEADER_LEN at hshort
      exact wordSum_lt_of_length (by omega)
    · rw [IcmpMessage.parseBytes, if_neg hshort] at hparse
      obtain ⟨valid, hverify, -⟩ := Exec.bind_eq_ok.mp hparse
      obtain ⟨checksum, hchecksum, -⟩ := Exec.bind_eq_ok.mp hverify
      exact wordSum_lt_of_ok hchecksum
  · intro hsum
    obtain ⟨result, hparse, -⟩ := IcmpMessage.parseBytes_total hsum
    exact ⟨result, hparse⟩

/-- The lengths at which the parser returns whatever the bytes are. -/
theorem IcmpMessage.returns_of_length_iff (n : Nat) :
    (∀ bytes : Bytes, bytes.length = n → ∃ result, IcmpMessage.parseBytes bytes = .ok result) ↔
      n ≤ 131074 := by
  simp only [IcmpMessage.parseBytes_returns_iff]
  constructor
  · intro h
    -- all ones are the largest sum
    have hones := h (List.replicate n 0xff) List.length_replicate
    rw [wordSum_replicate] at hones
    omega
  · intro hn bytes hbytes
    exact wordSum_lt_of_length (hbytes.trans_le hn)

/-- A segment that no datagram can carry gets as far as the assertion. -/
theorem TcpSegment.parseIpv4_stops (srcIp dstIp : Ipv4AddrBytes) {bytes : Bytes}
    (h : 65535 < bytes.length) : TcpSegment.parseIpv4 srcIp dstIp bytes = .error .assertion := by
  have hlong : ¬ bytes.length < TCP_HEADER_MIN_LEN := by
    unfold TCP_HEADER_MIN_LEN
    omega
  have hassert : Exec.assert (bytes.length ≤ 65535) = .error .assertion :=
    if_neg (Nat.not_le.mpr h)
  rw [TcpSegment.parseIpv4, TcpSegment.parseIpv4Bytes, if_neg hlong, tcpChecksumIpv4, hassert]
  rfl

theorem TcpSegment.parseIpv4_returns_iff (srcIp dstIp : Ipv4AddrBytes) (bytes : Bytes) :
    (∃ result, TcpSegment.parseIpv4 srcIp dstIp bytes = .ok result) ↔ bytes.length ≤ 65535 := by
  constructor
  · rintro ⟨result, hparse⟩
    by_contra hlong
    rw [TcpSegment.parseIpv4_stops srcIp dstIp (Nat.not_le.mp hlong)] at hparse
    exact nomatch hparse
  · intro hfits
    obtain ⟨result, hparse, -⟩ := TcpSegment.parseIpv4Bytes_total srcIp dstIp hfits
    exact ⟨result, hparse⟩

/-! ## All of them -/

/-- On any bytes the Ethernet, ARP and IPv4 parsers return a message or an error. The ICMP parser
returns if and only if the words of the message sum up to a `u32`, and the TCP parser, if and only
if a 16-bit length holds that of the segment. -/
theorem parsers_return_iff (bytes : Bytes) (srcIp dstIp : Ipv4AddrBytes) :
    (∃ result, EthernetFrame.parse bytes = .ok result) ∧
    (∃ result, ArpMessage.parse bytes = .ok result) ∧
    (∃ result, Ipv4Datagram.parse bytes = .ok result) ∧
    ((∃ result, IcmpMessage.parseBytes bytes = .ok result) ↔ wordSum bytes < 2 ^ 32) ∧
    ((∃ result, TcpSegment.parseIpv4 srcIp dstIp bytes = .ok result) ↔ bytes.length ≤ 65535) := by
  obtain ⟨result, hipv4, -⟩ := Ipv4Datagram.parseBytes_total bytes
  exact ⟨EthernetFrame.parseBytes_total bytes, ArpMessage.parseBytes_total bytes,
    ⟨result, hipv4⟩, IcmpMessage.parseBytes_returns_iff bytes,
    TcpSegment.parseIpv4_returns_iff srcIp dstIp bytes⟩

/-- A segment of one byte more than a datagram can have, and an ICMP message of 131075 bytes. -/
theorem parsers_stop :
    TcpSegment.parseIpv4 ⟨10, 0, 0, 1⟩ ⟨10, 0, 0, 2⟩ (List.replicate 65536 0)
      = .error .assertion ∧
    ¬ ∃ result, IcmpMessage.parseBytes (List.replicate 131075 0xff) = .ok result := by
  constructor
  · apply TcpSegment.parseIpv4_stops
    rw [List.length_replicate]
    decide
  · rw [IcmpMessage.parseBytes_returns_iff, wordSum_replicate]
    decide

end Minnow
