import Minnow.EthernetFrame

set_option autoImplicit false

/-! # ARP messages

`arp.rs`: requests and replies for IPv4 over Ethernet. Unlike IPv4 the format has no length of
its own; the parser takes the first 28 bytes and ignores the rest.
-/

namespace Minnow

def ARP_MESSAGE_LEN : Nat := 28
def ARP_HARDWARE_TYPE_ETHERNET : UInt16 := 1
def ARP_PROTOCOL_TYPE_IPV4 : UInt16 := ETHERTYPE_IPV4
def ARP_HARDWARE_ADDRESS_LEN_ETHERNET : UInt8 := 6
def ARP_PROTOCOL_ADDRESS_LEN_IPV4 : UInt8 := 4
def ARP_OPCODE_REQUEST : UInt16 := 1
def ARP_OPCODE_REPLY : UInt16 := 2

inductive ArpOperation where
  | request
  | reply
  deriving DecidableEq, Repr

namespace ArpOperation

def opcode : ArpOperation → UInt16
  | request => ARP_OPCODE_REQUEST
  | reply => ARP_OPCODE_REPLY

def fromOpcode (opcode : UInt16) : Option ArpOperation :=
  if opcode = ARP_OPCODE_REQUEST then some request
  else if opcode = ARP_OPCODE_REPLY then some reply
  else none

@[simp] theorem fromOpcode_opcode (operation : ArpOperation) :
    fromOpcode operation.opcode = some operation := by
  cases operation <;> rfl

end ArpOperation

structure ArpMessage where
  operation : ArpOperation
  senderEthernetAddress : EthernetAddress
  senderIpAddress : Ipv4AddrBytes
  targetEthernetAddress : EthernetAddress
  targetIpAddress : Ipv4AddrBytes
  deriving DecidableEq, Repr

inductive ArpParseError where
  | messageTooShort
  | unsupportedHardwareType (hardwareType : UInt16)
  | unsupportedProtocolType (protocolType : UInt16)
  | unsupportedHardwareAddressLength (hardwareLen : UInt8)
  | unsupportedProtocolAddressLength (protocolLen : UInt8)
  | unsupportedOperation (opcode : UInt16)
  deriving DecidableEq, Repr

namespace ArpMessage

def request (senderEthernetAddress : EthernetAddress)
    (senderIpAddress targetIpAddress : Ipv4AddrBytes) : ArpMessage where
  operation := .request
  senderEthernetAddress := senderEthernetAddress
  senderIpAddress := senderIpAddress
  targetEthernetAddress := EthernetAddress.ZERO
  targetIpAddress := targetIpAddress

def reply (senderEthernetAddress : EthernetAddress) (senderIpAddress : Ipv4AddrBytes)
    (targetEthernetAddress : EthernetAddress) (targetIpAddress : Ipv4AddrBytes) : ArpMessage where
  operation := .reply
  senderEthernetAddress := senderEthernetAddress
  senderIpAddress := senderIpAddress
  targetEthernetAddress := targetEthernetAddress
  targetIpAddress := targetIpAddress

def serialize (message : ArpMessage) : Exec Bytes := do
  let buf :=
    u16Bytes ARP_HARDWARE_TYPE_ETHERNET ++ u16Bytes ARP_PROTOCOL_TYPE_IPV4 ++
      [ARP_HARDWARE_ADDRESS_LEN_ETHERNET] ++ [ARP_PROTOCOL_ADDRESS_LEN_IPV4] ++
      u16Bytes message.operation.opcode ++
      message.senderEthernetAddress.octets ++ message.senderIpAddress.octets ++
      message.targetEthernetAddress.octets ++ message.targetIpAddress.octets
  Exec.assert (buf.length = ARP_MESSAGE_LEN)
  .ok buf

def parseBytes (data : Bytes) : Exec (Except ArpParseError ArpMessage) :=
  if data.length < ARP_MESSAGE_LEN then .ok (.error .messageTooShort)
  else do
    let hardwareType := u16OfBytes (← byteAt data 0) (← byteAt data 1)
    let protocolType := u16OfBytes (← byteAt data 2) (← byteAt data 3)
    let hardwareLen ← byteAt data 4
    let protocolLen ← byteAt data 5
    let opcode := u16OfBytes (← byteAt data 6) (← byteAt data 7)
    if hardwareType ≠ ARP_HARDWARE_TYPE_ETHERNET then
      .ok (.error (.unsupportedHardwareType hardwareType))
    else if protocolType ≠ ARP_PROTOCOL_TYPE_IPV4 then
      .ok (.error (.unsupportedProtocolType protocolType))
    else if hardwareLen ≠ ARP_HARDWARE_ADDRESS_LEN_ETHERNET then
      .ok (.error (.unsupportedHardwareAddressLength hardwareLen))
    else if protocolLen ≠ ARP_PROTOCOL_ADDRESS_LEN_IPV4 then
      .ok (.error (.unsupportedProtocolAddressLength protocolLen))
    else
      match ArpOperation.fromOpcode opcode with
      | none => .ok (.error (.unsupportedOperation opcode))
      | some operation => do
          let senderEthernetAddress : EthernetAddress :=
            ⟨← byteAt data 8, ← byteAt data 9, ← byteAt data 10, ← byteAt data 11,
              ← byteAt data 12, ← byteAt data 13⟩
          let senderIpAddress : Ipv4AddrBytes :=
            ⟨← byteAt data 14, ← byteAt data 15, ← byteAt data 16, ← byteAt data 17⟩
          let targetEthernetAddress : EthernetAddress :=
            ⟨← byteAt data 18, ← byteAt data 19, ← byteAt data 20, ← byteAt data 21,
              ← byteAt data 22, ← byteAt data 23⟩
          let targetIpAddress : Ipv4AddrBytes :=
            ⟨← byteAt data 24, ← byteAt data 25, ← byteAt data 26, ← byteAt data 27⟩
          .ok (.ok
            { operation := operation
              senderEthernetAddress := senderEthernetAddress
              senderIpAddress := senderIpAddress
              targetEthernetAddress := targetEthernetAddress
              targetIpAddress := targetIpAddress })

def parse (data : Bytes) : Exec (Except ArpParseError ArpMessage) := parseBytes data

variable {message : ArpMessage}

/-- Any bytes are parsed or rejected. -/
theorem parseBytes_total (data : Bytes) : ∃ result, parseBytes data = .ok result := by
  unfold parseBytes ARP_MESSAGE_LEN
  by_cases hshort : data.length < 28
  · rw [if_pos hshort]
    exact ⟨_, rfl⟩
  · have hbyte : ∀ i, i < 28 → byteAt data i = .ok (data.getD i 0) :=
      fun i hi => byteAt_of_lt (by omega)
    rw [if_neg hshort]
    simp only [hbyte, Exec.ok_bind, Nat.reduceLT]
    split_ifs
    · exact ⟨_, rfl⟩
    · exact ⟨_, rfl⟩
    · exact ⟨_, rfl⟩
    · exact ⟨_, rfl⟩
    · split <;> exact ⟨_, rfl⟩

theorem serialize_total (message : ArpMessage) : ∃ bytes, message.serialize = .ok bytes :=
  ⟨_, rfl⟩

/-- What is serialized is parsed again. -/
theorem parseBytes_serialize {bytes : Bytes} (h : message.serialize = .ok bytes) :
    parseBytes bytes = .ok (.ok message) := by
  obtain ⟨operation, ⟨m0, m1, m2, m3, m4, m5⟩, ⟨i0, i1, i2, i3⟩, ⟨n0, n1, n2, n3, n4, n5⟩,
    ⟨j0, j1, j2, j3⟩⟩ := message
  obtain ⟨u, -, hok⟩ := Exec.bind_eq_ok.mp h
  have hbytes : bytes =
      [(ARP_HARDWARE_TYPE_ETHERNET >>> 8).toUInt8, ARP_HARDWARE_TYPE_ETHERNET.toUInt8,
        (ARP_PROTOCOL_TYPE_IPV4 >>> 8).toUInt8, ARP_PROTOCOL_TYPE_IPV4.toUInt8,
        ARP_HARDWARE_ADDRESS_LEN_ETHERNET, ARP_PROTOCOL_ADDRESS_LEN_IPV4,
        (operation.opcode >>> 8).toUInt8, operation.opcode.toUInt8, m0, m1, m2, m3, m4, m5,
        i0, i1, i2, i3, n0, n1, n2, n3, n4, n5, j0, j1, j2, j3] := (Except.ok.inj hok).symm
  rw [parseBytes, hbytes]
  simp [byteAt, ARP_MESSAGE_LEN]

end ArpMessage

end Minnow
