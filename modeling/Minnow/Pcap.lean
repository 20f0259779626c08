import Minnow.Checksum
import Minnow.Library.BufWriter
import Minnow.Library.Exec
import Minnow.Library.Records

set_option autoImplicit false

/-! # Capture files

`pcap.rs`: a file of packets, each behind a header with a time and its length. The packets go
through a buffer, which nobody flushes before the writer is dropped. `readCapture` says what a file
means: whoever reads a beginning of one sees the packets that are whole, in their order
(`IsCapture.of_beginning`), and at most a buffer is missing (`Captured.leaves`).
-/

namespace Minnow

inductive IoErrorKind where
  | invalidInput
  | wouldBlock
  | interrupted
  | other
  deriving DecidableEq, Repr

structure IoError where
  kind : IoErrorKind
  message : String
  deriving DecidableEq, Repr

def PCAP_MAGIC_LE : UInt32 := 0xa1b2c3d4
def PCAP_VERSION_MAJOR : UInt16 := 2
def PCAP_VERSION_MINOR : UInt16 := 4
def PCAP_SNAPLEN : UInt32 := 65535

inductive PcapLinkType where
  | ethernet
  | rawIpv4
  deriving DecidableEq, Repr

def PcapLinkType.code : PcapLinkType → UInt32
  | .ethernet => 1
  | .rawIpv4 => 101

/-- `u16::to_le_bytes` -/
def u16BytesLe (v : UInt16) : Bytes := [v.toUInt8, (v >>> 8).toUInt8]

/-- `u32::to_le_bytes` -/
def u32BytesLe (v : UInt32) : Bytes :=
  [v.toUInt8, (v >>> 8).toUInt8, (v >>> 16).toUInt8, (v >>> 24).toUInt8]

/-- The time since the epoch. -/
structure Timestamp where
  secs : UInt64
  subsecMicros : UInt32
  deriving DecidableEq, Repr

/-- `DEFAULT_BUF_SIZE` of `std::io`. -/
def DEFAULT_BUF_SIZE : Nat := 8192

structure PcapWriter where
  writer : BufWriter UInt8

namespace PcapWriter

def globalHeader (linkType : PcapLinkType) : Bytes :=
  u32BytesLe PCAP_MAGIC_LE ++ u16BytesLe PCAP_VERSION_MAJOR ++ u16BytesLe PCAP_VERSION_MINOR ++
    u32BytesLe 0 ++ u32BytesLe 0 ++ u32BytesLe PCAP_SNAPLEN ++ u32BytesLe linkType.code

/-- `write_global_header`, with what the file answers to the calls. -/
def writeGlobalHeader (writer : BufWriter UInt8) (disk : Nat → Option (Nat × IoError))
    (linkType : PcapLinkType) : Option IoError × BufWriter UInt8 :=
  writer.writePieces disk
    [u32BytesLe PCAP_MAGIC_LE, u16BytesLe PCAP_VERSION_MAJOR, u16BytesLe PCAP_VERSION_MINOR,
      u32BytesLe 0, u32BytesLe 0, u32BytesLe PCAP_SNAPLEN, u32BytesLe linkType.code]

/-- The file may not be created. -/
def create (linkType : PcapLinkType) (created : Option IoError)
    (disk : Nat → Option (Nat × IoError)) : Except IoError PcapWriter :=
  match created with
  | some err => .error err
  | none =>
      match writeGlobalHeader (BufWriter.new DEFAULT_BUF_SIZE) disk linkType with
      | (some err, _) => .error err
      | (none, writer) => .ok { writer := writer }

/-- What `write_packet` writes, call by call. -/
def packetPieces (timestamp : Timestamp) (packet : Bytes) : List Bytes :=
  let len := UInt32.ofNat packet.length
  [u32BytesLe timestamp.secs.toUInt32, u32BytesLe timestamp.subsecMicros, u32BytesLe len,
    u32BytesLe len, packet]

/-- The time is what the clock says, or its error. Where the call fails, the writer is what it is
by then. -/
def writePacket (writer : PcapWriter) (now : Except IoError Timestamp)
    (disk : Nat → Option (Nat × IoError)) (packet : Bytes) : Option IoError × PcapWriter :=
  match now with
  | .error err => (some err, writer)
  | .ok timestamp =>
      if packet.length < 2 ^ 32 then
        let (failed, inner) := writer.writer.writePieces disk (packetPieces timestamp packet)
        (failed, { writer := inner })
      else (some ⟨.invalidInput, "pcap packet length exceeds u32::MAX"⟩, writer)

end PcapWriter

/-! ## What a capture file means -/

structure PcapRecord where
  seconds : UInt32
  micros : UInt32
  packet : Bytes
  short : packet.length < 2 ^ 32

structure Capture where
  linkType : UInt32
  records : List PcapRecord

namespace PcapRecord

def write (record : PcapRecord) : Bytes :=
  u32BytesLe record.seconds ++ u32BytesLe record.micros ++
    u32BytesLe (UInt32.ofNat record.packet.length) ++
    u32BytesLe (UInt32.ofNat record.packet.length) ++ record.packet

/-- As many bytes as the first length says, if there are so many. -/
def read : Bytes → Option (PcapRecord × Bytes)
  | s0 :: s1 :: s2 :: s3 :: m0 :: m1 :: m2 :: m3 :: c0 :: c1 :: c2 :: c3 :: _ :: _ :: _ :: _ ::
      rest =>
      let len := (u32OfBytes c3 c2 c1 c0).toNat
      if len ≤ rest.length then
        some
          ({ seconds := u32OfBytes s3 s2 s1 s0
             micros := u32OfBytes m3 m2 m1 m0
             packet := rest.take len
             short := lt_of_le_of_lt (List.length_take_le _ _) (UInt32.toNat_lt _) },
            rest.drop len)
      else none
  | _ => none

variable {record : PcapRecord}

theorem length_write (record : PcapRecord) :
    record.write.length = 16 + record.packet.length := by
  unfold write u32BytesLe
  simp
  omega

theorem read_write (record : PcapRecord) (rest : Bytes) :
    read (record.write ++ rest) = some (record, rest) := by
  obtain ⟨seconds, micros, packet, short⟩ := record
  have hlen : (UInt32.ofNat packet.length).toNat = packet.length :=
    UInt32.toNat_ofNat_of_lt short
  unfold write u32BytesLe
  simp only [List.cons_append, List.nil_append, read, u32OfBytes_u32Bytes, hlen]
  rw [if_pos (by rw [List.length_append]; exact Nat.le_add_right _ _)]
  simp

theorem read_of_short {bytes : Bytes} (h : bytes.length < 16) : read bytes = none := by
  unfold read
  split
  · simp only [List.length_cons] at h
    omega
  · rfl

theorem read_cut (record : PcapRecord) (k : Nat) (hk : k < record.write.length) :
    read (record.write.take k) = none := by
  rw [length_write] at hk
  by_cases hheader : k < 16
  · exact read_of_short (lt_of_le_of_lt (List.length_take_le _ _) hheader)
  · -- the header is there, but not all that it announces
    obtain ⟨n, rfl⟩ := Nat.exists_eq_add_of_le' (Nat.le_of_not_lt hheader)
    have hlen : (UInt32.ofNat record.packet.length).toNat = record.packet.length :=
      UInt32.toNat_ofNat_of_lt record.short
    unfold write u32BytesLe
    simp only [List.cons_append, List.nil_append, List.take_succ_cons, read, u32OfBytes_u32Bytes,
      hlen]
    rw [if_neg (by rw [List.length_take]; omega)]

/-- The records of a capture file, as a format. -/
def format : RecordFormat PcapRecord UInt8 where
  write := write
  read := read
  write_pos := fun record => by
    rw [length_write]
    omega
  read_write := read_write
  read_cut := read_cut
  read_nil := rfl

end PcapRecord

/-- Whoever reads a capture file sees its link type and the packets that are whole. -/
def readCapture : Bytes → Option Capture
  | m0 :: m1 :: m2 :: m3 :: _ :: _ :: _ :: _ :: _ :: _ :: _ :: _ :: _ :: _ :: _ :: _ :: _ :: _ ::
      _ :: _ :: l0 :: l1 :: l2 :: l3 :: rest =>
      if u32OfBytes m3 m2 m1 m0 = PCAP_MAGIC_LE then
        some
          { linkType := u32OfBytes l3 l2 l1 l0
            records := PcapRecord.format.readAll rest.length rest }
      else none
  | _ => none

/-! ## Round trips -/

/-- The record of a packet that was written at that time. -/
def PcapRecord.Of (record : PcapRecord) (stamped : Timestamp × Bytes) : Prop :=
  record.seconds = stamped.1.secs.toUInt32 ∧ record.micros = stamped.1.subsecMicros ∧
    record.packet = stamped.2

variable {linkType : PcapLinkType} {writer writer1 : PcapWriter} {timestamp : Timestamp}
  {packet file bytes : Bytes} {stamped : List (Timestamp × Bytes)} {records : List PcapRecord}
  {disk : Nat → Option (Nat × IoError)} {err : IoError}

/-- The bytes of a capture. -/
def captureBytes (linkType : PcapLinkType) (records : List PcapRecord) : Bytes :=
  PcapWriter.globalHeader linkType ++ PcapRecord.format.writeAll records

/-- Behind the header of a file come its records. -/
theorem readCapture_header (linkType : PcapLinkType) (rest : Bytes) :
    readCapture (PcapWriter.globalHeader linkType ++ rest)
      = some
          { linkType := linkType.code
            records := PcapRecord.format.readAll rest.length rest } := by
  cases linkType <;> rfl

theorem readCapture_of_short (h : bytes.length < 24) : readCapture bytes = none := by
  unfold readCapture
  split
  · simp only [List.length_cons] at h
    omega
  · rfl

theorem length_writeAll (records : List PcapRecord) :
    (PcapRecord.format.writeAll records).length
      = (records.map (fun record => 16 + record.packet.length)).sum := by
  induction records with
  | nil => rfl
  | cons record rest ih =>
      rw [RecordFormat.writeAll_cons, List.length_append, ih, List.map_cons, List.sum_cons]
      exact congrArg (· + _) record.length_write

theorem packets_of_records
    (h : List.Forall₂ PcapRecord.Of records stamped) :
    records.map PcapRecord.packet = stamped.map Prod.snd := by
  induction h with
  | nil => rfl
  | cons hfirst _ ih =>
      rw [List.map_cons, List.map_cons, ih, hfirst.2.2]

/-- What the first `m` packets take of a file. -/
def fileLength (packets : List Bytes) (m : Nat) : Nat :=
  24 + ((packets.take m).map (fun packet => 16 + packet.length)).sum

/-- The bytes are a capture file of the packets, or a beginning of one. A reader of what is left of
it, cut off anywhere, sees nothing if the header is cut, and otherwise the link type and, with their
times, the packets that are whole: no more and no fewer. -/
def IsCapture (linkType : PcapLinkType) (stamped : List (Timestamp × Bytes)) (file : Bytes) :
    Prop :=
  ∀ k ≤ file.length, (k < 24 → readCapture (file.take k) = none) ∧
    (24 ≤ k → ∃ m capture, readCapture (file.take k) = some capture ∧
      capture.linkType = linkType.code ∧
      List.Forall₂ PcapRecord.Of capture.records (stamped.take m) ∧
      IsGreatest { m | m ≤ stamped.length ∧ fileLength (stamped.map Prod.snd) m ≤ k } m)

theorem length_captureBytes (linkType : PcapLinkType)
    (hrecords : List.Forall₂ PcapRecord.Of records stamped) (m : Nat) :
    (captureBytes linkType (records.take m)).length = fileLength (stamped.map Prod.snd) m := by
  have hheader : (PcapWriter.globalHeader linkType).length = 24 := rfl
  rw [captureBytes, List.length_append, hheader, fileLength, length_writeAll,
    ← packets_of_records hrecords, ← List.map_take, List.map_map]
  rfl

theorem isCapture_of_records (linkType : PcapLinkType)
    (hrecords : List.Forall₂ PcapRecord.Of records stamped) :
    IsCapture linkType stamped (captureBytes linkType records) := by
  intro k _
  refine ⟨fun hk => readCapture_of_short (lt_of_le_of_lt (List.length_take_le _ _) hk), ?_⟩
  intro hk
  obtain ⟨n, rfl⟩ := Nat.exists_eq_add_of_le hk
  have hheader : (PcapWriter.globalHeader linkType).length = 24 := rfl
  have hpackets : ∀ m, fileLength (stamped.map Prod.snd) m
      = 24 + (PcapRecord.format.writeAll (records.take m)).length := by
    intro m
    rw [← length_captureBytes linkType hrecords, captureBytes, List.length_append, hheader]
  let rest := (PcapRecord.format.writeAll records).take n
  refine ⟨PcapRecord.format.whole records n,
    { linkType := linkType.code, records := PcapRecord.format.readAll rest.length rest },
    ?_, rfl, ?_, ?_⟩
  · rw [captureBytes, List.take_append, hheader, Nat.add_sub_cancel_left,
      List.take_of_length_le (by omega)]
    exact readCapture_header linkType _
  · dsimp only [rest]
    rw [PcapRecord.format.readAll_take records n (Nat.le_refl _)]
    exact List.forall₂_take _ hrecords
  · have hgreatest := PcapRecord.format.whole_isGreatest records n
    have hlength := hrecords.length_eq
    constructor
    · refine ⟨hlength ▸ hgreatest.1.1, ?_⟩
      rw [hpackets]
      exact Nat.add_le_add_left hgreatest.1.2 24
    · rintro m ⟨hm, hfits⟩
      rw [hpackets] at hfits
      exact hgreatest.2 ⟨hlength ▸ hm, Nat.le_of_add_le_add_left hfits⟩

/-- A beginning of a capture file is one of the same packets. -/
theorem IsCapture.of_beginning (h : IsCapture linkType stamped bytes) (hbegins : file <+: bytes) :
    IsCapture linkType stamped file := by
  obtain ⟨rest, rfl⟩ := hbegins
  intro k hk
  have hlonger : k ≤ (file ++ rest).length := by
    rw [List.length_append]
    omega
  have hsame : (file ++ rest).take k = file.take k := List.take_append_of_le_length hk
  rw [← hsame]
  exact h k hlonger

/-! ## What a writer was given -/

/-- The writer was given the capture of the packets. -/
def Captured (linkType : PcapLinkType) (stamped : List (Timestamp × Bytes)) (writer : PcapWriter) :
    Prop :=
  writer.writer.capacity = DEFAULT_BUF_SIZE ∧
    ∃ records, List.Forall₂ PcapRecord.Of records stamped ∧
      writer.writer.given = captureBytes linkType records

/-- The writer was given the capture of the packets, with some of the last record or all of it. -/
def PartlyCaptured (linkType : PcapLinkType) (stamped : List (Timestamp × Bytes))
    (writer : PcapWriter) : Prop :=
  writer.writer.capacity = DEFAULT_BUF_SIZE ∧
    ∃ records, List.Forall₂ PcapRecord.Of records stamped ∧
      captureBytes linkType (records.take (stamped.length - 1)) <+: writer.writer.given ∧
      writer.writer.given <+: captureBytes linkType records

theorem Captured.partly (h : Captured linkType stamped writer) :
    PartlyCaptured linkType stamped writer := by
  obtain ⟨hcapacity, records, hrecords, hgiven⟩ := h
  refine ⟨hcapacity, records, hrecords, ?_, hgiven ▸ List.prefix_refl _⟩
  rw [hgiven]
  refine (List.prefix_append_right_inj _).mpr
    ⟨PcapRecord.format.writeAll (records.drop (stamped.length - 1)), ?_⟩
  unfold RecordFormat.writeAll
  rw [← List.flatMap_append, List.take_append_drop]

/-- A file that a writer leaves: what has reached it when the program is killed, or what there is
after the writer was dropped. -/
def PcapWriter.Leaves (writer : PcapWriter) (file : Bytes) : Prop :=
  file = writer.writer.file ∨
    ∃ answer : Option (Nat × IoError), file = writer.writer.dropped answer

theorem PcapWriter.Leaves.prefix_given (h : writer.Leaves file) : file <+: writer.writer.given := by
  rcases h with rfl | ⟨answer, rfl⟩
  · exact List.prefix_append _ _
  · exact writer.writer.dropped_begins answer

/-- What is missing is in the buffer. -/
theorem PcapWriter.Leaves.length_le (h : writer.Leaves file) :
    writer.writer.given.length ≤ file.length + writer.writer.capacity := by
  have hfile : writer.writer.file <+: file := by
    rcases h with rfl | ⟨answer, rfl⟩
    · exact List.prefix_refl _
    · exact writer.writer.prefix_dropped answer
  have hle := hfile.length_le
  have hfits := writer.writer.fits
  rw [BufWriter.given, List.length_append]
  omega

/-- A file that is left is a capture of the packets, and all but a buffer of it has reached it. -/
theorem Captured.leaves (h : Captured linkType stamped writer) (hleaves : writer.Leaves file) :
    IsCapture linkType stamped file ∧
      fileLength (stamped.map Prod.snd) stamped.length ≤ file.length + DEFAULT_BUF_SIZE := by
  obtain ⟨hcapacity, records, hrecords, hgiven⟩ := h
  have hbegins := hleaves.prefix_given
  have hlength := hleaves.length_le
  rw [hgiven] at hbegins hlength
  refine ⟨(isCapture_of_records linkType hrecords).of_beginning hbegins, ?_⟩
  rw [← length_captureBytes linkType hrecords, ← hcapacity, ← hrecords.length_eq, List.take_length]
  exact hlength

/-- The same, but for the last packet. -/
theorem PartlyCaptured.leaves (h : PartlyCaptured linkType stamped writer)
    (hleaves : writer.Leaves file) :
    IsCapture linkType stamped file ∧
      fileLength (stamped.map Prod.snd) (stamped.length - 1) ≤ file.length + DEFAULT_BUF_SIZE := by
  obtain ⟨hcapacity, records, hrecords, hall, hgiven⟩ := h
  have hbegins := hleaves.prefix_given.trans hgiven
  refine ⟨(isCapture_of_records linkType hrecords).of_beginning hbegins, ?_⟩
  rw [← length_captureBytes linkType hrecords, ← hcapacity]
  exact hall.length_le.trans hleaves.length_le

/-- A writer whose last flush is answered leaves all that it was given. -/
theorem PartlyCaptured.dropped (h : PartlyCaptured linkType stamped writer) :
    fileLength (stamped.map Prod.snd) (stamped.length - 1)
      ≤ (writer.writer.dropped (none : Option (Nat × IoError))).length := by
  obtain ⟨-, records, hrecords, hall, -⟩ := h
  rw [← length_captureBytes linkType hrecords]
  exact hall.length_le

/-- A new writer has the header in its buffer: nothing has reached the file that could fail. -/
theorem create_captured (linkType : PcapLinkType) (disk : Nat → Option (Nat × IoError)) :
    ∃ writer, PcapWriter.create linkType none disk = .ok writer ∧ Captured linkType [] writer := by
  cases linkType with
  | ethernet => exact ⟨_, rfl, rfl, [], .nil, rfl⟩
  | rawIpv4 => exact ⟨_, rfl, rfl, [], .nil, rfl⟩

theorem writePacket_eq (hshort : packet.length < 2 ^ 32) :
    writer.writePacket (.ok timestamp) disk packet =
      ((writer.writer.writePieces disk (PcapWriter.packetPieces timestamp packet)).1,
        { writer :=
            (writer.writer.writePieces disk (PcapWriter.packetPieces timestamp packet)).2 }) :=
  if_pos hshort

/-- A packet goes to the end of the capture, or a part of it if the file fails. -/
theorem Captured.writePacket (h : Captured linkType stamped writer)
    (hshort : packet.length < 2 ^ 32) :
    PartlyCaptured linkType (stamped ++ [(timestamp, packet)])
        (writer.writePacket (.ok timestamp) disk packet).2 ∧
      ((writer.writePacket (.ok timestamp) disk packet).1 = none →
        Captured linkType (stamped ++ [(timestamp, packet)])
          (writer.writePacket (.ok timestamp) disk packet).2) := by
  obtain ⟨hcapacity, records, hrecords, hgiven⟩ := h
  let record : PcapRecord := ⟨timestamp.secs.toUInt32, timestamp.subsecMicros, packet, hshort⟩
  have hrecord : record.Of (timestamp, packet) := ⟨rfl, rfl, rfl⟩
  have hmore :
      List.Forall₂ PcapRecord.Of (records ++ [record]) (stamped ++ [(timestamp, packet)]) :=
    List.rel_append hrecords (.cons hrecord .nil)
  have hbytes : captureBytes linkType (records ++ [record])
      = captureBytes linkType records ++ record.write := by
    unfold captureBytes RecordFormat.writeAll
    rw [List.flatMap_append, List.flatMap_singleton, List.append_assoc]
    rfl
  have hpieces : (PcapWriter.packetPieces timestamp packet).flatten = record.write := by
    simp only [PcapWriter.packetPieces, PcapRecord.write, List.flatten_cons, List.flatten_nil,
      List.append_nil, List.append_assoc, record]
  have hwritten :=
    writer.writer.writePieces_written disk (PcapWriter.packetPieces timestamp packet)
  rw [hpieces] at hwritten
  rw [writePacket_eq hshort]
  constructor
  · refine ⟨hwritten.capacity.trans hcapacity, _, hmore, ?_, ?_⟩
    · rw [List.length_append, List.length_singleton, Nat.add_sub_cancel, ← hrecords.length_eq,
        List.take_left, ← hgiven]
      exact hwritten.keeps
    · rw [hbytes, ← hgiven]
      exact hwritten.given
  · intro hnone
    refine ⟨hwritten.capacity.trans hcapacity, _, hmore, ?_⟩
    rw [hbytes, ← hgiven]
    exact hwritten.whole hnone

/-- A call that fails has the error of the clock or of the file. -/
theorem writePacket_failed {now : Except IoError Timestamp} (hshort : packet.length < 2 ^ 32)
    (h : (writer.writePacket now disk packet).1 = some err) :
    now = .error err ∨ ∃ call count, disk call = some (count, err) := by
  cases now with
  | error other =>
      obtain rfl := Option.some.inj h
      exact Or.inl rfl
  | ok timestamp =>
      rw [writePacket_eq hshort] at h
      exact Or.inr (BufWriter.writePieces_failed h)

end Minnow
