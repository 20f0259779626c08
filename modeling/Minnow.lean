import Minnow.Library.Exec
import Minnow.Library.Run
import Minnow.Library.SortedMap
import Minnow.Library.Slice
import Minnow.Library.Fragments
import Minnow.Library.Tiling
import Minnow.ByteStream
import Minnow.WrappingIntegers
import Minnow.TcpMessage
import Minnow.Reassembler.Basic
import Minnow.Reassembler.Loops
import Minnow.Reassembler.Insert
import Minnow.Reassembler.Stream
import Minnow.TcpReceiver
import Minnow.TcpSender.Basic
import Minnow.TcpSender.Segments
import Minnow.TcpSender.Invariant
import Minnow.TcpSender.Push
import Minnow.TcpSender.Steps
import Minnow.TcpSender.Run
import Minnow.TcpSender.FlowControl
import Minnow.TcpSegment
import Minnow.TcpConnection.Basic
import Minnow.TcpConnection.Reset
import Minnow.Network.Basic
import Minnow.Network.Link
import Minnow.Network.Pair
import Minnow.Network.Safety
import Minnow.Network.Progress
import Minnow.Checksum
import Minnow.IcmpMessage
import Minnow.IpHost.Basic
import Minnow.IpHost.Payloads
import Minnow.Reassembler.Hostile
import Minnow.TcpConnection.NotStuck
import Minnow.TcpSender.Timers
import Minnow.Library.Termination
import Minnow.Network.Exchange
import Minnow.TcpConnection.Status
import Minnow.Network.Operations
import Minnow.IpHost.Safety
import Minnow.IpHost.Foreign
import Minnow.IpHost.Window
import Minnow.ArpMessage
import Minnow.NetworkInterface.Basic
import Minnow.Library.Merge
import Minnow.NetworkInterface.Journal
import Minnow.Library.Resolution
import Minnow.NetworkInterface.Link
import Minnow.Codec.Tcp
import Minnow.Codec.Ipv4
import Minnow.TcpSender.Fill
import Minnow.ByteStream.Fifo
import Minnow.TcpReceiver.Feedback
import Minnow.NetworkInterface.Clock
import Minnow.NetworkInterface.Aging
import Minnow.Router.Basic
import Minnow.NetworkInterface.Inbound
import Minnow.Router.Forwarding
import Minnow.Router.Transparency
import Minnow.Checksum.Rfc1071
import Minnow.Codec.Corruption
import Minnow.TcpSender.Cumulative
import Minnow.TcpSender.Starvation
import Minnow.TcpSender.Chunking
import Minnow.Reassembler.Refusal
import Minnow.TcpReceiver.Refusal
import Minnow.Reassembler.Conflict
import Minnow.Codec.Parsers
import Minnow.Library.FirstMax
import Minnow.Router.LongestPrefix
import Minnow.Codec.Icmp
import Minnow.IpHost.Ping
import Minnow.Reassembler.Exact
import Minnow.Network.Completion
import Minnow.Internet.Basic
import Minnow.Internet.Refinement
import Minnow.Internet.Safety
import Minnow.Internet.Shipping
import Minnow.Lan.Basic
import Minnow.Lan.Completion
import Minnow.IpHost.Sending
import Minnow.Library.Records
import Minnow.Pcap
import Minnow.TapHost.Capture
import Minnow.TapHost.Safety
import Minnow.TunHost
import Minnow.TunHost.Safety
import Minnow.Codec.Link
import Minnow.Library.Potential
import Minnow.Mesh.Basic
import Minnow.Mesh.Lineage
import Minnow.Mesh.Storm
import Minnow.Routed.Basic
import Minnow.Routed.Refinement
import Minnow.Routed.Safety
import Minnow.Mesh.Delivery
import Minnow.Routed.Completion
import Minnow.Library.Io
import Minnow.Outside
import Minnow.Outside.Follows
import Minnow.TapMain
import Minnow.TapMain.Refinement
import Minnow.TapMain.Safety
import Minnow.TunMain
import Minnow.TunMain.Refinement
import Minnow.TunMain.Safety
