import NtfCore.Ntcq.ZeroCopy.Tracking
import NtfCore.Ntcs.SkipList.Refinement
import NtfCore.Ntcs.Chronology.Scheduling
import NtfCore.Ntsa.Syntax.Trees
import NtfCore.Ntsa.Syntax.Identifiers
import NtfCore.Ntsa.Syntax.Numbers
import NtfCore.Ntsa.EndpointRoundTrip
import NtfCore.Ntsa.DomainNameParts
import NtfCore.Ntsa.Uri.RoundTrip
import NtfCore.Ntcdns.Cache.Freshness
import NtfCore.Ntcr.StreamSocket.Dequeuing
import NtfCore.Ntcr.StreamSocket.BackPressure
import NtfCore.Ntcr.StreamSocket.WriteWatermark
import NtfCore.Ntcdns.Client.Holding
import NtfCore.Ntcr.StreamSocket.Completion
import NtfCore.Ntcr.StreamSocket.Handles
import NtfCore.Ntcr.StreamSocket.Retention
import NtfCore.Ntcs.ProactorDetachContext
import NtfCore.Ntsa.Data.Agreement
import NtfCore.Ntco.Epoll.Detachment
import NtfCore.Ntco.Epoll.Arming
import NtfCore.Ntco.Epoll.Registration
import NtfCore.Ntcd.Compression.RoundTrip
import NtfCore.Ntcr.StreamSocket.Lifecycle.Detaching
import NtfCore.Ntcr.StreamSocket.Lifecycle.Closing
import NtfCore.Ntcr.StreamSocket.Lifecycle.Retrying
import NtfCore.Ntcq.Watermark
import NtfCore.Ntsu.SocketAddress
import NtfCore.Ntco.IoRing.Submission
import NtfCore.Ntco.IoRing.Lifetime
import NtfCore.Ntco.IoRing.Waking
import NtfCore.Ntcr.ListenerSocket.Pairing
import NtfCore.Ntcs.Chronology.Deferring
import NtfCore.Ntcs.Chronology.Backing
import NtfCore.Ntcq.ZeroCopy.Readiness
import NtfCore.Ntcq.Batch
import NtfCore.Ntcdns.RecordRoundTrip
import NtfCore.Ntcdns.Grammar
import NtfCore.Ntcdns.HostDatabase
import NtfCore.Ntcdns.ClientConfig
import NtfCore.Ntcs.Draining
import NtfCore.Ntcr.StreamSocket.Descriptors.Handing
import NtfCore.Ntsa.Integer.Operands
import NtfCore.Ntsa.Integer.Numerals
import NtfCore.Ntsa.Ipv6Formatting
import NtfCore.Ntsa.Ipv4Grammar
import NtfCore.Ntsa.PortGrammar
import NtfCore.Ntsa.Uri.Escapes
import NtfCore.Ntsa.Uri.Scanning
import NtfCore.Ntcr.StreamSocket.Cancellation
import NtfCore.Ntcr.StreamSocket.Expiry
import NtfCore.Ntcd.Compression.Streams
import NtfCore.Ntca.Checksum
import NtfCore.Ntcr.StreamSocket.Lifecycle.Scheduling
import NtfCore.Ntcr.StreamSocket.Upgrading
import NtfCore.Ntsu.ReceiveControl
import NtfCore.Ntcs.BlobBufferUtil
import NtfCore.Ntcu.TimestampCorrelator
import NtfCore.Ntcs.Strand
