import Quagga.Dbgp.WiserNetwork
import Quagga.Dbgp.WiserPath
import Quagga.Bgp.TreatAsWithdraw
import Quagga.Bgp.UpdateGuard
import Quagga.Bgp.TransitSafety
import Quagga.Bgp.DeterministicMed
import Quagga.Bgp.AdjOutSync
import Quagga.Bgp.Segmentation
import Quagga.Bgp.IdleQuiet
import Quagga.Bgp.CapabilityMessage
import Quagga.Bgp.AggregateRun
import Quagga.Lib.RouteTableIteration
import Quagga.Bgp.DampRun
import Quagga.Isis.TlvContained
import Quagga.Babel.UpdateRun
import Quagga.Dbgp.ReaderSafety
import Quagga.Dbgp.PathletImport
import Quagga.Dbgp.WiserLinkCosts
import Quagga.Dbgp.PathletSubgraph
import Quagga.Zebra.RouteMessage
import Quagga.Bgp.AsPathEdits
import Quagga.Bgp.AsPathRoundTrip
import Quagga.Bgp.KeyAttribute
import Quagga.Bgp.PacketAttribute
import Quagga.Bgp.OpenPeek
import Quagga.Bgp.VpnField
import Quagga.Bgp.Ecommunity
import Quagga.Lib.Checksum
import Quagga.Babel.RouteLookup
import Quagga.Isis.CsnpRange
import Quagga.Lib.Scheduler
