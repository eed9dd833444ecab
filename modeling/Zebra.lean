import Zebra.Bgpd.DecisionOrder
import Zebra.Bgpd.UpdateMandatory
import Zebra.Bgpd.AttrIntern
import Zebra.Bgpd.DampLinked
import Zebra.Zebrad.Redistribute
import Zebra.Zebrad.RibKernel
import Zebra.Zebrad.StaticAgree
import Zebra.Bgpd.CollisionRuns
import Zebra.Zebrad.ApiRoundTrip
import Zebra.Bgpd.OrfTransfer
import Zebra.Ospfd.LsdbRuns
import Zebra.Ospfd.NsmRuns
import Zebra.Lib.RoutemapWalk
import Zebra.Ospfd.Route
import Zebra.Ospfd.UniqueId
import Zebra.Bgpd.NexthopRuns
import Zebra.Lib.ThreadRuns
import Zebra.Ospfd.PacketBounds
import Zebra.Lib.CommandDispatch
import Zebra.Lib.PlistRuns
import Zebra.Ospf6d.MessageBounds
import Zebra.Ospfd.RefreshRuns
import Zebra.Zebrad.ReceptionBounds
import Zebra.Ospf6d.RouteRuns
import Zebra.Ripd.Steady
import Zebra.Ospfd.Checksum
import Zebra.Ospfd.LsUpdDrain
import Zebra.Ospfd.LsAckRuns
import Zebra.Bgpd.ClistRuns
import Zebra.Ospfd.AsePreference
import Zebra.Ospfd.Hello
import Zebra.Ripd.AuthAgreement
import Zebra.Ospfd.SpfFirst
import Zebra.Ospfd.IntraCost
import Zebra.Bgpd.OrfBounds
import Zebra.Bgpd.RdText
import Zebra.Bgpd.VpnNlri
import Zebra.Ospf6d.LsdbLookupNext
import Zebra.Bgpd.Community
import Zebra.Bgpd.AspathText
import Zebra.Bgpd.DynamicCapability
import Zebra.Lib.PlistConfig
import Zebra.Lib.Pqueue
import Zebra.Bgpd.Ecommunity
import Zebra.Lib.StreamRuns
import Zebra.Bgpd.AspathExtension
import Zebra.Lib.PrefixText
import Zebra.Lib.Linklist
import Zebra.Lib.PrefixMask
import Zebra.Lib.Hash
import Zebra.Bgpd.RibOrigins
import Zebra.Ospfd.DrSegment
