import Capnp.KjAsync.HttpAnswers
import Capnp.KjAsync.HttpServer
import Capnp.Library.Frame
import Capnp.Library.Fuel
import Capnp.Library.Ledger
import Capnp.Library.RefCount
import Capnp.Library.Table
import Capnp.Library.Transition
import Capnp.Rpc.AwaitRelease
import Capnp.Rpc.Dispatch
import Capnp.Rpc.HandlerAction
import Capnp.Rpc.HeldResolves
import Capnp.Rpc.OperationKind
import Capnp.Rpc.OperationQueue
import Capnp.Rpc.PeerLifetime
import Capnp.Rpc.PendingCalls
import Capnp.Rpc.PromiseCapability
import Capnp.Rpc.RequestCaps
import Capnp.Rpc.Targets
import Capnp.Runtime.Builder
import Capnp.Runtime.BuilderFrame
import Capnp.Runtime.Message
import Capnp.Runtime.Reader
import Capnp.Runtime.ReaderDefaults
import Capnp.Runtime.CopyStruct
import Capnp.Rpc.TargetIds
import Capnp.Rpc.VatConnection
import Capnp.Rpc.VatTables
import Capnp.Rpc.MultiVatPeers
import Capnp.Rpc.HandlerReply
import Capnp.KjAsync.HttpHeaders
import Capnp.Runtime.DataViews
import Capnp.KjAsync.PromiseTable
import Capnp.KjAsync.PromiseCombinators
import Capnp.KjAsync.PromiseAwaits
import Capnp.Rpc.ResponseRelay
import Capnp.Runtime.CheckedViews
import Capnp.Rpc.BatchRelease
import Capnp.Rpc.IdCodecs
import Capnp.KjAsync.HttpServerRequests
import Capnp.Rpc.PayloadRefs
import Capnp.Rpc.SturdyRefs
import Capnp.Rpc.ThirdPartyExchange
import Capnp.Plugin.Names
import Capnp.Plugin.Servers
import Capnp.Library.Walk
import Capnp.Plugin.Imports
import Capnp.Plugin.ImportsComplete
import Capnp.Library.FloatPattern
import Capnp.Runtime.Floats
import Capnp.Runtime.Scalars
import Capnp.Plugin.ScalarAccessors
import Capnp.Runtime.ListWriters
import Capnp.Plugin.BuilderOperations
import Capnp.Plugin.UnionSelection
import Capnp.Library.DepthFirst
import Capnp.Plugin.RecursiveStructs
import Capnp.Library.StringLiteral
import Capnp.Plugin.TextLiterals
import Capnp.Plugin.NodeNames
import Capnp.Plugin.ValueSetterNames
import Capnp.Rpc.PeerOwners
import Capnp.Rpc.SturdyRestores
import Capnp.Runtime.Packing
import Capnp.Runtime.PackedGroups
import Capnp.Runtime.PackRoundTrip
import Capnp.Runtime.Framing
import Capnp.Library.BufferedOutput
import Capnp.Runtime.PackedWriter
import Capnp.Library.WordFields
import Capnp.Runtime.PointerWords
import Capnp.Runtime.PointerTargets
import Capnp.Runtime.SameContent
import Capnp.Runtime.CopyContent
import Capnp.Runtime.ListReaders
import Capnp.Runtime.CheckedReaders
import Capnp.Library.BitFields
import Capnp.Runtime.FieldBits
import Capnp.Runtime.FieldRuns
import Capnp.Runtime.FreshObjects
import Capnp.Runtime.ObjectRoundTrips
import Capnp.Runtime.ListRoundTrips
import Capnp.Runtime.BuildRuns
import Capnp.Runtime.BuildMeaning
import Capnp.Runtime.CleanCopies
import Capnp.Runtime.SegmentViews
