import S2OPC.Common.EncoderRoundTrip
import S2OPC.Common.DictRun
import S2OPC.Services.UserToken
import S2OPC.Loaders.Users
import S2OPC.AddressSpace.WriteTyping
import S2OPC.AddressSpace.RangeRoundTrip
import S2OPC.AddressSpace.Access
import S2OPC.Services.CallGuard
import S2OPC.Services.SessionTimers
import S2OPC.Channels.RequestReports
import S2OPC.Services.RequestCallbacks
import S2OPC.Channels.RequestIds
import S2OPC.Channels.Padding
import S2OPC.Channels.Negotiation
import S2OPC.Channels.TokenAgreement
import S2OPC.Services.Notifications
import S2OPC.Services.PublishRequests
import S2OPC.Services.ContinuationPoints
import S2OPC.Services.PathResults
import S2OPC.Common.NodeIdText
import S2OPC.Common.NodeIdDict
import S2OPC.Common.XsdTime
import S2OPC.Common.BufferMemory
import S2OPC.Services.Republish
import S2OPC.Lib.Comparison
import S2OPC.Common.BuiltinCompare
import S2OPC.Common.VariantCompare
import S2OPC.AddressSpace.RangeText
import S2OPC.Lib.SortedList
import S2OPC.Common.EventTimers
import S2OPC.Common.AsymmetricBlocks
import S2OPC.Services.PasswordPolicy
import S2OPC.Lib.SerialNumber
import S2OPC.Sockets.WriteQueue
import S2OPC.PubSub.Replay
import S2OPC.Services.Lifetime
import S2OPC.Services.SessionTokens
import S2OPC.Lib.Tally
import S2OPC.Services.PendingRequests
import S2OPC.Services.UserRights
import S2OPC.Channels.FreshIds
import S2OPC.Common.CaFilter
import S2OPC.Common.UriSplit
import S2OPC.Sockets.ConnectAttempts
import S2OPC.Client.SynchronousResults
import S2OPC.Common.DictLoad
import S2OPC.Lib.Segment
import S2OPC.Common.LinkedList
import S2OPC.PubSub.AddressUri
import S2OPC.Channels.Delivery
import S2OPC.Common.Encodeable
import S2OPC.Services.Mediation
