import AioMoqt.Agent.Proofs.Agreement
import AioMoqt.Agent.Proofs.WriterRuns
import AioMoqt.Delivery.Proofs.EncodeOnce
import AioMoqt.Delivery.Proofs.Fins
import AioMoqt.Delivery.Proofs.HistoryFetch
import AioMoqt.Delivery.Proofs.HistoryObjects
import AioMoqt.Media.Locmaf.Proofs.GroupAgreement
import AioMoqt.Media.Proofs.AnnexB
import AioMoqt.Media.Proofs.CatalogApply
import AioMoqt.Media.Proofs.MpegTs
import AioMoqt.Media.Proofs.Subscriber
import AioMoqt.Media.Proofs.Timing
import AioMoqt.MediaStats.Proofs.Account
import AioMoqt.MediaStats.Proofs.Playout
import AioMoqt.Messages.Proofs.LargestObject
import AioMoqt.Messages.Proofs.RangeFilters
import AioMoqt.Messages.Proofs.Subgroup
import AioMoqt.Messages.Proofs.TrailingBlocks
import AioMoqt.Publisher.Proofs.Fetch
import AioMoqt.Publisher.Proofs.Streams
import AioMoqt.Publisher.Proofs.Windows
import AioMoqt.Relay.Proofs.Cache
import AioMoqt.Relay.Proofs.Fanout
import AioMoqt.Relay.Proofs.FetchAnswer
import AioMoqt.Relay.Proofs.FetchUpstream
import AioMoqt.Relay.Proofs.NamespaceView
import AioMoqt.Session.Proofs.Admission
import AioMoqt.Session.Proofs.AuthToken
import AioMoqt.Session.Proofs.Control
import AioMoqt.Session.Proofs.Credit
import AioMoqt.Session.Proofs.Holds
import AioMoqt.Session.Proofs.StreamWrites
import AioMoqt.Session.Proofs.TokenRuns
import AioMoqt.Session.Proofs.UniStreams
import AioMoqt.Stats.Proofs.LossAccounts
import AioMoqt.Stats.Proofs.Memory
import AioMoqt.Session.Proofs.RaisingCalls
