import Glomop.Share.Notification
import Glomop.Share.HostList
import Glomop.Share.Options
import Glomop.Share.Queues
import Glomop.Share.TimerQueue
import Glomop.Network.Parsing
import Glomop.Network.Multicast
import Glomop.Network.RawOStream
import Glomop.Database.TypeMatching
import Glomop.Ptm.Injection
import Glomop.Ptm.Accounting
import Glomop.Ptm.Reload
import Glomop.Ptm.Search
import Glomop.Ptm.LaunchLine
import Glomop.Ptm.LoadHistory
import Glomop.Cache.Lottery
import Glomop.Cache.References
import Glomop.Cache.Malformed
import Glomop.Cache.AskForDistiller
import Glomop.Dist.Average
import Glomop.Dist.Attachment
import Glomop.Dist.Extractions
import Glomop.ClientLib.Failover
import Glomop.ClientLib.AvlBalance
import Glomop.ClientLib.HeaderContent
import Glomop.ClientLib.Icp
import Glomop.ClientLib.Part
import Glomop.ClientLib.Redirect
import Glomop.ClientLib.Times
import Glomop.ClientLib.TsStrtok
import Glomop.ClientLib.HttpSend
import Glomop.ClientLib.Tunnel
import Glomop.Frontend.ThrQueue
import Glomop.Frontend.MagicSafety
import Glomop.Frontend.ClientAddress
import Glomop.Frontend.DistillerType
import Glomop.Frontend.Handover
import Glomop.Frontend.PrefForm
import Glomop.Frontend.PostBody
import Glomop.Text2doc.Compress
import Glomop.HtmlMunger.Munge
import Glomop.HtmlMunger.OutputBuffer
import Glomop.Frontend.WingReply
import Glomop.Playback.CountParallel
import Glomop.Playback.Logparse
import Glomop.Playback.FdSlots
import Glomop.Playback.InsertHost
import Glomop.Text2doc.FirstPass
