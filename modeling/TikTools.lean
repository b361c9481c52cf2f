import TikTools.Lib.Json
import TikTools.Lib.Table
import TikTools.Lib.Text
import TikTools.Competitions.Model
import TikTools.Control.Client
import TikTools.Competitions.Outbox
import TikTools.Lib.FileTree
import TikTools.Lib.Effect
import TikTools.Plugins.Installer
import TikTools.Plugins.Manager
import TikTools.Plugins.Registry
import TikTools.Sync.Staging
import TikTools.Points.Resets
import TikTools.Plugins.Undo
import TikTools.Plugins.NativeLibs
import TikTools.Plugins.Policies
import TikTools.Plugins.Review
import TikTools.Plugins.Spec
import TikTools.Plugins.Destinations
import TikTools.Aggregation.Sound
import TikTools.Aggregation.Engine
import TikTools.Rankings.Emissions
import TikTools.Index.Published
import TikTools.Index.Agreement
import TikTools.Lib.IpAddr
import TikTools.Automation.PrivateNetwork
import TikTools.Automation.EventText
import TikTools.Live.Accounting
import TikTools.Live.Dedup
import TikTools.Live.Combos
import TikTools.Processors.Settings
import TikTools.Automation.OptionSources
import TikTools.Automation.Records
import TikTools.Automation.Projection
import TikTools.Processors.Merge
import TikTools.Automation.EmitChains
import TikTools.Templates.Params
import TikTools.Templates.Agreement
import TikTools.PluginEvents.Reported
import TikTools.Analytics.Delivery
import TikTools.Desktop.Transport
import TikTools.Desktop.Answered
import TikTools.Lib.Disk
import TikTools.Cloud.Consistency
import TikTools.Web.PairingLaw
import TikTools.Overlays.Revealed
import TikTools.Competitions.Selected
import TikTools.Sdk.Confinement
import TikTools.Sdk.Tarball
import TikTools.Sdk.Allowlist
import TikTools.RuleProfiles.Switching
import TikTools.Connection.Ownership
import TikTools.Napi.Stranded
import TikTools.Feed.Recovery
import TikTools.Feed.Recovered
import TikTools.Lib.Selection
import TikTools.Lib.Compare
import TikTools.Aggregation.Votes
import TikTools.Sync.Rebuild
import TikTools.Competitions.Once
import TikTools.Competitions.Admission
import TikTools.Competitions.Accounting
import TikTools.Competitions.Replays
import TikTools.Tiktok.Cooled
import TikTools.Widgets.Attached
import TikTools.Aggregation.Tokens
import TikTools.Aggregation.Failures
import TikTools.Aggregation.Daily
import TikTools.Competitions.Restart
import TikTools.Competitions.Timing
import TikTools.Competitions.Tickets
import TikTools.Competitions.Scanned
import TikTools.Points.Counted
import TikTools.Points.Watermarks
import TikTools.Points.Scoped
import TikTools.Rankings.Contributions
import TikTools.Plugins.Fetched
import TikTools.Automation.Globals
import TikTools.Automation.Preview
import TikTools.Automation.Cooldowns
import TikTools.Feed.Paging
import TikTools.Live.Likes
import TikTools.Analytics.Frames
import TikTools.Chat.Segments
import TikTools.Widgets.Alerts
import TikTools.Widgets.Rankings
