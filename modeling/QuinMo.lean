import QuinMo.Subscription.Idempotent
import QuinMo.Selection.References
import QuinMo.Selection.AllOrNothing
import QuinMo.Config.Switch
import QuinMo.Config.Tags
import QuinMo.Config.DialPath
import QuinMo.Config.NodeDns
import QuinMo.Libcore.H3Race
import QuinMo.Bg.Reload
import QuinMo.Log.Secrets
import QuinMo.Profiles.Dragging
import QuinMo.Profiles.Duplicates
import QuinMo.Bg.LooperRace
import QuinMo.Bg.NetworkListener
import QuinMo.Libcore.BoxLifecycle
import QuinMo.Bg.ProcessPool
import QuinMo.Subscription.ExecuteUpdate
import QuinMo.Libcore.Assets
import QuinMo.Subscription.ClashOrder
import QuinMo.Libcore.Lookup
import QuinMo.Model.Defaults
import QuinMo.Chain.ChainSettings
import QuinMo.Config.MergeJson
import QuinMo.Traffic.Measured
import QuinMo.Traffic.Selector
import QuinMo.Libcore.DnsExchange
import QuinMo.Backup.StringSets
import QuinMo.Links.Ech
import QuinMo.Bg.PerApp
import QuinMo.Subscription.AutoUpdate
import QuinMo.Subscription.Survival
import QuinMo.Subscription.UserInfo
import QuinMo.Selection.Refinement
import QuinMo.Backup.Restore
import QuinMo.Links.Universal
import QuinMo.Links.ToLink
