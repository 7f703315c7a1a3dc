import Flightdeck.Components.Recovery
import Flightdeck.Cloud.EqualContent
import Flightdeck.Installations.Identity
import Flightdeck.Updates.FenixRecord
import Flightdeck.Display.Override
import Flightdeck.Cloud.WriteBudget
import Flightdeck.Integrity.Receipt
import Flightdeck.Winebus.Merged
import Flightdeck.Installations.Redo
import Flightdeck.Cloud.WriteSafety
import Flightdeck.Cloud.WriteHistory
import Flightdeck.Cloud.Write
import Flightdeck.Foundation.Effects
import Flightdeck.Cloud.PolicyLaws
import Flightdeck.Cloud.Policy
import Flightdeck.Cloud.Flow
import Flightdeck.Cloud.WorldRules
import Flightdeck.Cloud.Digests
import Flightdeck.SaveState.RoundTrip
import Flightdeck.Cloud.JournalRun
import Flightdeck.Cloud.Agreement
import Flightdeck.ConnectedStorage.FencingRun
import Flightdeck.Backend.Commit
import Flightdeck.Store.DurableLifetime
import Flightdeck.Network.TitlePolicy
import Flightdeck.Updates.Slots
import Flightdeck.Backend.StartCancelled
import Flightdeck.Installations.Selection
import Flightdeck.Backend.Admission
import Flightdeck.Store.CatalogResult
import Flightdeck.Store.LicenseNotifications
import Flightdeck.Network.ConnectivityRun
import Flightdeck.Cloud.ProcessGuardRun
import Flightdeck.Desktop.ServiceRun
import Flightdeck.Cloud.FileTime
import Flightdeck.Cloud.Inventory
import Flightdeck.Cloud.CachedDownload
import Flightdeck.Neural.Layouts
import Flightdeck.Neural.Records
import Flightdeck.Store.Coins
import Flightdeck.Store.CoinPage
import Flightdeck.GameInstall.Requests
import Flightdeck.GameInstall.Download
import Flightdeck.GameInstall.Supervision
import Flightdeck.Foundation.Links
import Flightdeck.Bootstrap.Extract
import Flightdeck.Bootstrap.Confinement
import Flightdeck.Json.Strict
import Flightdeck.Progress.Decoder
import Flightdeck.Logs.Bounded
import Flightdeck.UserInterface.Protocol
import Flightdeck.Graphics.Restored
import Flightdeck.StoreCheck.Outcome
import Flightdeck.DisplayRefresh.Restores
import Flightdeck.Foundation.Calls
import Flightdeck.Framework.Repair
import Flightdeck.Framework.RepairTrace
import Flightdeck.Installer.Quoting
import Flightdeck.Json.Reader
import Flightdeck.Fenix.Repaired
import Flightdeck.Packages.Orbx
import Flightdeck.Packages.Gsx
import Flightdeck.Navigraph.LoginStart
import Flightdeck.Packages.Install
import Flightdeck.Packages.Overlay
import Flightdeck.Foundation.Paths
import Flightdeck.Transaction.Relocated
import Flightdeck.GameSave.Buffer
import Flightdeck.Updates.Selection
import Flightdeck.Packages.Installed
import Flightdeck.Foundation.Versions
import Flightdeck.Cloud.ConsistentCut
import Flightdeck.GameSave.LocalAgreement
