import PluginHost.Main
import PluginHost.Connection
import PluginHost.Session
import PluginHost.Value.Data
import PluginHost.WeakLink
import PluginHost.Proofs.Call.Checks
import PluginHost.Proofs.Call.Exchange
import PluginHost.Call.Caller
import PluginHost.Proofs.Call.Conversation
import PluginHost.Proofs.Call.Renegotiation
import PluginHost.Proofs.Call.VectorForm
import PluginHost.Loader.Load
import PluginHost.Proofs.Loader.Steps
import PluginHost.Proofs.Loader.References
import PluginHost.Proofs.Loader.Vetted
import PluginHost.Proofs.Call.CopyBack
import PluginHost.Host.Interleaving
import PluginHost.Proofs.Host.FirstStored
import PluginHost.Proofs.Loader.Balance
import PluginHost.Proofs.Host.RecordRuns
import PluginHost.Proofs.Config.OwnerCheck
import PluginHost.Proofs.CommandLine.Openings
import PluginHost.Proofs.WeakLink.LastTarget
import PluginHost.Host.Linking
import PluginHost.Proofs.Host.LinkNotices
import PluginHost.Proofs.Info.Scan
import PluginHost.Proofs.Info.Lookup
import PluginHost.Proofs.Value.Data
import PluginHost.Proofs.Info.Data
import PluginHost.Proofs.Config.SavedFile
import PluginHost.Proofs.Data.Records
import PluginHost.Proofs.Call.Slots
import PluginHost.Files.Following
import PluginHost.Proofs.Files.Following
import PluginHost.Proofs.Files.Vetting
import PluginHost.Proofs.Files.Names
import PluginHost.Proofs.Loader.Opened
import PluginHost.Proofs.Loader.Settling
import PluginHost.Proofs.Call.HandingOut
import PluginHost.Proofs.Call.ServiceCalls
import PluginHost.Proofs.Data.Members
import PluginHost.Proofs.CommandLine.PluginArgument
import PluginHost.Proofs.CommandLine.Details
import PluginHost.Proofs.Number.Literals
import PluginHost.Proofs.Text.Pieces
import PluginHost.Proofs.Value.Literals
import PluginHost.Proofs.Call.Collecting
import PluginHost.Proofs.Loader.Reasons
