import ShellSettings.Map
import ShellSettings.Json.Double
import ShellSettings.Json.Decimal
import ShellSettings.Json.Basic
import ShellSettings.Json.Printer
import ShellSettings.Json.Canonical
import ShellSettings.Json.Draft
import ShellSettings.Json.ReadError
import ShellSettings.Json.Source
import ShellSettings.Json.Record
import ShellSettings.Text.Blank
import ShellSettings.Text.Shown
import ShellSettings.Text.Quoted
import ShellSettings.Digest.Sha256
import ShellSettings.Document.Basic
import ShellSettings.Document.Codec
import ShellSettings.Document.Path
import ShellSettings.Document.Cascade
import ShellSettings.Document.Wallpaper
import ShellSettings.Document.Reference
import ShellSettings.Catalog.Feed
import ShellSettings.Disk.FilePath
import ShellSettings.Disk.FileTree
import ShellSettings.Tuning.Toml
import ShellSettings.Tuning.Basic
import ShellSettings.Store.FreshId
import ShellSettings.Store.RestartPolicy
import ShellSettings.Store.Basic
import ShellSettings.Store.Command
import ShellSettings.Host.Error
import ShellSettings.Host.Envelope
import ShellSettings.Host.Transport
import ShellSettings.Host.Memory
import ShellSettings.Host.Script
import ShellSettings.Host.Disk
import ShellSettings.Host.Any
import ShellSettings.Sync.Guard
import ShellSettings.Sync.Session
import ShellSettings.Cli.Arguments
import ShellSettings.Cli.Command
import ShellSettings.Cli.Run
import ShellSettings.Main
import ShellSettings.Proofs.Document.ReferenceLaws
import ShellSettings.Proofs.Document.SlotLaws
import ShellSettings.Proofs.Host.MemoryLaws
import ShellSettings.Proofs.MapLaws
import ShellSettings.Proofs.Sync.Run
import ShellSettings.Proofs.Json.SortedLaws
import ShellSettings.Proofs.Json.SameLaws
import ShellSettings.Proofs.Json.RecordLaws
import ShellSettings.Proofs.Document.RoundTrip
import ShellSettings.Proofs.Document.EditLaws
import ShellSettings.Proofs.Store.EditLaws
import ShellSettings.Proofs.Store.CommandLaws
import ShellSettings.Proofs.Store.Availability
import ShellSettings.Proofs.Sync.ClientLaws
import ShellSettings.Proofs.Sync.AnyHost
import ShellSettings.Proofs.Sync.Accounts
import ShellSettings.Proofs.Sync.MemoryRun
import ShellSettings.Proofs.Sync.Integrity
import ShellSettings.Proofs.Sync.EchoFirst
import ShellSettings.Proofs.Sync.Convergence
import ShellSettings.Proofs.Sync.ResultFirst
import ShellSettings.Proofs.Sync.Superseded
import ShellSettings.Proofs.Sync.FailedSave
import ShellSettings.Proofs.Json.DecimalLaws
import ShellSettings.Proofs.Json.NumberText
import ShellSettings.Proofs.Json.StringText
import ShellSettings.Proofs.Json.TextLaws
import ShellSettings.Proofs.Document.TextRoundTrip
import ShellSettings.Proofs.Json.CanonicalLaws
import ShellSettings.Proofs.Document.DigestLaws
import ShellSettings.Proofs.Disk.FileTreeLaws
import ShellSettings.Proofs.Disk.PathLaws
import ShellSettings.Proofs.Json.CursorLaws
import ShellSettings.Proofs.Json.DoubleLaws
import ShellSettings.Proofs.Disk.DirectoryLaws
import ShellSettings.Proofs.Host.DiskLaws
import ShellSettings.Proofs.Host.ExternalEdits
import ShellSettings.Proofs.Host.OwnWrites
import ShellSettings.Proofs.Host.RequestLaws
import ShellSettings.Proofs.Store.Lasting
import ShellSettings.Proofs.Sync.DiskRun
import ShellSettings.Proofs.Sync.Reload
import ShellSettings.Proofs.Json.LookupLaws
import ShellSettings.Proofs.Document.UnknownMembers
import ShellSettings.Proofs.Store.Supplied
import ShellSettings.Proofs.Sync.HandOver
import ShellSettings.Proofs.Sync.Outstanding
import ShellSettings.Proofs.Host.FilesKept
import ShellSettings.Proofs.Sync.FailedLoad
import ShellSettings.Proofs.Store.CatalogOrder
import ShellSettings.Proofs.Cli.SessionLaws
import ShellSettings.Proofs.Cli.PruneAndFix
import ShellSettings.Proofs.Cli.AllOrNothing
import ShellSettings.Proofs.Store.Revisions
import ShellSettings.Proofs.Host.EnvelopeLaws
import ShellSettings.Proofs.Document.MergeLaws
import ShellSettings.Proofs.Document.PathLaws
import ShellSettings.Proofs.Document.Parts
import ShellSettings.Proofs.Document.Rewriting
import ShellSettings.Proofs.Store.PatchLaws
import ShellSettings.Proofs.Store.PatchFrame
import ShellSettings.Proofs.Store.PatchAgain
import ShellSettings.Proofs.Document.CascadeLaws
import ShellSettings.Proofs.Document.RepairLaws
import ShellSettings.Proofs.Store.CollectionDeletion
import ShellSettings.Proofs.Document.Placing
import ShellSettings.Proofs.Store.PatchEquivalents
import ShellSettings.Proofs.Store.WallpaperLevels
import ShellSettings.Proofs.Sync.AwaitedResult
import ShellSettings.Proofs.Sync.OnlyClient
import ShellSettings.Proofs.Sync.BlockingSave
import ShellSettings.Proofs.Sync.SuppressionWindow
import ShellSettings.Proofs.Document.PathLenses
import ShellSettings.Proofs.Document.InstanceLaws
import ShellSettings.Proofs.Store.FreshIdLaws
import ShellSettings.Proofs.Store.Creation
import ShellSettings.Proofs.Store.NewInstance
import ShellSettings.Proofs.Store.RestartLaws
import ShellSettings.Proofs.Sync.RestartFlag
