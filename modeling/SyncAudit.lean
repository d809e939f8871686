import SyncAudit.Main
import SyncAudit.Proofs.Audit.Exporting
import SyncAudit.Proofs.Audit.FewerIds
import SyncAudit.Proofs.Audit.MalformedLines
import SyncAudit.Proofs.Audit.MatchedIds
import SyncAudit.Proofs.Audit.MissingMarker
import SyncAudit.Proofs.Audit.NeighbouringMarkers
import SyncAudit.Proofs.Audit.OtherSettings
import SyncAudit.Proofs.Audit.Tallies
import SyncAudit.Proofs.CommandLine.Agreement
import SyncAudit.Proofs.CommandLine.OutputFile
import SyncAudit.Proofs.CommandLine.SettingsFile
import SyncAudit.Proofs.IdSet.Contents
import SyncAudit.Proofs.RepoId.Keys
import SyncAudit.Proofs.Report.Statuses
import SyncAudit.Proofs.Scan.Accounting
import SyncAudit.Proofs.Scan.HiddenNames
import SyncAudit.Proofs.Scan.LeadingBack
import SyncAudit.Proofs.Scan.Listability
import SyncAudit.Proofs.Scan.Stations
import SyncAudit.Proofs.Scan.WithoutLinks
import SyncAudit.Proofs.Settings.Loading
import SyncAudit.Proofs.Settings.MarkerVariable
import SyncAudit.Settings.Decode
