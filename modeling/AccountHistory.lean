import AccountHistory.Cli.Folder
import AccountHistory.Main
import AccountHistory.Sync.Users
import AccountHistory.Schema.Definition
import AccountHistory.Proofs.MigrationRetry
import AccountHistory.Proofs.CheckpointHistory
import AccountHistory.Proofs.CheckpointCreation
import AccountHistory.Proofs.Rebuild
import AccountHistory.Proofs.Models
import AccountHistory.Proofs.Coverage
import AccountHistory.Proofs.IndexNames
import AccountHistory.Proofs.MigrationSteps
import AccountHistory.Proofs.Pacing
import AccountHistory.Proofs.MigrationRace
import AccountHistory.Proofs.FullHistory
import AccountHistory.Proofs.Definitions
import AccountHistory.Proofs.Tracking
import AccountHistory.Proofs.CheckpointReplay
import AccountHistory.Proofs.Recreation
import AccountHistory.Proofs.CreationAndRebuild
import AccountHistory.Proofs.TableNames
import AccountHistory.Proofs.ColumnNames
import AccountHistory.Proofs.Crossing
import AccountHistory.Proofs.DropStatements
import AccountHistory.Proofs.SharedIndexNames
import AccountHistory.Proofs.Emptying
import AccountHistory.Proofs.Waiting
import AccountHistory.Proofs.Views
import AccountHistory.Proofs.Drafts
import AccountHistory.Proofs.Reactions
import AccountHistory.Proofs.Numbering
import AccountHistory.Proofs.RebuildNumbers
import AccountHistory.Proofs.RowNumbers
import AccountHistory.Proofs.Placeholders
import AccountHistory.Proofs.MigrationNames
import AccountHistory.Proofs.MigrationListings
import AccountHistory.Proofs.TidySettings
import AccountHistory.Proofs.TypeSpellings
import AccountHistory.Proofs.ExistingTables
import AccountHistory.Proofs.VersionSlot
import AccountHistory.Proofs.DefaultCeilings
import AccountHistory.Proofs.Differences
import AccountHistory.Proofs.RangeReaders
