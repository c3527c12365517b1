import Rebadge.Archiver
import Rebadge.Archiver.External
import Rebadge.Archiver.Native
import Rebadge.Archiver.Tar
import Rebadge.Archiver.Zip
import Rebadge.Bytes
import Rebadge.Cli
import Rebadge.Cli.Help
import Rebadge.Cli.Options
import Rebadge.Cli.Report
import Rebadge.Config
import Rebadge.Config.Load
import Rebadge.Config.Toml
import Rebadge.Content
import Rebadge.Csv
import Rebadge.Digest
import Rebadge.Digest.Base64
import Rebadge.Digest.Sha256
import Rebadge.Disk
import Rebadge.Failure
import Rebadge.Http
import Rebadge.Main
import Rebadge.Metadata
import Rebadge.Name
import Rebadge.Patch
import Rebadge.Path
import Rebadge.ProjectFile
import Rebadge.Proofs.Act
import Rebadge.Proofs.Alike
import Rebadge.Proofs.Archiver.Confinement
import Rebadge.Proofs.Archiver.Course
import Rebadge.Proofs.Archiver.Editing
import Rebadge.Proofs.Archiver.EntryName
import Rebadge.Proofs.Archiver.Extraction
import Rebadge.Proofs.Archiver.KeyedStore
import Rebadge.Proofs.Archiver.Links
import Rebadge.Proofs.Archiver.Packing
import Rebadge.Proofs.Archiver.Placing
import Rebadge.Proofs.Archiver.Plans
import Rebadge.Proofs.Archiver.Repacking
import Rebadge.Proofs.Archiver.TarballLayout
import Rebadge.Proofs.Archiver.TreeAdding
import Rebadge.Proofs.Archiver.TreeStopping
import Rebadge.Proofs.Archiver.TwinTarballs
import Rebadge.Proofs.Archiver.Twins
import Rebadge.Proofs.Archiver.Unpacking
import Rebadge.Proofs.Artifact.Names
import Rebadge.Proofs.Artifact.Selection
import Rebadge.Proofs.Batch
import Rebadge.Proofs.Csv.Agreement
import Rebadge.Proofs.Csv.Reading
import Rebadge.Proofs.Csv.Writing
import Rebadge.Proofs.Digest
import Rebadge.Proofs.Digest.Canonical
import Rebadge.Proofs.Disk.Along
import Rebadge.Proofs.Disk.Aside
import Rebadge.Proofs.Disk.Inner
import Rebadge.Proofs.Disk.Joining
import Rebadge.Proofs.Disk.Layout
import Rebadge.Proofs.Disk.Making
import Rebadge.Proofs.Disk.Moving
import Rebadge.Proofs.Disk.Opened
import Rebadge.Proofs.Disk.Operations
import Rebadge.Proofs.Disk.Scratch
import Rebadge.Proofs.Disk.Siblings
import Rebadge.Proofs.Disk.Staging
import Rebadge.Proofs.Disk.Twins
import Rebadge.Proofs.Except
import Rebadge.Proofs.Http
import Rebadge.Proofs.Metadata.Declaration
import Rebadge.Proofs.Metadata.Lines
import Rebadge.Proofs.Name
import Rebadge.Proofs.Outcome
import Rebadge.Proofs.Patching
import Rebadge.Proofs.Path
import Rebadge.Proofs.Path.Resolving
import Rebadge.Proofs.ProjectFile
import Rebadge.Proofs.Record.Fresh
import Rebadge.Proofs.Record.FreshEntry
import Rebadge.Proofs.Record.LineByLine
import Rebadge.Proofs.Record.Lines
import Rebadge.Proofs.Record.Paths
import Rebadge.Proofs.Record.Renaming
import Rebadge.Proofs.Record.Replaced
import Rebadge.Proofs.Record.Swapping
import Rebadge.Proofs.Record.Unreplaced
import Rebadge.Proofs.Record.Written
import Rebadge.Proofs.Release.Directory
import Rebadge.Proofs.Release.Links
import Rebadge.Proofs.Release.Listing
import Rebadge.Proofs.Run.Commuting
import Rebadge.Proofs.Run.Ending
import Rebadge.Proofs.Run.Keeping
import Rebadge.Proofs.Run.Places
import Rebadge.Proofs.Run.Tasks
import Rebadge.Proofs.Run.Units
import Rebadge.Proofs.Scratching
import Rebadge.Proofs.Sdist.Bench
import Rebadge.Proofs.Sdist.Confined
import Rebadge.Proofs.Sdist.Contents
import Rebadge.Proofs.Sdist.Failing
import Rebadge.Proofs.Sdist.Steps
import Rebadge.Proofs.Sdist.Targets
import Rebadge.Proofs.Sdist.Twins
import Rebadge.Proofs.Text.Lines
import Rebadge.Proofs.Text.Separator
import Rebadge.Proofs.Tree.Below
import Rebadge.Proofs.Tree.Clear
import Rebadge.Proofs.Tree.Listing
import Rebadge.Proofs.Tree.Opening
import Rebadge.Proofs.Tree.Walk
import Rebadge.Proofs.Tree.Ways
import Rebadge.Proofs.Url.References
import Rebadge.Proofs.Url.Segments
import Rebadge.Proofs.Version.Decomposition
import Rebadge.Proofs.Version.Label
import Rebadge.Proofs.Version.Local
import Rebadge.Proofs.Version.Repeated
import Rebadge.Proofs.Version.Separating
import Rebadge.Proofs.Version.Suffix
import Rebadge.Proofs.Wheel.Acceptance
import Rebadge.Proofs.Wheel.Contents
import Rebadge.Proofs.Wheel.Directory
import Rebadge.Proofs.Wheel.DistInfo
import Rebadge.Proofs.Wheel.Listing
import Rebadge.Proofs.Wheel.Moving
import Rebadge.Proofs.Wheel.Passes
import Rebadge.Proofs.Wheel.Rescanning
import Rebadge.Proofs.Wheel.Scanning
import Rebadge.Proofs.Wheel.Stopping
import Rebadge.Proofs.Wheel.Succeeding
import Rebadge.Proofs.Wheel.Twins
import Rebadge.Proofs.Wheel.Verdicts
import Rebadge.Proofs.Wheel.Verifying
import Rebadge.Proofs.Zip
import Rebadge.Record
import Rebadge.Record.Fork
import Rebadge.Release
import Rebadge.Release.Index
import Rebadge.Run
import Rebadge.Sdist
import Rebadge.Sorted
import Rebadge.Tar
import Rebadge.Text.Basic
import Rebadge.Text.CharClass
import Rebadge.Text.CharTable
import Rebadge.Text.Chars
import Rebadge.Text.Unicode.CombiningTable
import Rebadge.Text.Unicode.CompositeTable
import Rebadge.Text.Unicode.Composition
import Rebadge.Text.Unicode.DirectionTable
import Rebadge.Text.Unicode.RangeTable
import Rebadge.Toml.Document
import Rebadge.Toml.Parser
import Rebadge.Toml.Scalar
import Rebadge.Toml.Value
import Rebadge.Tree
import Rebadge.Url.Address
import Rebadge.Url.Basic
import Rebadge.Url.Domain
import Rebadge.Url.Domain.Label
import Rebadge.Url.Domain.Mapping
import Rebadge.Url.Domain.MappingTable
import Rebadge.Url.Domain.Punycode
import Rebadge.Url.Encode
import Rebadge.Url.Parser
import Rebadge.Version.Local
import Rebadge.Wheel.Patch
import Rebadge.Wheel.Scan
import Rebadge.Wheel.Validation
import Rebadge.Workspace
import Rebadge.Zip
