import DagScaffold.Artifacts
import DagScaffold.Calendar
import DagScaffold.CommandLine.Arguments
import DagScaffold.CommandLine.Run
import DagScaffold.Companion
import DagScaffold.Dag.File
import DagScaffold.Files.Disk
import DagScaffold.Json.Decode
import DagScaffold.Json.Reader
import DagScaffold.Main
import DagScaffold.Manifest.Reader
import DagScaffold.Manifest.Recovery
import DagScaffold.Manifest.Writer
import DagScaffold.Project.Validation
import DagScaffold.Settings
import DagScaffold.Store
import DagScaffold.TaskModule
import DagScaffold.Yaml.Reader
import DagScaffold.Yaml.Written
import DagScaffold.Proofs.CaseMapping
import DagScaffold.Proofs.Naming
import DagScaffold.Proofs.Validity
import DagScaffold.Proofs.Revalidation
import DagScaffold.Proofs.TaskOrder
import DagScaffold.Proofs.Fronts
import DagScaffold.Proofs.Scope
import DagScaffold.Proofs.Yaml.Word
import DagScaffold.Proofs.Yaml.WordScan
import DagScaffold.Proofs.Yaml.Emitted
import DagScaffold.Proofs.Yaml.BlockScan
import DagScaffold.Proofs.Yaml.ReadBack
import DagScaffold.Proofs.Yaml.Steps
import DagScaffold.Proofs.Yaml.Pieces
import DagScaffold.Proofs.Yaml.Lines
import DagScaffold.Proofs.Yaml.Members
import DagScaffold.Proofs.Yaml.Nesting
import DagScaffold.Proofs.ManifestReading
import DagScaffold.Proofs.ManifestRoundTrip
import DagScaffold.Proofs.ManifestKeys
import DagScaffold.Proofs.Report
import DagScaffold.Proofs.Preservation
import DagScaffold.Proofs.OneLine
import DagScaffold.Proofs.Agreement
import DagScaffold.Proofs.Files.Disk
import DagScaffold.Proofs.Files.Runs
import DagScaffold.Proofs.Files.Calls
import DagScaffold.Proofs.Files.Progress
import DagScaffold.Proofs.ProjectPaths
import DagScaffold.Proofs.Saving
import DagScaffold.Proofs.SavingProgress
import DagScaffold.Proofs.Sessions
import DagScaffold.Proofs.Confinement
import DagScaffold.Proofs.Dependencies
import DagScaffold.Proofs.Environment
import DagScaffold.Proofs.DataPaths
import DagScaffold.Proofs.Resaving
import DagScaffold.Proofs.Json.Printed
import DagScaffold.Proofs.Json.Records
import DagScaffold.Proofs.Literals
import DagScaffold.Proofs.Outline
import DagScaffold.Proofs.Rendering
import DagScaffold.Proofs.PayloadText
import DagScaffold.Proofs.TextLines
import DagScaffold.Proofs.ByteOrder
import DagScaffold.Proofs.Callables
import DagScaffold.Proofs.Docstrings
import DagScaffold.Proofs.ImportLines
import DagScaffold.Proofs.ModuleLayout
import DagScaffold.Proofs.Variables
import DagScaffold.Proofs.Recovery
import DagScaffold.Proofs.Pools
import DagScaffold.Proofs.WrittenDates
import DagScaffold.Proofs.StartDate
import DagScaffold.Proofs.StrayReturns
import DagScaffold.Proofs.PhysicalLines
import DagScaffold.Proofs.DecimalRange
import DagScaffold.Proofs.Yaml.Numbers
import DagScaffold.Proofs.Delivery
import DagScaffold.Proofs.DagIdentifiers
