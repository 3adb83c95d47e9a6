import MixedWorkload.CommandLine.Program
import MixedWorkload.Config.Source
import MixedWorkload.Files.Store
import MixedWorkload.Keyed
import MixedWorkload.Main
import MixedWorkload.Powers
import MixedWorkload.Proofs.Annotation
import MixedWorkload.Proofs.BinEdges
import MixedWorkload.Proofs.Binary64.Arithmetic
import MixedWorkload.Proofs.Binary64.Decoding
import MixedWorkload.Proofs.Binary64.Difference
import MixedWorkload.Proofs.Binary64.Gaps
import MixedWorkload.Proofs.Binary64.Monotone
import MixedWorkload.Proofs.Binary64.Order
import MixedWorkload.Proofs.Binary64.Overflow
import MixedWorkload.Proofs.Binary64.Rounding
import MixedWorkload.Proofs.Binary64.Shifting
import MixedWorkload.Proofs.Binary64.Truncation
import MixedWorkload.Proofs.Binning
import MixedWorkload.Proofs.CommandLine.Arguments
import MixedWorkload.Proofs.CommandLine.Evaluating
import MixedWorkload.Proofs.CommandLine.Runs
import MixedWorkload.Proofs.ConfigFiles
import MixedWorkload.Proofs.Configuration
import MixedWorkload.Proofs.Csv.Finished
import MixedWorkload.Proofs.Csv.Header
import MixedWorkload.Proofs.Csv.Places
import MixedWorkload.Proofs.Csv.Rendering
import MixedWorkload.Proofs.Csv.Tables
import MixedWorkload.Proofs.Decimal.Numerals
import MixedWorkload.Proofs.Decimal.Reading
import MixedWorkload.Proofs.Decimal.Shortest
import MixedWorkload.Proofs.Definition
import MixedWorkload.Proofs.Division
import MixedWorkload.Proofs.Evaluation
import MixedWorkload.Proofs.Extremes
import MixedWorkload.Proofs.FactorEntries
import MixedWorkload.Proofs.FactorFiles
import MixedWorkload.Proofs.Factors
import MixedWorkload.Proofs.Files.Contents
import MixedWorkload.Proofs.Finiteness
import MixedWorkload.Proofs.GeometricMean
import MixedWorkload.Proofs.Grouping
import MixedWorkload.Proofs.Groups
import MixedWorkload.Proofs.Json.Objects
import MixedWorkload.Proofs.Json.Spelling
import MixedWorkload.Proofs.Lifting
import MixedWorkload.Proofs.Loading
import MixedWorkload.Proofs.Log.Faults
import MixedWorkload.Proofs.Log.Lines
import MixedWorkload.Proofs.Log.Phases
import MixedWorkload.Proofs.Log.Reading
import MixedWorkload.Proofs.Log.Starts
import MixedWorkload.Proofs.Lookup
import MixedWorkload.Proofs.Metrics
import MixedWorkload.Proofs.Noninterference
import MixedWorkload.Proofs.Normalization
import MixedWorkload.Proofs.Offsets
import MixedWorkload.Proofs.Overflow
import MixedWorkload.Proofs.Partition
import MixedWorkload.Proofs.Positions
import MixedWorkload.Proofs.Rate
import MixedWorkload.Proofs.Renaming
import MixedWorkload.Proofs.Reordering
import MixedWorkload.Proofs.Repetition
import MixedWorkload.Proofs.Report.Lines
import MixedWorkload.Proofs.Report.Plot
import MixedWorkload.Proofs.Report.Words
import MixedWorkload.Proofs.Resolution
import MixedWorkload.Proofs.Results
import MixedWorkload.Proofs.Text.Blank
import MixedWorkload.Proofs.Text.Decoding
import MixedWorkload.Proofs.Text.Digits
import MixedWorkload.Proofs.Text.Splitting
import MixedWorkload.Proofs.Text.Utf8
import MixedWorkload.Proofs.Toml.Integers
import MixedWorkload.Proofs.Toml.Keys
import MixedWorkload.Proofs.Toml.Lines
import MixedWorkload.Proofs.Uncorrected
