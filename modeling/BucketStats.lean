import BucketStats.Histogram.Observations
import BucketStats.Settings.Defaults
import BucketStats.Summary.Lines
import BucketStats.Workbook.Standard
import BucketStats.Command.Run
import BucketStats.Main
import BucketStats.Proofs.Binary64.Magnitude
import BucketStats.Proofs.Binary64.Nearest
import BucketStats.Proofs.Histogram.Totals
import BucketStats.Proofs.Histogram.Quantile
import BucketStats.Proofs.Histogram.Observations
import BucketStats.Proofs.Entries
import BucketStats.Proofs.Json
import BucketStats.Proofs.Json.Reader
import BucketStats.Proofs.Json.Texts
import BucketStats.Proofs.Json.Numerals
import BucketStats.Proofs.Json.RoundTrip
import BucketStats.Proofs.Summary.Quantiles
import BucketStats.Proofs.Summary.Scaling
import BucketStats.Proofs.Workbook.Stages
import BucketStats.Proofs.Workbook.Summary
import BucketStats.Proofs.Workbook.Buckets
import BucketStats.Proofs.Decimal.Integers
import BucketStats.Proofs.Decimal.Places
import BucketStats.Proofs.Decimal.Numeral
import BucketStats.Proofs.Decimal.Scientific
import BucketStats.Proofs.Decimal.Shortest
import BucketStats.Proofs.Decimal.Whole
import BucketStats.Proofs.Decimal.Written
import BucketStats.Proofs.Decimal.Significant
import BucketStats.Proofs.Text.Utf8
import BucketStats.Proofs.Text.Lines
import BucketStats.Proofs.Text.Trimmed
import BucketStats.Proofs.Settings.RoundTrip
import BucketStats.Proofs.Settings.Grammar
import BucketStats.Proofs.Settings.Locality
import BucketStats.Proofs.Summary.Lines
import BucketStats.Proofs.Command.Stages
import BucketStats.Proofs.Command.Contents
import BucketStats.Proofs.Command.Outputs
import BucketStats.Proofs.Command.Operands
import BucketStats.Proofs.Command.Counts
import BucketStats.Proofs.Command.Summaries
import BucketStats.Proofs.Command.Texts
import BucketStats.Proofs.Command.Reading
import BucketStats.Proofs.Command.Requests
import BucketStats.Proofs.Command.Options
import BucketStats.Proofs.Command.Order
import BucketStats.Proofs.Command.Settings
import BucketStats.Proofs.Command.Endings
import BucketStats.Proofs.Command.Breakdown
import BucketStats.Proofs.Command.Documents
import BucketStats.Proofs.Command.Numerals
import BucketStats.Proofs.Histogram.Faults
import BucketStats.Proofs.Command.Related
import BucketStats.Proofs.Workbook.Labels
import BucketStats.Proofs.Command.Quiet
import BucketStats.Proofs.Command.Insertion
import BucketStats.Proofs.Command.Independence
import BucketStats.Proofs.Value.Literals
import BucketStats.Proofs.Histogram.Kinds
import BucketStats.Proofs.Histogram.Cutoff
import BucketStats.Proofs.Histogram.Mean
import BucketStats.Proofs.Histogram.Tally
import BucketStats.Proofs.Binary64.Order
import BucketStats.Proofs.Binary64.Precision
import BucketStats.Proofs.Histogram.Order
import BucketStats.Proofs.Histogram.Pooled
import BucketStats.Proofs.Histogram.Padded
import BucketStats.Proofs.Histogram.Scan
import BucketStats.Proofs.Summary.Refusals
import BucketStats.Proofs.Workbook.Shares
import BucketStats.Proofs.Text.Pattern
import BucketStats.Proofs.Decimal.Alphabet
import BucketStats.Proofs.Settings.Numbers
import BucketStats.Proofs.Settings.Quotes
import BucketStats.Proofs.Settings.Lists
import BucketStats.Proofs.Settings.Usable
import BucketStats.Proofs.Settings.Integers
import BucketStats.Proofs.Summary.Means
import BucketStats.Proofs.Summary.Labels
import BucketStats.Proofs.Summary.Documents
