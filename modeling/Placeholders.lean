import Placeholders.Binary64.Bits
import Placeholders.Main
import Placeholders.Proofs.Placeholder.Grammar
import Placeholders.Proofs.Placeholder.Reading
import Placeholders.Proofs.Placeholder.Search
import Placeholders.Proofs.Placeholder.Delimitation
import Placeholders.Proofs.Segment.Scan
import Placeholders.Proofs.Segment.Coverage
import Placeholders.Proofs.Segment.Verdict
import Placeholders.Proofs.Document.Locality
import Placeholders.Proofs.Binary64.Rounding
import Placeholders.Proofs.Binary64.Shortest
import Placeholders.Proofs.Binary64.Arithmetic
import Placeholders.Proofs.Decimal.Numeral
import Placeholders.Proofs.Decimal.Rounding
import Placeholders.Proofs.Decimal.Fixed
import Placeholders.Proofs.Decimal.Stability
import Placeholders.Proofs.Function.Draw
import Placeholders.Proofs.Function.SignedSum
import Placeholders.Proofs.Text.Trimming
import Placeholders.Proofs.Placeholder.Writing
import Placeholders.Proofs.Segment.Concatenation
import Placeholders.Proofs.Document.Splicing
import Placeholders.Proofs.Document.Noninterference
import Placeholders.Proofs.Entropy.Checksum
import Placeholders.Proofs.Entropy.Seed
import Placeholders.Proofs.Registry.Registration
import Placeholders.Proofs.Registry.Routing
import Placeholders.Proofs.Command.Agreement
import Placeholders.Proofs.Placeholder.Conversion
import Placeholders.Proofs.Entropy.Stream
import Placeholders.Proofs.Function.DigitTokens
import Placeholders.Proofs.Function.LetterTokens
import Placeholders.Proofs.Function.SeedSeparation
import Placeholders.Proofs.Function.Magnitude
import Placeholders.Proofs.Function.TimeTokens
import Placeholders.Proofs.Calendar.DayNumbers
import Placeholders.Proofs.Function.ShiftedDate
import Placeholders.Proofs.Decimal.Padding
import Placeholders.Proofs.Function.PaddedDecimal
import Placeholders.Proofs.Function.DecimalArguments
import Placeholders.Proofs.Text.EditDistance
import Placeholders.Proofs.Registry.Suggestion
import Placeholders.Proofs.Document.ClockReadings
import Placeholders.Proofs.Segment.Reference
import Placeholders.Proofs.Command.TestData
import Placeholders.Proofs.Entropy.Period
import Placeholders.Proofs.Function.IndexOffset
import Placeholders.Proofs.Decimal.Truncation
import Placeholders.Proofs.Decimal.WholeRounding
