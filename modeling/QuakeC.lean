import QuakeC.CommandLine.Run
import QuakeC.Image
import QuakeC.Main
import QuakeC.Proofs.Acceptance
import QuakeC.Proofs.FirstFailure
import QuakeC.Proofs.Placement
import QuakeC.Proofs.RoundTrip
import QuakeC.Proofs.Truncation
import QuakeC.Proofs.CharsetNames
import QuakeC.Proofs.Lines
import QuakeC.Proofs.StringEntries
import QuakeC.Proofs.ReportLines
import QuakeC.Proofs.Commands
import QuakeC.Proofs.LoadTrace
import QuakeC.Proofs.StatementText
import QuakeC.Proofs.Markers
import QuakeC.Proofs.Invariant
import QuakeC.Proofs.NumberValues
import QuakeC.Proofs.TableWalk
import QuakeC.Proofs.ListingText
import QuakeC.Proofs.RandomAccess
import QuakeC.Proofs.HeaderCodec
import QuakeC.Proofs.FieldRuns
import QuakeC.Proofs.RecordLists
import QuakeC.Proofs.GlobalViews
import QuakeC.Proofs.NumberText
import QuakeC.Proofs.QuotedText
import QuakeC.Proofs.ValueTexts
import QuakeC.Proofs.NameSearch
import QuakeC.Proofs.Blanks
import QuakeC.Proofs.LetterCase
import QuakeC.Proofs.StableNames
import QuakeC.Proofs.Refusals
import QuakeC.Proofs.IntegerFields
