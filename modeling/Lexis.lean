import Lexis.CommandLine.LogLevel
import Lexis.CommandLine.Run
import Lexis.Files.Tree
import Lexis.Listing
import Lexis.Main
import Lexis.Report
import Lexis.Scanner
import Lexis.Settings.Load
import Lexis.Source
import Lexis.Proofs.Lookahead
import Lexis.Proofs.Suffix
import Lexis.Proofs.TextContent
import Lexis.Proofs.Numeral
import Lexis.Proofs.Run
import Lexis.Proofs.Spelling
import Lexis.Proofs.EndOfInput
import Lexis.Proofs.Partition
import Lexis.Proofs.Drawing
import Lexis.Proofs.Nesting
import Lexis.Proofs.Following
import Lexis.Proofs.LineFeed
import Lexis.Proofs.Lines
import Lexis.Proofs.Progress
import Lexis.Proofs.Failure
import Lexis.Proofs.OpenInterpolations
import Lexis.Proofs.Warnings
import Lexis.Proofs.Sessions
import Lexis.Proofs.Batch
import Lexis.Proofs.Places
import Lexis.Proofs.LaterText
import Lexis.Proofs.NumberReading
import Lexis.Proofs.NumberFaults
import Lexis.Proofs.TextItems
import Lexis.Proofs.TextFaults
import Lexis.Proofs.TextWriting
import Lexis.Proofs.LongestMatch
import Lexis.Proofs.InvalidCharacters
import Lexis.Proofs.Rescanning
import Lexis.Proofs.Pushed
import Lexis.Proofs.InsertedTab
import Lexis.Proofs.LineSplitting
import Lexis.Proofs.Utf8Form
import Lexis.Proofs.SettingsWriting
import Lexis.Proofs.SettingsMembers
import Lexis.Proofs.ListingLines
import Lexis.Proofs.ReportPlaces
import Lexis.Proofs.IntegerDigits
import Lexis.Proofs.Filling
import Lexis.Proofs.Counters
import Lexis.Proofs.TemplateFrames
