import CivilTime.Calendar.Date
import CivilTime.Calendar.DayNumber
import CivilTime.Calendar.Checked
import CivilTime.Calendar.Bijection
import CivilTime.Calendar.Weekday
import CivilTime.Calendar.BusinessDay
import CivilTime.Clock.Carry
import CivilTime.Clock.TimeOfDay
import CivilTime.Binary.Nearest
import CivilTime.Binary.Shortest
import CivilTime.Text.Padded
import CivilTime.Text.Printable
import CivilTime.Text.Quoted
import CivilTime.Text.Decimal
import CivilTime.Text.Blank
import CivilTime.Text.Split
import CivilTime.Reading
import CivilTime.Failure
import CivilTime.Binary.Checked
import CivilTime.Clock.DecimalHour
import CivilTime.Note
import CivilTime.Reading.Normalize
import CivilTime.Zone.Offset
import CivilTime.Zone.LocalTime
import CivilTime.Zone.Search
import CivilTime.Zone.Data
import CivilTime.Zone.Basic
import CivilTime.ZoneRule.Day
import CivilTime.ZoneRule.Basic
import CivilTime.ZoneRule.Reader
import CivilTime.ZoneFile.Bytes
import CivilTime.ZoneFile.Header
import CivilTime.ZoneFile.Decoder
import CivilTime.Delta.Interval
import CivilTime.Delta.Move
import CivilTime.Instant.Basic
import CivilTime.Instant.Difference
import CivilTime.Instant.Shift
import CivilTime.Store.Directory
import CivilTime.Store.Key
import CivilTime.Store.SearchPath
import CivilTime.Store.Cache
import CivilTime.Store.Listing
import CivilTime.Store.Basic
import CivilTime.Script.Number
import CivilTime.Script.Plain
import CivilTime.Script.Fields
import CivilTime.Script.Moment
import CivilTime.Script.Value
import CivilTime.Script.Argument
import CivilTime.Script.Action
import CivilTime.Script.Making
import CivilTime.Script.Operator
import CivilTime.Script.Step
import CivilTime.Script.Run
import CivilTime.Proofs.Success
import CivilTime.Proofs.ReadingSeconds
import CivilTime.Proofs.CountedDays
import CivilTime.Proofs.ConsistentInstant
import CivilTime.Proofs.ConsistentScript
import CivilTime.Proofs.LocalTimeExact
import CivilTime.Proofs.RuleLocalTime
import CivilTime.Proofs.TableSearch
import CivilTime.Proofs.TransitionSpans
import CivilTime.Proofs.RuleOffsets
import CivilTime.Proofs.TableLookup
import CivilTime.Proofs.ZoneLocalTime
import CivilTime.Proofs.ReadingDifference
import CivilTime.Proofs.BorrowedMonths
import CivilTime.Proofs.ReadingSums
import CivilTime.Proofs.DifferenceAcrossZones
import CivilTime.Proofs.DatesInOrder
import CivilTime.Proofs.ReadingOrder
import CivilTime.Proofs.DifferenceWithinZone
import CivilTime.Proofs.DifferenceDirection
import CivilTime.Proofs.ElapsedTime
import CivilTime.Proofs.CarriedReadings
import CivilTime.Proofs.DifferenceWithinDay
import CivilTime.Proofs.DifferenceAtOneOffset
import CivilTime.Proofs.DifferenceReversed
import CivilTime.Proofs.DifferenceSeparates
import CivilTime.Proofs.DifferenceInFold
import CivilTime.Proofs.DifferenceRanges
import CivilTime.Proofs.RuleTransitions
import CivilTime.Proofs.SettledReading
import CivilTime.Proofs.ShiftUndone
import CivilTime.Proofs.ShiftModes
import CivilTime.Proofs.SteadyZones
import CivilTime.Proofs.SteadyDifference
import CivilTime.Proofs.SteadyScript
import CivilTime.Proofs.FileLayout
import CivilTime.Proofs.FileDecoding
import CivilTime.Proofs.RuleGrammar
import CivilTime.Proofs.RuleReading
import CivilTime.Proofs.RulePeriods
import CivilTime.Proofs.ZonePeriods
import CivilTime.Proofs.ShownTimes
import CivilTime.Proofs.ReadZones
import CivilTime.Proofs.RuleDays
import CivilTime.Proofs.NamedDays
import CivilTime.Proofs.CheckedLookups
import CivilTime.Proofs.FirstEntryAfter
import CivilTime.Proofs.FileFaults
import CivilTime.Proofs.AnsweredOffsets
import CivilTime.Proofs.OutOfRange
import CivilTime.Proofs.MonthMoves
import CivilTime.Proofs.ConstructedInstants
import CivilTime.Proofs.DifferenceDefined
import CivilTime.Proofs.WholeDays
import CivilTime.Proofs.ElapsedDays
import CivilTime.Proofs.StoreRuns
import CivilTime.Proofs.RecentKeys
import CivilTime.Proofs.CachedZones
import CivilTime.Proofs.Paths
import CivilTime.Proofs.FileTrees
import CivilTime.Proofs.KeyPaths
import CivilTime.Proofs.StoreScript
import CivilTime.Proofs.TextLines
import CivilTime.Proofs.ZoneListing
import CivilTime.Proofs.ListedZones
