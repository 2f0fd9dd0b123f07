import ActionQuery.Calendar.Date
import ActionQuery.Keyed
import ActionQuery.Text.Blank
import ActionQuery.Text.Digits
import ActionQuery.Text.Quoted
import ActionQuery.Text.UpperCase
import ActionQuery.Calendar.Stamp
import ActionQuery.Calendar.Iso.Error
import ActionQuery.Calendar.Iso.Printer
import ActionQuery.Calendar.Iso.Reader
import ActionQuery.Calendar.Zone
import ActionQuery.Fault
import ActionQuery.NominalTime
import ActionQuery.Datum
import ActionQuery.Scope.Error
import ActionQuery.Scope.Token
import ActionQuery.Scope.Ids
import ActionQuery.Action.Submission
import ActionQuery.Scope.Lookup
import ActionQuery.Scope.Resolution
import ActionQuery.Store
import ActionQuery.Filter.Clause
import ActionQuery.Filter.Reader
import ActionQuery.Logging.Line
import ActionQuery.Logging.Root
import ActionQuery.Session
import ActionQuery.Stated
import ActionQuery.Proofs.ActionId
import ActionQuery.Proofs.Keyed
import ActionQuery.Proofs.IdRoute
import ActionQuery.Proofs.TimeRoute
import ActionQuery.Proofs.StoreSelection
import ActionQuery.Proofs.StoreIds
import ActionQuery.Proofs.JobIsolation
import ActionQuery.Proofs.LookupFailure
import ActionQuery.Proofs.Staging
import ActionQuery.Proofs.Runs
import ActionQuery.Proofs.Numerals
import ActionQuery.Proofs.Grouping
import ActionQuery.Proofs.Entries
import ActionQuery.Proofs.Placeholders
import ActionQuery.Proofs.ClauseReader
import ActionQuery.Proofs.ClauseThreading
import ActionQuery.Proofs.FilterGrammar
import ActionQuery.Proofs.ParsedFilters
import ActionQuery.Proofs.NormalForm
import ActionQuery.Proofs.StoreHistory
import ActionQuery.Proofs.AdditionOrder
import ActionQuery.Proofs.IdGrammar
import ActionQuery.Proofs.IdRefusal
import ActionQuery.Proofs.TimeRefusal
import ActionQuery.Proofs.CivilDays
import ActionQuery.Proofs.IsoRoundTrip
import ActionQuery.Proofs.Addressing
import ActionQuery.Proofs.NumberSpelling
import ActionQuery.Proofs.SettingsCache
import ActionQuery.Proofs.LogSetUp
import ActionQuery.Proofs.FailedSetUps
import ActionQuery.Proofs.HexNumerals
import ActionQuery.Proofs.ContextTexts
import ActionQuery.Proofs.ClauseShape
import ActionQuery.Proofs.SameElements
import ActionQuery.Proofs.StampRoundTrip
import ActionQuery.Proofs.MinuteRoundTrip
import ActionQuery.Proofs.TimeTokens
import ActionQuery.Proofs.ClockGroups
import ActionQuery.Proofs.DateForms
import ActionQuery.Proofs.TimeLayout
import ActionQuery.Proofs.TimeCuts
import ActionQuery.Proofs.SingleTimes
import ActionQuery.Proofs.TimeOfDay
import ActionQuery.Proofs.ClauseRefusal
import ActionQuery.Proofs.BufferBindings
import ActionQuery.Proofs.FilterJoins
import ActionQuery.Proofs.ZoneOrder
