import Recurrence.Calendar.Text
import Recurrence.ICalendar
import Recurrence.Month
import Recurrence.Report.Parts
import Recurrence.Rule.Stored
import Recurrence.Session
import Recurrence.Template
import Recurrence.Proofs.EarliestDate
import Recurrence.Proofs.Range
import Recurrence.Proofs.Rule.Stored
import Recurrence.Proofs.Weekly.Agreement
import Recurrence.Proofs.Weekly.TimeOfDay
import Recurrence.Proofs.Rule.Overrun
import Recurrence.Proofs.Zone.Ahead
import Recurrence.Proofs.Rule.Written
import Recurrence.Proofs.Registry.Calls
import Recurrence.Proofs.Registry.Choice
import Recurrence.Proofs.ICalendar.Property
import Recurrence.Proofs.ICalendar.RoundTrip
import Recurrence.Proofs.ICalendar.Elsewhere
import Recurrence.Proofs.Rule.ReadDate
import Recurrence.Proofs.Rule.Settled
import Recurrence.Proofs.Rule.Arrangement
import Recurrence.Proofs.Rule.Place
import Recurrence.Proofs.Rule.DateShape
import Recurrence.Proofs.Rule.Printable
import Recurrence.Proofs.Rule.FaultyPart
import Recurrence.Proofs.Weekly.Remaining
import Recurrence.Proofs.Weekly.Account
import Recurrence.Proofs.Extension
import Recurrence.Proofs.Expansion.Account
import Recurrence.Proofs.WeekdayFilter
import Recurrence.Proofs.Calendar.Components
import Recurrence.Proofs.Session
import Recurrence.Proofs.Session.Overrides
import Recurrence.Proofs.Weekly.Search
import Recurrence.Proofs.Rule.InPlace
