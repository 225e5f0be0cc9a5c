import EasyBook.Bookings.Approvals
import EasyBook.Bookings.CodeRace
import EasyBook.Bookings.Decisions
import EasyBook.Bookings.DoubleBooking
import EasyBook.Bookings.Preflight
import EasyBook.Bookings.SpanLaw
import EasyBook.Bookings.Sweeps
import EasyBook.Bookings.Validation
import EasyBook.Csv.Export
import EasyBook.Errors.Classification
import EasyBook.Directory.Access
import EasyBook.Directory.Authority
import EasyBook.Directory.Passwords
import EasyBook.Directory.Registration
import EasyBook.Directory.Retirement
import EasyBook.Directory.Returning
import EasyBook.Directory.Settings
import EasyBook.Directory.StatusCache
import EasyBook.ReadCommitted.Adequacy
import EasyBook.Storage.Avatars
import EasyBook.Storage.PhotoObjects
import EasyBook.Storage.SweepSafety
import EasyBook.Venues.OpenClose
import EasyBook.Realtime.Sweep
import EasyBook.Announcements.Delivery
import EasyBook.Sessions.Index
import EasyBook.Reports.Heatmap
import EasyBook.Reports.Reserved
import EasyBook.Reports.Rooms
import EasyBook.Incidents.Losses
import EasyBook.Incidents.Ring
import EasyBook.Line.Multicast
import EasyBook.Line.PersonalCards
import EasyBook.Reports.Sla
import EasyBook.Reports.Trend
import EasyBook.Notifications.DeepLinks
import EasyBook.Notifications.Numbers
import EasyBook.Notifications.VersionAnnouncer
import EasyBook.Prisma.SerialQueryClient
import EasyBook.Support.Containment
import EasyBook.Thai.Backfill
