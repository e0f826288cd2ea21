import TsaBackend.Requests
import TsaBackend.StatusLog
import TsaBackend.OrderEffects
import TsaBackend.OrderFlow
import TsaBackend.DeliveryFlow
import TsaBackend.Webhooks
import TsaBackend.LostUpdate
import TsaBackend.OrderWrites
import TsaBackend.Accounts
import TsaBackend.StudentCalls
import TsaBackend.Registration
import TsaBackend.Fees
import TsaBackend.Trips
import TsaBackend.ClaimRaces
import TsaBackend.Optimistic
import TsaBackend.StatusRaces
import TsaBackend.AccountWrites
import TsaBackend.Auth
import TsaBackend.Bans
import TsaBackend.Deactivation
import TsaBackend.FaultRaces
import TsaBackend.TripSequences
import TsaBackend.TripStaff
import TsaBackend.Sessions
import TsaBackend.SessionSteps
import TsaBackend.Tickets
import TsaBackend.CompletionRaces
import TsaBackend.Lockout
import TsaBackend.RefreshTokens
import TsaBackend.RoleProfiles
import TsaBackend.VerificationLinks
import TsaBackend.TicketIsolation
import TsaBackend.ReportOwnership
import TsaBackend.TicketRaces
import TsaBackend.Atomicity
import TsaBackend.DeliveryDates
import TsaBackend.DeliverySlots
import TsaBackend.TripPlans
import TsaBackend.TripStatus
import TsaBackend.TripDeletion
import TsaBackend.RoleRenewal
import TsaBackend.SignInRaces
import TsaBackend.Numerals
import TsaBackend.BrandShares
import TsaBackend.DateRanges
import TsaBackend.DeliveryProof
import TsaBackend.LatestStatus
import TsaBackend.LogRows
import TsaBackend.StaffStats
import TsaBackend.Recognition
import TsaBackend.Devices
import TsaBackend.Inbox
import TsaBackend.Gateways
import TsaBackend.Sockets
import TsaBackend.Notified
import TsaBackend.PhaseRules
import TsaBackend.Refinement
import TsaBackend.StatusNotices
import TsaBackend.EndpointSteps
import TsaBackend.Passwords
import TsaBackend.Privileges
