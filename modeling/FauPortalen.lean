import FauPortalen.Foundations.Lookup
import FauPortalen.Foundations.PartialFold
import FauPortalen.Foundations.Grouping
import FauPortalen.Foundations.KeyedRows
import FauPortalen.Calendar
import FauPortalen.Register.Text
import FauPortalen.Register.Slug
import FauPortalen.Foundations.Binary32
import FauPortalen.Register.Similarity
import FauPortalen.Register.Sync.Types
import FauPortalen.Register.Sync.Municipalities
import FauPortalen.Register.Sync.SlugBook
import FauPortalen.Register.Sync.Matching
import FauPortalen.Register.Sync.Schools
import FauPortalen.Register.Sync.Plan
import FauPortalen.Register.Sync.Testkit
import FauPortalen.Register.Sync.Placement
import FauPortalen.Register.Sync.Store
import FauPortalen.Register.Sync.UnitFates
import FauPortalen.Register.Sync.PlannedOps
import FauPortalen.Register.Sync.SlugOwnership
import FauPortalen.Register.Sync.SchoolDraft
import FauPortalen.Register.Sync.SchoolEffects
import FauPortalen.Register.Sync.SlugSafety
import FauPortalen.Register.Sync.MunicipalityGroups
import FauPortalen.Register.Sync.MunicipalityNames
import FauPortalen.Register.Sync.MunicipalityEffects
import FauPortalen.Register.Sync.PlanSlugSafety
import FauPortalen.Register.Sync.PlanTargets
import FauPortalen.Register.Sync.AppliedRegister
import FauPortalen.Register.Sync.MunicipalityTracking
import FauPortalen.Register.Sync.MunicipalityRecords
import FauPortalen.Register.Sync.MunicipalitySettlement
import FauPortalen.Register.Sync.StorePreservation
import FauPortalen.Register.Sync.SecondRun
import FauPortalen.Register.Sync.Convergence
import FauPortalen.Register.Sync.Succession
import FauPortalen.Register.Store.ReviewIdempotence
import FauPortalen.Register.Sync.GroupDecisions
import FauPortalen.Register.Sync.FeedReplay
import FauPortalen.Register.Sync.NameOnlyChanges
import FauPortalen.Register.Conservation
import FauPortalen.Register.Sync.FittingMunicipalityOps
import FauPortalen.Register.MunicipalityKeySafety
import FauPortalen.Register.OrderIndependence
import FauPortalen.Register.Faithfulness
import FauPortalen.Foundations.Scripts
import FauPortalen.Keys.Shred
import FauPortalen.Keys.DeletionWindow
import FauPortalen.Foundations.Execution
import FauPortalen.Membership.Authorization
import FauPortalen.Membership.ChangeStream.Hub
import FauPortalen.Membership.ChangeStream.Steps
import FauPortalen.Membership.ChangeStream.Registry
import FauPortalen.Membership.ChangeStream.Closing
import FauPortalen.Membership.ChangeStream.Delivery
import FauPortalen.Membership.ChangeStream.Ending
import FauPortalen.Membership.ChangeStream.Stream
import FauPortalen.Foundations.Transactions
import FauPortalen.Membership.Rules
import FauPortalen.Membership.Acceptance
import FauPortalen.Membership.Access
import FauPortalen.Membership.History
import FauPortalen.Membership.Statements
import FauPortalen.Membership.Profile
import FauPortalen.Membership.Invitations
import FauPortalen.Membership.Handover
import FauPortalen.Membership.Requests
import FauPortalen.Membership.Signup
import FauPortalen.Membership.Directory
import FauPortalen.Foundations.EvolvingRows
import FauPortalen.Membership.Changes
import FauPortalen.Membership.Footprints
import FauPortalen.Foundations.EventSystems
import FauPortalen.Membership.Operations
import FauPortalen.Membership.Outcomes
import FauPortalen.Foundations.Coverage
import FauPortalen.Membership.LastAdmin
import FauPortalen.Foundations.Framing
import FauPortalen.Keys.Units
import FauPortalen.Keys.Envelope
import FauPortalen.Register.Sync.ExactSimilarity
import FauPortalen.Register.Sync.Assignment
import FauPortalen.Register.Sync.Reregistrations
import FauPortalen.Membership.AuthorityFirst
import FauPortalen.Membership.Freezing
import FauPortalen.Membership.Invariants
import FauPortalen.Membership.LeavingGroups
import FauPortalen.Membership.RequestLimits
import FauPortalen.Foundations.AssocMaps
import FauPortalen.Keys.Logout
import FauPortalen.Membership.SignupRaces
import FauPortalen.Membership.SignupSafety
import FauPortalen.Membership.Provenance
import FauPortalen.Membership.SingleUse
import FauPortalen.Membership.LiveAuthority
import FauPortalen.Foundations.SeparatedWords
import FauPortalen.Register.SlugAllocation
import FauPortalen.Foundations.PercentEncoding
import FauPortalen.Foundations.Quoting
import FauPortalen.Foundations.Spans
import FauPortalen.Membership.ActivePeriods
import FauPortalen.Membership.AddressExport
import FauPortalen.Membership.Preparation
import FauPortalen.Register.Sync.CircuitBreaker
import FauPortalen.Register.Sync.BlockedNumbers
import FauPortalen.Register.Sync.AddressedSchools
import FauPortalen.Foundations.Lockstep
import FauPortalen.Membership.GrantIndependence
import FauPortalen.Membership.LateSweeps
import FauPortalen.Directory.Arrangement
import FauPortalen.Membership.AdminEnds
import FauPortalen.Membership.ExpiredOffers
import FauPortalen.Membership.Readers
import FauPortalen.Membership.RevokedAuthority
import FauPortalen.Foundations.Occurrences
import FauPortalen.Register.AddressKeys
import FauPortalen.Register.CareOfLines
import FauPortalen.Register.SlugBudgets
import FauPortalen.Membership.EndDays
import FauPortalen.Membership.LapsedProfiles
import FauPortalen.Membership.Returners
import FauPortalen.Foundations.SharedRows
import FauPortalen.Keys.DataKeys
import FauPortalen.Keys.KeyAgreement
import FauPortalen.Register.Fetch.DetailPass
import FauPortalen.Register.Fetch.Fetched
import FauPortalen.Foundations.Simulation
import FauPortalen.Foundations.Tenures
import FauPortalen.Foundations.WordPrefixes
import FauPortalen.Register.Search
import FauPortalen.Register.Store.AppliedSearch
import FauPortalen.Register.Store.Mirrors
import FauPortalen.Register.Store.MunicipalityRefinement
import FauPortalen.Register.Store.PlannedRuns
import FauPortalen.Foundations.DelimitedRecords
import FauPortalen.Register.Store.Export
import FauPortalen.Foundations.SessionLocks
import FauPortalen.Register.Runs.Bookkeeping
import FauPortalen.Register.Runs.Books
import FauPortalen.Register.Runs.Exclusion
