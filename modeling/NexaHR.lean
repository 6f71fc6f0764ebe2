import NexaHR.Foundations.Runs
import NexaHR.Models.Database
import NexaHR.Services.Workflow
import NexaHR.Workflow.Desks
import NexaHR.System.RecordSteps
import NexaHR.System.RecordRuns
import NexaHR.System.AccountSteps
import NexaHR.System.Installation
import NexaHR.Properties.Progress
import NexaHR.Properties.FourEyes
import NexaHR.Properties.Returns
import NexaHR.Properties.Finalisable
import NexaHR.Properties.SelfDecision
import NexaHR.Properties.LiveSeats
import NexaHR.Properties.Signatories
import NexaHR.Properties.ScoreIntegrity
import NexaHR.Properties.Upgrade
import NexaHR.Properties.Notices
import NexaHR.Properties.Sweeps
import NexaHR.Properties.Views
import NexaHR.Properties.PageActions
import NexaHR.Properties.Preview
import NexaHR.Properties.Autosave
import NexaHR.Foundations.HashChain
import NexaHR.Core.JsonReading
import NexaHR.Core.Jsonb
import NexaHR.Services.Audit
import NexaHR.System.AuditRuns
import NexaHR.Properties.AuditChain
import NexaHR.Properties.AuditAnchor
import NexaHR.Models.Platform
import NexaHR.Services.Authorization
import NexaHR.System.PlatformStep
import NexaHR.Foundations.Streak
import NexaHR.Properties.Lockout
import NexaHR.System.PlatformEffects
import NexaHR.Properties.Administrators
import NexaHR.Properties.Escalation
import NexaHR.Properties.OldTokens
import NexaHR.System.SessionEffects
import NexaHR.Properties.Lineage
import NexaHR.Properties.Logout
import NexaHR.Foundations.Claim
import NexaHR.Foundations.Lasting
import NexaHR.Services.Confirmations
import NexaHR.System.ConfirmationSteps
import NexaHR.Properties.Confirmations
import NexaHR.Routers.People
import NexaHR.Properties.People
import NexaHR.Properties.Cohorts
import NexaHR.Foundations.TwoStates
import NexaHR.Routers.Charts
import NexaHR.Properties.OwnResults
import NexaHR.Properties.OneForm
import NexaHR.System.OneAccount
import NexaHR.Properties.Delivery
import NexaHR.Properties.Departure
import NexaHR.Properties.BulkCreation
import NexaHR.Tools.Framework
import NexaHR.Properties.SchemeLifeCycle
import NexaHR.Tools.Evaluations
import NexaHR.System.ConfirmedActions
import NexaHR.Properties.AdvanceParity
import NexaHR.Tools.Cards
import NexaHR.Tools.People
import NexaHR.Properties.CardFidelity
import NexaHR.Properties.SubmissionWindow
import NexaHR.Properties.Objections
import NexaHR.Properties.SelfAssessment
import NexaHR.Foundations.ThreeValued
import NexaHR.Routers.MyScoring
import NexaHR.Properties.ScoringMirror
import NexaHR.Properties.Decomposition
import NexaHR.Foundations.WeightedMean
import NexaHR.Properties.ScoringLaws
import NexaHR.Foundations.SlidingWindow
import NexaHR.Routers.Ai
import NexaHR.Properties.DailyLimit
import NexaHR.Foundations.Trimming
import NexaHR.Core.Texts
import NexaHR.Services.OrgUnit
import NexaHR.Core.Dates
import NexaHR.Services.PersonnelImport
import NexaHR.Routers.Personnel
import NexaHR.Tools.Personnel
import NexaHR.Services.ImportedRows
import NexaHR.System.PersonnelWrites
import NexaHR.Properties.PersonnelRecords
import NexaHR.Properties.OrgUnits
import NexaHR.Properties.StageComments
import NexaHR.Routers.Periods
import NexaHR.Properties.PeriodProgress
import NexaHR.Properties.VacatedSeats
import NexaHR.Foundations.Backlog
import NexaHR.Services.Documents
import NexaHR.Properties.Backfill
import NexaHR.Foundations.Scanning
import NexaHR.Tools.Fallback
import NexaHR.Properties.FallbackBlocks
import NexaHR.Foundations.Words
import NexaHR.Pages.EvidenceForm
import NexaHR.Properties.FormGate
import NexaHR.Foundations.Tally
import NexaHR.Services.StageStats
import NexaHR.Properties.StageTotals
import NexaHR.Services.ConversationMemory
import NexaHR.Properties.ChatMemory
import NexaHR.Routers.ImprovementPlans
import NexaHR.Properties.ClosedPlans
import NexaHR.Foundations.Batch
import NexaHR.System.ImportBatch
import NexaHR.Properties.ImportChains
import NexaHR.Foundations.Exchange
import NexaHR.Services.Orchestrator
import NexaHR.Properties.TurnProtocol
import NexaHR.Properties.DoubleRounding
import NexaHR.Pages.Jalali
import NexaHR.Foundations.Numbering
import NexaHR.Properties.GregorianDays
import NexaHR.Properties.JalaliDates
import NexaHR.Core.Wire
import NexaHR.Foundations.Checks
import NexaHR.Services.Provider
import NexaHR.Properties.ForeseenErrors
import NexaHR.Properties.TokenLedger
import NexaHR.Foundations.Paths
import NexaHR.Launcher.Ports
import NexaHR.Properties.OwnProcesses
import NexaHR.Foundations.Addresses
import NexaHR.Pages.Markdown
import NexaHR.Properties.AssistantLinks
import NexaHR.Properties.RenderedText
import NexaHR.Properties.MarkupReading
import NexaHR.Foundations.Percent
import NexaHR.Foundations.Lines
import NexaHR.Launcher.Database
import NexaHR.Properties.EnvFile
import NexaHR.Properties.EndpointUrl
import NexaHR.Properties.Reachability
import NexaHR.Properties.DatabaseChange
import NexaHR.Properties.SettingsFile
import NexaHR.Properties.Verification
import NexaHR.Pages.DatePicker
import NexaHR.Properties.DatePicker
import NexaHR.Pages.ApiClient
import NexaHR.Properties.TabRequests
import NexaHR.Properties.SharedCookie
import NexaHR.Foundations.SessionLock
import NexaHR.Services.SchedulerLock
import NexaHR.Properties.LeaderLock
import NexaHR.Properties.RemindersOnce
