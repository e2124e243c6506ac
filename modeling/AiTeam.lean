import AiTeam.Accumulation
import AiTeam.Approval.BatchDenial
import AiTeam.Approval.CanonicalArgs
import AiTeam.Approval.Service
import AiTeam.Approval.SingleUse
import AiTeam.Approval.Store
import AiTeam.Attempt
import AiTeam.AuthSession.Reset
import AiTeam.Automation.Consistent
import AiTeam.Automation.Linked
import AiTeam.Automation.Operations
import AiTeam.Automation.Stopped
import AiTeam.Automation.Task
import AiTeam.Base64
import AiTeam.Bisection
import AiTeam.BreadthFirst
import AiTeam.Chat.Converted
import AiTeam.ContextReset.Transcript
import AiTeam.ContextSegment.Outcomes
import AiTeam.Courier
import AiTeam.Delivery.Delivered
import AiTeam.Delivery.Linked
import AiTeam.Delivery.Repository
import AiTeam.Delivery.Service
import AiTeam.Department.Hierarchy
import AiTeam.Department.Repository
import AiTeam.Department.Tree
import AiTeam.Digits
import AiTeam.EventSse.Bounded
import AiTeam.EventSse.Deltas
import AiTeam.Fallible
import AiTeam.Feed
import AiTeam.FileTree
import AiTeam.FixedWindow
import AiTeam.Forest
import AiTeam.Hindsight.Equivalence
import AiTeam.Hindsight.LeaseStore
import AiTeam.Hindsight.Rows
import AiTeam.Identity.Assertion
import AiTeam.Identity.Replay
import AiTeam.JsonText
import AiTeam.Jwks.Authenticator
import AiTeam.Jwks.Invariant
import AiTeam.Jwks.Token
import AiTeam.Jwks.Verdicts
import AiTeam.Knowledge.Absence
import AiTeam.Knowledge.Claims
import AiTeam.Knowledge.Deletion
import AiTeam.Knowledge.Fenced
import AiTeam.Knowledge.Service
import AiTeam.Knowledge.Steps
import AiTeam.Knowledge.Store
import AiTeam.Knowledge.Submission
import AiTeam.Lease.Cache
import AiTeam.Lease.Lifetime
import AiTeam.Lease.Material
import AiTeam.Lease.Revocation
import AiTeam.LocalDirectory.Calls
import AiTeam.LocalDirectory.Citations
import AiTeam.LocalDirectory.Verified
import AiTeam.LocalTime
import AiTeam.LoginMethod.Bindings
import AiTeam.Machine
import AiTeam.Office.Geometry
import AiTeam.Office.Navigator
import AiTeam.Office.Path
import AiTeam.Office.Routes
import AiTeam.OrderedMap
import AiTeam.Outbox
import AiTeam.Passkey.Cbor
import AiTeam.Passkey.Ceremony
import AiTeam.Passkey.Replay
import AiTeam.ProjectRun.Groups
import AiTeam.ProjectRun.History
import AiTeam.ProjectRun.Process
import AiTeam.ProjectRun.Restart
import AiTeam.ProjectRun.StaticServer
import AiTeam.ProjectRun.Supervise
import AiTeam.Projection.Avatar
import AiTeam.Quota.Budget
import AiTeam.Quota.Soundness
import AiTeam.Rag.Access
import AiTeam.Rag.Authorized
import AiTeam.Rag.Leak
import AiTeam.Receipt.Effects
import AiTeam.Receipt.Idempotency
import AiTeam.Receipt.Store
import AiTeam.Recruit.Accounts
import AiTeam.Recruit.Calls
import AiTeam.Recruit.Ledger
import AiTeam.Recruit.Orders
import AiTeam.Recruit.Publication
import AiTeam.Recruit.Service
import AiTeam.Recruit.Statements
import AiTeam.Recruit.Store
import AiTeam.Remembered
import AiTeam.Retention.Deadline
import AiTeam.Retention.Invariant
import AiTeam.Retention.Repository
import AiTeam.Retention.Service
import AiTeam.Rollup.Agreement
import AiTeam.Rollup.Conserved
import AiTeam.Schedule.Agreement
import AiTeam.Schedule.AtMostOnce
import AiTeam.Schedule.Definition
import AiTeam.Schedule.Quiet
import AiTeam.Schedule.Scheduler
import AiTeam.Schedule.Service
import AiTeam.Schedule.Steps
import AiTeam.Scope
import AiTeam.SessionHistory.Attribution
import AiTeam.SigningKey.Keys
import AiTeam.SigningKey.Rotation
import AiTeam.Skill.Agreement
import AiTeam.Skill.Contract
import AiTeam.Skill.Reading
import AiTeam.Skill.Verify
import AiTeam.Table
import AiTeam.Unicode
import AiTeam.Usage.Conservation
import AiTeam.Usage.Delivered
import AiTeam.Usage.Flush
import AiTeam.Usage.Ledger
import AiTeam.Usage.Linked
import AiTeam.Usage.Store
import AiTeam.Usage.Summary
import AiTeam.Vault.Effects
import AiTeam.Vault.Identity
import AiTeam.Vault.IdentityMap
import AiTeam.Vault.Reads
import AiTeam.Vault.Steps
import AiTeam.Vault.Store
import AiTeam.WorkRecord.Import
import AiTeam.WorkRecord.Log
import AiTeam.WorkRecord.Mirror
import AiTeam.WorkRecord.ReadService
import AiTeam.WorkRecord.Repository
import AiTeam.Workspace.Crash
