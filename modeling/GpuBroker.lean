import GpuBroker.Library.Table
import GpuBroker.Library.Transaction
import GpuBroker.Library.Pass
import GpuBroker.Library.Session
import GpuBroker.ControlPlane.Domain
import GpuBroker.ControlPlane.Store
import GpuBroker.ControlPlane.Effects
import GpuBroker.ControlPlane.Service
import GpuBroker.ControlPlane.Moves
import GpuBroker.ControlPlane.Transactions
import GpuBroker.ControlPlane.Capacity
import GpuBroker.ControlPlane.Money
import GpuBroker.ControlPlane.Runs
import GpuBroker.ControlPlane.Outcomes
import GpuBroker.ControlPlane.Guarantees
import GpuBroker.ControlPlane.Fencing
import GpuBroker.ControlPlane.Policy
import GpuBroker.ControlPlane.Scoring
import GpuBroker.ControlPlane.Decide
import GpuBroker.ControlPlane.Placements
import GpuBroker.ControlPlane.JobCap
import GpuBroker.ControlPlane.Deeds
import GpuBroker.ControlPlane.Cancels
import GpuBroker.ControlPlane.Timeouts
import GpuBroker.ControlPlane.Acks
import GpuBroker.ControlPlane.Leases
import GpuBroker.ControlPlane.Ticks
import GpuBroker.ControlPlane.Quotas
import GpuBroker.ControlPlane.Starvation
import GpuBroker.ControlPlane.Protection
import GpuBroker.ControlPlane.Receipts
import GpuBroker.ControlPlane.Queues
import GpuBroker.ControlPlane.Admissions
import GpuBroker.ControlPlane.Explain
import GpuBroker.ControlPlane.Exact
import GpuBroker.ControlPlane.Thrash
import GpuBroker.ControlPlane.Parity
import GpuBroker.ControlPlane.Deferrals
import GpuBroker.ControlPlane.Delays
import GpuBroker.Library.Program
import GpuBroker.Library.Files
import GpuBroker.Library.Json
import GpuBroker.Library.Lines
import GpuBroker.Broker.Money
import GpuBroker.Broker.Records
import GpuBroker.Broker.Store
import GpuBroker.Broker.Operations
import GpuBroker.Broker.Books
import GpuBroker.Broker.Conduct
import GpuBroker.Broker.Methods
import GpuBroker.Broker.Passes
import GpuBroker.Broker.Accounts
import GpuBroker.Broker.Notes
import GpuBroker.Broker.Requests
import GpuBroker.Broker.Runs
import GpuBroker.Broker.Rows
import GpuBroker.Broker.Crashes
import GpuBroker.Broker.Histories
import GpuBroker.Broker.Plans
import GpuBroker.Broker.Verdicts
import GpuBroker.Broker.Mutators
import GpuBroker.Broker.Fairshare
import GpuBroker.Broker.Standings
import GpuBroker.Broker.Edges
import GpuBroker.Broker.Output
import GpuBroker.Broker.Ceilings
import GpuBroker.Broker.Races
import GpuBroker.Broker.Admission
import GpuBroker.Broker.Holds
import GpuBroker.Broker.Logs
import GpuBroker.Broker.Tails
import GpuBroker.Broker.Environments
import GpuBroker.Broker.Drifts
import GpuBroker.Broker.Launches
import GpuBroker.Broker.Billing
import GpuBroker.Broker.Months
import GpuBroker.Broker.Reclaims
import GpuBroker.Broker.Warnings
import GpuBroker.Broker.Officers
import GpuBroker.Broker.Checkpoints
import GpuBroker.Broker.Restores
import GpuBroker.Broker.Progress
import GpuBroker.Broker.Resumes
import GpuBroker.Broker.Ec2
import GpuBroker.Broker.Chores
import GpuBroker.Library.Calls
import GpuBroker.Broker.Fleet
import GpuBroker.Broker.Accesses
import GpuBroker.Broker.Gce
import GpuBroker.Broker.Releases
import GpuBroker.Broker.Abandonments
import GpuBroker.Broker.Accruals
import GpuBroker.Broker.Reports
import GpuBroker.Agent.Spool
import GpuBroker.Agent.Loop
import GpuBroker.Agent.Conduct
import GpuBroker.Agent.Delivery
import GpuBroker.Agent.Durability
import GpuBroker.Agent.Kube
import GpuBroker.Agent.LogLines
import GpuBroker.Agent.Sim
import GpuBroker.Agent.Stops
import GpuBroker.Broker.Cursors
import GpuBroker.Library.Course
import GpuBroker.Broker.Looks
import GpuBroker.Broker.Fake
import GpuBroker.Broker.Completions
import GpuBroker.Library.Veil
import GpuBroker.Broker.Providers
import GpuBroker.Broker.Turns
import GpuBroker.Broker.Outages
import GpuBroker.Broker.Tiers
import GpuBroker.Broker.Schema
import GpuBroker.Broker.Migrations
import GpuBroker.Broker.Lab
import GpuBroker.Broker.Homes
import GpuBroker.Broker.Errands
import GpuBroker.Broker.Exits
import GpuBroker.Broker.Cards
import GpuBroker.Broker.Caps
import GpuBroker.Library.Ordinals
import GpuBroker.Broker.Labels
import GpuBroker.Library.Words
import GpuBroker.ControlPlane.Charges
import GpuBroker.ControlPlane.Forecast
import GpuBroker.ControlPlane.Listings
import GpuBroker.ControlPlane.Simulator
import GpuBroker.ControlPlane.Bookkeeping
import GpuBroker.Broker.Scripts
import GpuBroker.Broker.Crowds
import GpuBroker.ControlPlane.Lifelines
import GpuBroker.ControlPlane.Tenants
