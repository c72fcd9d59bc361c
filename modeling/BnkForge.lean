import BnkForge.Lib.Transition
import BnkForge.Lib.Rank
import BnkForge.Lib.Potential
import BnkForge.Lib.PythonText
import BnkForge.Lib.PythonValue
import BnkForge.Lib.IPv4
import BnkForge.Lock.Fencing
import BnkForge.Models.Status
import BnkForge.Module.State
import BnkForge.Upgrade.Execution
import BnkForge.Upgrade.Completeness
import BnkForge.Upgrade.Rollback
import BnkForge.Workspace.Files
import BnkForge.Workspace.Tasks
import BnkForge.Workspace.Freshness
import BnkForge.Workspace.Reviewed
import BnkForge.Graph.Layers
import BnkForge.Deploy.Wave
import BnkForge.Deploy.Termination
import BnkForge.Deploy.Plan
import BnkForge.Module.Outcomes
import BnkForge.Module.Lifecycle
import BnkForge.Module.Orphans
import BnkForge.Module.Superseded
import BnkForge.Module.Cancel
import BnkForge.Destroy.Chain
import BnkForge.Destroy.Barrier
import BnkForge.Destroy.Finalize
import BnkForge.Service.ProjectModule
import BnkForge.Service.Writers
import BnkForge.Dispatch.Queue
import BnkForge.Destroy.Wakeup
import BnkForge.Destroy.Completeness
import BnkForge.Destroy.Detection
import BnkForge.Destroy.Scope
import BnkForge.Destroy.StackLock
import BnkForge.Deploy.Redeploy
import BnkForge.Deploy.RunHandle
import BnkForge.Module.Recovery
import BnkForge.Workspace.Sweep
import BnkForge.Fleet.Tables
import BnkForge.Fleet.Selector
import BnkForge.Fleet.Waves
import BnkForge.Fleet.Executor
import BnkForge.Fleet.System
import BnkForge.Fleet.History
import BnkForge.Fleet.Lifecycle
import BnkForge.Fleet.Once
import BnkForge.Fleet.SingleUse
import BnkForge.Fleet.Authority
import BnkForge.Migration.ProxyMigration
import BnkForge.Migration.Gates
import BnkForge.Migration.Progress
import BnkForge.Container.Redaction
import BnkForge.Container.Manifest
import BnkForge.Container.Engine
import BnkForge.Container.Accepted
import BnkForge.Container.Phase
import BnkForge.Container.Shell
import BnkForge.Container.Structure
import BnkForge.Container.TimeLimits
import BnkForge.Container.RunOnce
import BnkForge.Reachability.Breaker
import BnkForge.Dpu.TmfifoIpam
import BnkForge.Dpu.VlanIpam
import BnkForge.Graph.Dependencies
import BnkForge.Service.Dependencies
import BnkForge.Keys.Store
import BnkForge.Keys.Shared
import BnkForge.Keys.Provenance
import BnkForge.Secrets.Service
import BnkForge.Secrets.Delivery
import BnkForge.Auth.Tokens
import BnkForge.Auth.Admins
import BnkForge.Auth.Seeded
import BnkForge.Auth.Middleware
import BnkForge.Proxy.Routing
import BnkForge.Proxy.Namespaces
import BnkForge.Proxy.CisLosses
import BnkForge.Proxy.Consistency
import BnkForge.Proxy.Objects
import BnkForge.Operators.Queue
import BnkForge.Operators.Registrations
import BnkForge.Operators.Reconnect
import BnkForge.Operators.Commands
import BnkForge.Operators.Transports
import BnkForge.Config.Location
import BnkForge.Config.Renames
import BnkForge.Config.Passphrase
import BnkForge.Graph.Order
import BnkForge.Blueprint.Edges
import BnkForge.Backup.Restore
import BnkForge.Backup.Exclusion
import BnkForge.Catalog.Latest
import BnkForge.Catalog.Retention
import BnkForge.Catalog.Pins
import BnkForge.Catalog.Inheritance
import BnkForge.Module.Audit
import BnkForge.Tunnels.Registered
import BnkForge.BareMetal.Deployments
import BnkForge.Graph.Validation
import BnkForge.Graph.Closure
import BnkForge.Stack.SubnetConflicts
import BnkForge.Stack.SubnetFailures
import BnkForge.Variables.Mappings
import BnkForge.Variables.Sources
import BnkForge.Variables.Precedence
import BnkForge.Catalog.Resolution
import BnkForge.Catalog.Semver
import BnkForge.Container.Containment
import BnkForge.Stack.ModuleVariables
import BnkForge.Catalog.Atomicity
import BnkForge.Destroy.Janitor
import BnkForge.Catalog.Substitution
import BnkForge.Variables.As3
import BnkForge.Kubeconfig.Portability
import BnkForge.Kubeconfig.Tunnel
import BnkForge.Export.Diff
import BnkForge.Terraform.StateParser
import BnkForge.Config.Literals
import BnkForge.Backup.Extraction
import BnkForge.Proxy.As3Totality
