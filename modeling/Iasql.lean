import Iasql.AptListing
import Iasql.AptUpdates
import Iasql.Attachment
import Iasql.Attempts
import Iasql.AuditLog
import Iasql.Aws
import Iasql.AwsDiff
import Iasql.BatchOperations
import Iasql.BlockDevices
import Iasql.Brackets
import Iasql.BucketCreate
import Iasql.BuildDeletion
import Iasql.Calculus.Acyclic
import Iasql.Calculus.Audits
import Iasql.Calculus.Base64
import Iasql.Calculus.Batches
import Iasql.Calculus.Blocks
import Iasql.Calculus.Dict
import Iasql.Calculus.Faults
import Iasql.Calculus.Halting
import Iasql.Calculus.Interleaving
import Iasql.Calculus.Jsonb
import Iasql.Calculus.NestedLoops
import Iasql.Calculus.Newest
import Iasql.Calculus.OneSided
import Iasql.Calculus.OrderedMap
import Iasql.Calculus.OwnKeys
import Iasql.Calculus.Paging
import Iasql.Calculus.Patterns
import Iasql.Calculus.Process
import Iasql.Calculus.Program
import Iasql.Calculus.Referenced
import Iasql.Calculus.Restarts
import Iasql.Calculus.Rulesets
import Iasql.Calculus.Runs
import Iasql.Calculus.Saturation
import Iasql.Calculus.Separated
import Iasql.Calculus.Settling
import Iasql.Calculus.Sweeping
import Iasql.Calculus.Tables
import Iasql.Calculus.Turns
import Iasql.Calculus.Unawaited
import Iasql.Calculus.Views
import Iasql.Calculus.Visits
import Iasql.CertificateCleanup
import Iasql.CertificateRequest
import Iasql.ChangeWindows
import Iasql.Changes
import Iasql.Classification
import Iasql.CloudIds
import Iasql.Commit
import Iasql.CommitGuard
import Iasql.CommitOrder
import Iasql.Comparators
import Iasql.Confinement
import Iasql.Confluence
import Iasql.Connect
import Iasql.ConnectCompensation
import Iasql.ContainerDefinitions
import Iasql.ContainerImages
import Iasql.ContainerRoundTrip
import Iasql.ContextIsolation
import Iasql.Contexts
import Iasql.Convergence
import Iasql.Coverage
import Iasql.Creations
import Iasql.CustomIds
import Iasql.DBClusterUpdate
import Iasql.Dashboard
import Iasql.DashboardEntitlement
import Iasql.DefaultRegion
import Iasql.DeleteAllRecords
import Iasql.Diff
import Iasql.Disconnect
import Iasql.DistributionFrame
import Iasql.DomainUpdates
import Iasql.DynamoKeys
import Iasql.Ec2Roles
import Iasql.EcrBuild
import Iasql.EcsBlocks
import Iasql.EcsDelete
import Iasql.EcsImport
import Iasql.EcsInsert
import Iasql.EcsLabels
import Iasql.EcsRoundTrip
import Iasql.EcsSync
import Iasql.EcsTables
import Iasql.EcsUpdate
import Iasql.EditorTabs
import Iasql.Edits
import Iasql.EndpointUpdates
import Iasql.Engine
import Iasql.EntityIds
import Iasql.Exhaustive
import Iasql.FailedCreate
import Iasql.FargateEquals
import Iasql.FixedPoints
import Iasql.Footprint
import Iasql.ForcedRuns
import Iasql.FullRead
import Iasql.GeneratedKeys
import Iasql.HandBack
import Iasql.History
import Iasql.ImageReads
import Iasql.Install
import Iasql.InstallAtomicity
import Iasql.InstalledSet
import Iasql.InstanceProfiles
import Iasql.InstanceUpdates
import Iasql.Instances
import Iasql.IsEqual
import Iasql.Json
import Iasql.JsonMeaning
import Iasql.LazyDep
import Iasql.ListEquals
import Iasql.Listeners
import Iasql.LoadBalancerCreate
import Iasql.LockRelease
import Iasql.MachineReads
import Iasql.MemoCoherence
import Iasql.Metadata
import Iasql.MetadataUpdates
import Iasql.ModSort
import Iasql.NetworkAcls
import Iasql.Networks
import Iasql.ObjectsAreSame
import Iasql.OpenSearch
import Iasql.Outstanding
import Iasql.PoliciesAreSame
import Iasql.Policy
import Iasql.PolicyMeaning
import Iasql.PolicyRewrites
import Iasql.Presence
import Iasql.Preview
import Iasql.ProfilesFollow
import Iasql.Progress
import Iasql.ProtectedRecords
import Iasql.Rds
import Iasql.RdsCreate
import Iasql.RdsUpdate
import Iasql.ReadPaths
import Iasql.Realization
import Iasql.Realm
import Iasql.Reconcile
import Iasql.RecordReads
import Iasql.RecordSets
import Iasql.Recreate
import Iasql.Recreation
import Iasql.Reference
import Iasql.RegionRouting
import Iasql.Renaming
import Iasql.Replay
import Iasql.Resolution
import Iasql.Restores
import Iasql.Revert
import Iasql.RevertWindow
import Iasql.Revisions
import Iasql.Roles
import Iasql.Rounds
import Iasql.Route53
import Iasql.RouteDestinations
import Iasql.RouteTableUpdate
import Iasql.Routes
import Iasql.RulesRoundTrip
import Iasql.SecretValues
import Iasql.SecurityGroupRules
import Iasql.SecurityGroups
import Iasql.ServiceNames
import Iasql.Shared
import Iasql.SideReads
import Iasql.SingleReads
import Iasql.SortInPlace
import Iasql.Sql
import Iasql.StoreFrame
import Iasql.SubQuery
import Iasql.SubnetAcls
import Iasql.SubnetArrays
import Iasql.SubnetGroupUpdate
import Iasql.TabResults
import Iasql.TagMaps
import Iasql.Tags
import Iasql.TargetGroupReplacement
import Iasql.TargetGroups
import Iasql.TemporaryResources
import Iasql.Tenancy
import Iasql.TenancyRuns
import Iasql.TopicUpdates
import Iasql.TransactionLock
import Iasql.Transient
import Iasql.Turns
import Iasql.Upgrade
import Iasql.UpgradeCompletion
import Iasql.UpgradeRuns
import Iasql.UpgradeViews
import Iasql.UserData
import Iasql.VpcCreate
import Iasql.ZoneRenaming
import Iasql.ZoneSelection
