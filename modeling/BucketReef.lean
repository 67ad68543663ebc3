import BucketReef.Versions.PageSplits
import BucketReef.Versions.Visibility
import BucketReef.Versions.ScanInvariant
import BucketReef.Versions.Watermark
import BucketReef.Scheduling.Limit
import BucketReef.Migration.ManagedPolicies
import BucketReef.Portal.RequestDecisions
import BucketReef.Portal.StorageSpaceRoles
import BucketReef.Portal.PersonalKeys
import BucketReef.Portal.ExternalRevocation
import BucketReef.Migration.DraftStarts
import BucketReef.Portal.ShareMutations
import BucketReef.Portal.AccessReview
import BucketReef.Portal.RoleScopes
import BucketReef.Leases.Exclusion
import BucketReef.Caches.Waiters
import BucketReef.Browser.ReadYourWrites
import BucketReef.Sessions.Versions
import BucketReef.Access.Monotone
import BucketReef.Identities.Revocation
import BucketReef.Deletions.Sagas
import BucketReef.Bootstrap.Exclusive
import BucketReef.Cleanup.Exact
import BucketReef.Webhooks.Monotone
import BucketReef.Webhooks.Unshared
import BucketReef.Purge.Accounting
import BucketReef.Browser.FilteredCompleteness
import BucketReef.Migration.SyncConvergence
import BucketReef.Identities.LinkSafety
import BucketReef.Quotas.EdgeTriggered
import BucketReef.Browser.CorsRepair
import BucketReef.Portal.SurgicalLifecycle
import BucketReef.Portal.LoggingAtomicity
import BucketReef.Usage.Homomorphism
import BucketReef.Browser.SortedPages
import BucketReef.Portal.RestoreConsistency
import BucketReef.Texts.ShellWords
import BucketReef.Texts.Percent
import BucketReef.Portal.AccessRecords
import BucketReef.Portal.AccessRecordLayout
import BucketReef.Portal.RecordParts
import BucketReef.Portal.RecordRoundTrip
import BucketReef.Listing.StorageOpsPages
import BucketReef.Health.Segments
import BucketReef.Health.SegmentHistory
import BucketReef.Health.AverageRounding
import BucketReef.Expiration.AccessKeys
import BucketReef.Expiration.Attempts
import BucketReef.Expiration.Coverage
import BucketReef.Listing.CephAdminRequests
import BucketReef.Listing.CephAdminSnapshot
import BucketReef.Listing.CephAdminCacheKeys
import BucketReef.FolderArchive.Plan
import BucketReef.FolderArchive.Safety
import BucketReef.Listing.PhysicalReads
import BucketReef.Listing.SameBucket
import BucketReef.BulkRestore.Exact
import BucketReef.Multipart.StreamSafety
import BucketReef.Integrity.VerificationRuns
import BucketReef.Integrity.Coverage
import BucketReef.Usage.TrafficTotals
import BucketReef.Costs.Agreement
import BucketReef.ManagedAccess.Tracking
import BucketReef.Comparison.Resolution
import BucketReef.Listing.FilterAgreement
import BucketReef.RateLimits.Addresses
import BucketReef.Migration.Commands
import BucketReef.Migration.Frames
import BucketReef.Migration.StopRequests
