import MegaPanel.Scheduler.Fencing
import MegaPanel.Scheduler.Sources
import MegaPanel.Scheduler.Capacity
import MegaPanel.Scheduler.Rotation
import MegaPanel.Scheduler.Executions
import MegaPanel.Scheduler.Absorbing
import MegaPanel.IndexSchedule.Head
import MegaPanel.SiteManifest.Updates
import MegaPanel.Release.Integrity
import MegaPanel.Release.Trees
import MegaPanel.Release.Streams
import MegaPanel.Lib.Like
import MegaPanel.Geo.Model
import MegaPanel.Geo.Placement
import MegaPanel.Geo.Application
import MegaPanel.Geo.Hierarchy
import MegaPanel.Crawl.Progress
import MegaPanel.ReleaseManager.Runs
import MegaPanel.Lib.Loop
import MegaPanel.Release.Retention
import MegaPanel.Release.Pruning
import MegaPanel.Candidate.Agreement
import MegaPanel.LeadDelivery.Fencing
import MegaPanel.LeadDelivery.Attempts
import MegaPanel.LeadDelivery.Fold
import MegaPanel.LeadDelivery.Aggregates
import MegaPanel.AlertDelivery.Attempts
import MegaPanel.PageDraft.Gate
import MegaPanel.PageDraft.Incident
import MegaPanel.Provenance.Indexed
import MegaPanel.Telemetry.Conservation
import MegaPanel.Telemetry.Series
import MegaPanel.Auth.Families
import MegaPanel.Auth.TokenBlacklist
import MegaPanel.Audit.Chain
import MegaPanel.Rendering.Secrets
import MegaPanel.Ssrf.Pinned
import MegaPanel.StaticSite.Survival
import MegaPanel.StaticSite.Verification
import MegaPanel.StaticSite.Anatomy
import MegaPanel.StorageRetention.Model
import MegaPanel.StorageRetention.Runs
import MegaPanel.StorageRetention.Deletions
import MegaPanel.StorageRetention.Recovery
import MegaPanel.SiteStructure.Model
import MegaPanel.SiteStructure.Lifecycle
import MegaPanel.SiteStructure.Schema
import MegaPanel.SiteStructure.Proposals
import MegaPanel.Semantic.Model
import MegaPanel.Semantic.Versions
import MegaPanel.Prompts.Model
import MegaPanel.Prompts.Activation
import MegaPanel.SystemOperations.Model
import MegaPanel.SystemOperations.Terminality
import MegaPanel.AiBudget.Model
import MegaPanel.AiBudget.Books
import MegaPanel.AiBudget.Bound
import MegaPanel.AiRuns.Decided
import MegaPanel.AiContent.Provenance
import MegaPanel.Withdrawal.Model
import MegaPanel.Withdrawal.Finality
import MegaPanel.LeadRouting.Schema
import MegaPanel.LeadRouting.Model
import MegaPanel.LeadRouting.Activation
import MegaPanel.LeadRouting.Gate
import MegaPanel.LeadIntake.Model
import MegaPanel.LeadIntake.ExactlyOnce
import MegaPanel.Publishing.Model
import MegaPanel.Redaction.Policy
import MegaPanel.DesignProfiles.InForce
import MegaPanel.Hostnames.Exclusive
import MegaPanel.Redaction.Identifiers
import MegaPanel.BulkEdit.Model
import MegaPanel.BulkEdit.Undo
import MegaPanel.LegalReview.Model
import MegaPanel.LegalReview.Publication
import MegaPanel.MediaReview.Assets
import MegaPanel.MediaReview.Model
import MegaPanel.MediaReview.Publication
import MegaPanel.PagePlans.Generation
import MegaPanel.PagePlans.Places
import MegaPanel.PagePlans.Review
import MegaPanel.PagePlans.Cities
import MegaPanel.PagePlans.Claims
import MegaPanel.Dsar.Coverage
import MegaPanel.PagePlans.Lineage
import MegaPanel.Publishing.Disk
import MegaPanel.Incidents.Recovery
import MegaPanel.RateLimit.SlidingWindow
import MegaPanel.Egress.Reachable
import MegaPanel.AiProviders.Pricing
import MegaPanel.AiProviders.Responses
import MegaPanel.AlertDelivery.Projection
import MegaPanel.AlertDelivery.Isolation
import MegaPanel.Keywords.Agreement
import MegaPanel.Rendering.Phones
