import OpenShapeForge.Formula.ParserExact
import OpenShapeForge.Operations.EditLeaseExclusive
import OpenShapeForge.Connectors.TokenRotation
import OpenShapeForge.Operations.ReceiptOnce
import OpenShapeForge.Jobs.RepeatedStarts
import OpenShapeForge.Jobs.InboundOnce
import OpenShapeForge.Auth.PersonRoles
import OpenShapeForge.Control.ProjectionExact
import OpenShapeForge.Extensions.JournalComplete
import OpenShapeForge.Extensions.SuspensionReach
import OpenShapeForge.Extensions.ReferenceTargets
import OpenShapeForge.Operations.GrantSupersede
import OpenShapeForge.Operations.VersionGuards
import OpenShapeForge.Operations.TakeoverKept
import OpenShapeForge.Auth.SignedIdentity
import OpenShapeForge.Operations.SecretsConcealed
import OpenShapeForge.Compiler.TenantSafety
import OpenShapeForge.Inbound.DistinctEvents
import OpenShapeForge.Operations.SourceSyncKept
import OpenShapeForge.Canonical.SafePresence
import OpenShapeForge.Formula.TextGrowth
import OpenShapeForge.Formula.WalkAgrees
import OpenShapeForge.Formula.ReadersAgree
import OpenShapeForge.Formula.CycleExact
import OpenShapeForge.Formula.Multiples
import OpenShapeForge.Renderer.OpenedConditions
import OpenShapeForge.Operations.DelegationsApplied
import OpenShapeForge.Operations.FenceOrder
import OpenShapeForge.Documents.ServedVariant
import OpenShapeForge.Extensions.SortedPage
import OpenShapeForge.Documents.CanonicalContent
import OpenShapeForge.Extensions.WideningOnly
import OpenShapeForge.Extensions.FiltersSeen
import OpenShapeForge.Connectors.SlotsKept
import OpenShapeForge.Connectors.GovernorBudget
import OpenShapeForge.Connectors.EgressKept
import OpenShapeForge.Operations.CardinalityKept
import OpenShapeForge.Operations.OrdinaryWrites
import OpenShapeForge.Documents.FollowAgain
import OpenShapeForge.Operations.GuessesBounded
import OpenShapeForge.Operations.BlueprintCopy
import OpenShapeForge.Workflow.FallbackDrawing
import OpenShapeForge.Extensions.TenantGraphExact
import OpenShapeForge.Formula.TokenSpans
import OpenShapeForge.Operations.ValueInvariants
import OpenShapeForge.Operations.ChangeMarkers
import OpenShapeForge.Extensions.FormulaValues
import OpenShapeForge.Jobs.LiveRows
