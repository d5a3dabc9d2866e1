import LateBinding.Resolution.StringResolver
import LateBinding.Inspection
import LateBinding.Dispatch.Settings
import LateBinding.Proofs.PartialMaps
import LateBinding.Proofs.ArrayResolution
import LateBinding.Proofs.ResolutionOutcome
import LateBinding.Proofs.ElementAccess
import LateBinding.Proofs.ActionOutcomes
import LateBinding.Proofs.ArrayPrimitives
import LateBinding.Proofs.LinkTimeAdaptation
import LateBinding.Proofs.CallHistory
import LateBinding.Proofs.CacheTransparency
import LateBinding.Proofs.ArgumentCounts
import LateBinding.Proofs.CallAccounting
import LateBinding.Proofs.FailedCalls
import LateBinding.Proofs.StaleTargets
import LateBinding.Proofs.NumericEquality
import LateBinding.Proofs.Bisimilarity
import LateBinding.Proofs.ReturnKinds
import LateBinding.Proofs.DynamicCalls
import LateBinding.Proofs.ElementWrites
import LateBinding.Proofs.AccessRights
import LateBinding.Proofs.EqualityLaws
import LateBinding.Proofs.Reachability
import LateBinding.Proofs.BackReferences
import LateBinding.Proofs.BoundedTraversals
import LateBinding.Proofs.EqualTexts
import LateBinding.Proofs.KindSoundness
import LateBinding.Proofs.IteratorRuns
import LateBinding.Proofs.WritePaths
import LateBinding.Proofs.IgnoredArguments
import LateBinding.Proofs.CommutingWrites
import LateBinding.Proofs.Tails
import LateBinding.Proofs.ReadPaths
import LateBinding.Proofs.IdentityAdapters
import LateBinding.Proofs.ArgumentAccess
import LateBinding.Proofs.ThresholdTexts
import LateBinding.Proofs.NearestNumber
import LateBinding.Proofs.Widening
import LateBinding.Proofs.UnboxedArrays
import LateBinding.Proofs.SignatureTexts
