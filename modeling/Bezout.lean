import Bezout.Annotation
import Bezout.Command
import Bezout.Main
import Bezout.Proofs.Certification
import Bezout.Proofs.CofactorCertificate
import Bezout.Proofs.CoprimePart
import Bezout.Proofs.Irreducibility
import Bezout.Proofs.Rationals
import Bezout.Proofs.RoundTrip
import Bezout.Script
import Bezout.Proofs.Roots
import Bezout.Proofs.RingLaws
import Bezout.Proofs.Readings
import Bezout.Proofs.Equivalence
import Bezout.Proofs.Problems
import Bezout.Proofs.Commands
import Bezout.Proofs.Legibility
import Bezout.Proofs.PrintedResults
import Bezout.Computation
import Bezout.Proofs.Nesting
import Bezout.Proofs.CofactorSizes
import Bezout.Proofs.PrimeFields
import Bezout.Proofs.Rejections
import Bezout.Proofs.RingChanges
import Bezout.Proofs.Associates
import Bezout.Proofs.UniqueDivision
import Bezout.Proofs.Coprimality
import Bezout.Proofs.LinearProducts
import Bezout.Proofs.Evaluation
import Bezout.Proofs.CommonDivisors
import Bezout.Proofs.DivisionSteps
import Bezout.Proofs.Derivatives
import Bezout.Proofs.Ordering
import Bezout.Proofs.GivenValues
import Bezout.Proofs.Restoration
import Bezout.Proofs.Snapshots
import Bezout.Proofs.Tokenization
import Bezout.Proofs.Annotations
import Bezout.Proofs.RingNames
import Bezout.Proofs.LoopExits
import Bezout.Proofs.RepeatedProducts
