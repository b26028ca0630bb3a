import Patchbay.Main
import Patchbay.Patch.TopologicalOrder
import Patchbay.Project.Edition
import Patchbay.Proofs.Bundle.Acceptance
import Patchbay.Proofs.Bundle.InjectedPins
import Patchbay.Proofs.Bundle.LinkedPins
import Patchbay.Proofs.Bundle.Merging
import Patchbay.Proofs.Document.DefaultValues
import Patchbay.Proofs.Document.Finite
import Patchbay.Proofs.Document.Loading
import Patchbay.Proofs.Document.RoundTrip
import Patchbay.Proofs.Extraction.Completeness
import Patchbay.Proofs.Extraction.Cycles
import Patchbay.Proofs.Extraction.Delivery
import Patchbay.Proofs.Extraction.Failures
import Patchbay.Proofs.Extraction.Frame
import Patchbay.Proofs.Extraction.Growth
import Patchbay.Proofs.Extraction.ReadBack
import Patchbay.Proofs.Extraction.Supplying
import Patchbay.Proofs.Extraction.Validity
import Patchbay.Proofs.Json.ReadBack
import Patchbay.Proofs.Json.Reading
import Patchbay.Proofs.Json.Representable
import Patchbay.Proofs.OrderedMap
import Patchbay.Proofs.Outcome
import Patchbay.Proofs.Patch.Building
import Patchbay.Proofs.Patch.Confluence
import Patchbay.Proofs.Patch.Erasing
import Patchbay.Proofs.Patch.Listing
import Patchbay.Proofs.Patch.TopologicalOrder
import Patchbay.Proofs.Project.Resolution
import Patchbay.Proofs.Segments
import Patchbay.Proofs.Terminals
