import Facet.Edit
import Facet.Folder
import Facet.Proofs.BoxBounds
import Facet.Proofs.BoxVolumes
import Facet.Proofs.CarriageReturns
import Facet.Proofs.CylinderLevels
import Facet.Proofs.CylinderNumbers
import Facet.Proofs.DocumentHeaders
import Facet.Proofs.EvenSlices
import Facet.Proofs.GatheredNormals
import Facet.Proofs.IgesNames
import Facet.Proofs.IgesReload
import Facet.Proofs.LongestRecords
import Facet.Proofs.MeshRuns
import Facet.Proofs.SegmentOrder
import Facet.Proofs.SolidRoundTrip
import Facet.Proofs.SphereNumbers
import Facet.Proofs.StepDamage
import Facet.Proofs.StepErrors
import Facet.Proofs.StepGeometry
import Facet.Proofs.StepNormals
import Facet.Proofs.StepReads
import Facet.Proofs.StepTrailing
import Facet.Proofs.UnitNormals
import Facet.Proofs.VertexDistances
