import Facet.StepDocument
import Facet.IgesDocument

namespace Facet

/-- The document that holds the model. Line breaks in a name are written as they are. -/
def Model.toText (m : Model) : MeshFormat → String
  | .step => String.ofList (stepText m)
  | .iges => String.ofList (igesText m)

def Model.ofText (format : MeshFormat) (text : String) : Except DocumentError Model :=
  match format with
  | .step => readStep text.toList
  | .iges => readIges text.toList

end Facet
