import BasicScript.Host.Hook
import BasicScript.Host.Namespace
import BasicScript.Host.Native
import BasicScript.Host.TypeTable

/-!
# Hosts

Everything that the surrounding application supplies to a program.
-/

namespace BasicScript

/-- What a program finds around it. -/
structure Host where
  natives : Natives := []
  namespaces : Namespaces := []
  types : TypeTable := []
  hooks : Hooks := {}

end BasicScript
