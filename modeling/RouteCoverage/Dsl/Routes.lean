import RouteCoverage.Dsl.Chains
import RouteCoverage.Source.Parser
import RouteCoverage.SourceError

/-!
# The routes of a source file
-/

namespace RouteCoverage

/-- The routes that the text of a file builds, in the order in which its chains are found. -/
def routesOfSource [Source.Parser] (path : Path) (source : String) :
    Except SourceError (List Route) :=
  match Source.Parser.parse source with
  | .ok root => .ok ((Chain.ofTree root).map (Chain.route path.text))
  | .error line => .error ⟨path, .malformed line⟩

end RouteCoverage
