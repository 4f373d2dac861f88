/-!
# Help texts
-/

namespace RouteCoverage.CommandLine

def versionText : String := "routecov 1.0.0\n"

/-- The text that explains the options. -/
def helpText : String :=
  "Route coverage reports from recorded test runs\n\n" ++
  "Usage: routecov [OPTIONS]\n\n" ++
  "Options:\n" ++
  "      --basedir <DIR>        Project base directory [default: .]\n" ++
  "      --fail-on-error        Fail when a route is not fully covered\n" ++
  "      --include-test         Also scan test source and resource roots\n" ++
  "      --includes <PATTERNS>  Only analyze files matching any of these comma-separated " ++
    "patterns\n" ++
  "      --excludes <PATTERNS>  Skip files matching any of these comma-separated patterns\n" ++
  "      --dump-dir <DIR>       Directory holding the coverage dumps\n" ++
  "      --events <FILE>        Append run events as JSON lines to this file\n" ++
  "  -v, --verbose              \n" ++
  "      --init                 Write a default routecov.toml and exit\n" ++
  "  -h, --help                 Print help\n" ++
  "  -V, --version              Print version\n"

end RouteCoverage.CommandLine
