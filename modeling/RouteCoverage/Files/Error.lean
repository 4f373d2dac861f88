/-!
# Failures of the file system

The ways in which reading or writing a file can fail, and their wordings.
-/

namespace RouteCoverage

/-- Why a file system operation fails. -/
inductive FileError where
  | notFound
  | alreadyExists
  | notDirectory
  | isDirectory
  | notText
  /-- any other failure, in the words of the system -/
  | other (text : String)
deriving DecidableEq, Repr, Inhabited

/-- The wording of a file system failure. -/
def FileError.message : FileError → String
  | notFound => "No such file or directory (os error 2)"
  | alreadyExists => "File exists (os error 17)"
  | notDirectory => "Not a directory (os error 20)"
  | isDirectory => "Is a directory (os error 21)"
  | notText => "stream did not contain valid UTF-8"
  | other text => text

end RouteCoverage
