namespace Bindery

/-! Paths as text and as the names between their slashes. -/

def isAbsolute (path : String) : Bool :=
  path.toList.head? == some '/'

/-- An absolute name stands for itself; any other is put below the base. -/
def joinPath (base name : String) : String :=
  if isAbsolute name then name
  else if base.isEmpty || base.toList.getLast? = some '/' then base ++ name
  else base ++ "/" ++ name

/-- The text between the slashes, empty segments and dots included. -/
def pathSegments (path : String) : List String :=
  (path.toList.splitOn '/').map String.ofList

/-- Neither an empty segment nor a dot leads anywhere. -/
def isName (segment : String) : Bool :=
  segment != "" && segment != "."

def pathNames (path : String) : List String :=
  (pathSegments path).filter isName

/-- The segments that lead to what holds the last name; an absolute path keeps its empty one. -/
def parentSegments (path : String) : List String :=
  let names := pathNames path
  if isAbsolute path && !names.isEmpty then "" :: names.dropLast else names.dropLast

/-- Segments at the end that lead nowhere are dropped. -/
def trimmedSegments (segments : List String) : List String :=
  (segments.reverse.dropWhile (!isName ·)).reverse

/-- The text of a path up to the slashes and dots before its last name. -/
def parentPath (path : String) : String :=
  "/".intercalate (trimmedSegments (trimmedSegments (pathSegments path)).dropLast)

/-- Whether the path starts at the root or has a segment that leads upwards. -/
def leadsOutside (path : String) : Bool :=
  isAbsolute path || (pathSegments path).contains ".."

end Bindery
