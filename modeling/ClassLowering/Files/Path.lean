/-! # Paths

A path is a text of pieces with slashes between them. These functions look at the text only; what
a path leads to is the matter of a file tree. -/

namespace ClassLowering.Path

/-- The text between the slashes; an empty piece stands where nothing is between two of them. -/
def pieces (path : String) : List String := path.splitOn "/"

/-- Whether a path starts at the root. -/
def isAbsolute (path : String) : Bool := path.startsWith "/"

/-- Whether a path can be followed: it is not empty and has at most 4095 bytes, and each piece has
at most 255. -/
def isUsable (path : String) : Bool :=
  !path.isEmpty && path.utf8ByteSize ≤ 4095 && (pieces path).all (·.utf8ByteSize ≤ 255)

/-- A path continued by a name. -/
def join (path name : String) : String :=
  if path.isEmpty || path.endsWith "/" then path ++ name else path ++ "/" ++ name

/-- Whether a path is written as the working directory: a `.`, with nothing but more of them
behind it. -/
def isCurrent (path : String) : Bool :=
  path.startsWith "." && (pieces path).all fun piece => piece = "" || piece = "."

/-- The path of an entry of a directory; the working directory is not written in front. -/
def entry (directory name : String) : String :=
  if isCurrent directory then name else join directory name

/-- The last name of a path; a final slash or `.` does not count, and `..` is no name. -/
def fileName? (path : String) : Option String :=
  let named := (pieces path).filter fun piece => piece ≠ "" && piece ≠ "."
  named.getLast?.filter (· ≠ "..")

/-- The part of a name behind its last period; a name has none whose only period comes first. -/
def nameExtension? (name : String) : Option String :=
  let reversed := name.toList.reverse
  match reversed.dropWhile (· ≠ '.') with
  | [] | [_] => none
  | _ => some (String.ofList (reversed.takeWhile (· ≠ '.')).reverse)

/-- The extension of the last name of a path. -/
def extension? (path : String) : Option String := (fileName? path).bind nameExtension?

end ClassLowering.Path
