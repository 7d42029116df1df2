import ClassLowering.Files.Path

/-! # File trees

A file tree holds files and directories by name, the entries of a directory in the order of their
names. `FileTree.find?` follows a path piece by piece: each piece, also an empty one, needs a
directory to stand in. -/

namespace ClassLowering

/-- A file with its content, or a directory with its entries. -/
inductive FileNode where
  | file (content : List UInt8)
  | directory (entries : List (String × FileNode))

namespace FileNode

/-- The entries of a directory; a file has none. -/
def entries : FileNode → List (String × FileNode)
  | file _ => []
  | directory entries => entries

/-- Whether this is a directory. -/
def isDirectory : FileNode → Bool
  | file _ => false
  | directory _ => true

/-- The content of a file. -/
def content? : FileNode → Option (List UInt8)
  | file content => some content
  | directory _ => none

/-- What names lead to, each an entry of the one before. -/
def descend (node : FileNode) : List String → Option FileNode
  | [] => some node
  | name :: names =>
    match node.entries.lookup name with
    | some child => child.descend names
    | none => none

/-- Entries with one more, in order; an entry of the same name is replaced. -/
def insertEntry (name : String) (node : FileNode) :
    List (String × FileNode) → List (String × FileNode)
  | [] => [(name, node)]
  | (other, old) :: rest =>
    if name = other then (name, node) :: rest
    else if name < other then (name, node) :: (other, old) :: rest
    else (other, old) :: insertEntry name node rest

/-- Puts a node where names lead to, with the directories on the way there. -/
def put (node new : FileNode) : List String → FileNode
  | [] => new
  | name :: names =>
    let child := (node.entries.lookup name).getD (.directory [])
    .directory (insertEntry name (child.put new names) node.entries)

mutual

/-- All that listing finds below a node, with its path: each entry, then what lies below it. A
directory whose path cannot be followed is found, but not listed. -/
def descendants (path : String) : FileNode → List (String × FileNode)
  | file _ => []
  | directory entries => if Path.isUsable path then descendantsOf path entries else []

/-- The entries given and all that listing finds below them. -/
def descendantsOf (path : String) : List (String × FileNode) → List (String × FileNode)
  | [] => []
  | (name, node) :: rest =>
    let place := Path.entry path name
    (place, node) :: (node.descendants place ++ descendantsOf path rest)

end

end FileNode

/-- Files and directories, seen from a working directory. -/
structure FileTree where
  root : FileNode := .directory []
  /-- The names that lead from the root to the working directory. -/
  workingDirectory : List String := []

namespace FileTree

/-- Where a piece of a path leads from a place. -/
def step (tree : FileTree) (place : List String) (piece : String) : Option (List String) :=
  match tree.root.descend place with
  | some (.directory entries) =>
    if piece = "" ∨ piece = "." then some place
    else if piece = ".." then some place.dropLast
    else if (entries.lookup piece).isSome then some (place ++ [piece])
    else none
  | _ => none

/-- The place where a path starts. -/
def start (tree : FileTree) (path : String) : List String :=
  if Path.isAbsolute path then [] else tree.workingDirectory

/-- What a path leads to. -/
def find? (tree : FileTree) (path : String) : Option FileNode :=
  if ¬ Path.isUsable path then none
  else
    match (Path.pieces path).foldlM tree.step (tree.start path) with
    | some place => tree.root.descend place
    | none => none

/-- Whether a path leads to a directory. -/
def isDirectory (tree : FileTree) (path : String) : Bool :=
  (tree.find? path).any FileNode.isDirectory

/-- The content of the file that a path leads to. -/
def read? (tree : FileTree) (path : String) : Option (List UInt8) :=
  (tree.find? path).bind FileNode.content?

/-- Writes a file into a directory that exists, over a file of the same name if there is one. -/
def write? (tree : FileTree) (path : String) (content : List UInt8) : Option FileTree :=
  let pieces := Path.pieces path
  match pieces.getLast?, pieces.dropLast.foldlM tree.step (tree.start path) with
  | some name, some place =>
    if ¬ Path.isUsable path ∨ name = "" ∨ name = "." ∨ name = ".." then none
    else
      match tree.root.descend place, tree.root.descend (place ++ [name]) with
      | some (.directory _), some (.directory _) => none
      | some (.directory _), _ =>
        some { tree with root := tree.root.put (.file content) (place ++ [name]) }
      | _, _ => none
  | _, _ => none

/-- The place that a path names, whether or not something is there. -/
def place (tree : FileTree) (path : String) : List String :=
  (Path.pieces path).foldl (fun place piece =>
    if piece = "" ∨ piece = "." then place
    else if piece = ".." then place.dropLast
    else place ++ [piece]) (tree.start path)

/-- Puts a node where a path names, with the directories on the way there. -/
def add (tree : FileTree) (path : String) (node : FileNode) : FileTree :=
  { tree with root := tree.root.put node (tree.place path) }

end FileTree

end ClassLowering
