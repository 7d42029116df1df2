import ClassLowering.Files.Tree

/-! # Path patterns

A pattern is a path whose pieces may have wildcards: `?` for one character, `*` for any number of
them, `[ab]`, `[a-z]` and `[!ab]` for one of some characters, and a piece `**` for all that lies
below a directory. `Pattern.expand` lists the paths of a file tree that match.

A directory that is an entry of another one is known as such from the listing, even if its path is
too long to be followed. It cannot be listed then, which the expansion reports at its place. -/

namespace ClassLowering

/-- Characters named in brackets: a range, of one character at least. -/
structure CharRange where
  first : Char
  last : Char
  deriving DecidableEq, Repr

/-- Whether a character is in a range. -/
def CharRange.contains (range : CharRange) (c : Char) : Bool := range.first ≤ c && c ≤ range.last

/-- A part of a name pattern. -/
inductive Wildcard where
  | char (c : Char)
  | anyChar
  | anyText
  | within (ranges : List CharRange)
  | except (ranges : List CharRange)
  deriving DecidableEq, Repr

namespace Wildcard

/-- Whether a part other than `anyText` takes a character. -/
def accepts : Wildcard → Char → Bool
  | char expected, c => expected = c
  | anyChar, _ => true
  | anyText, _ => false
  | within ranges, c => ranges.any (·.contains c)
  | except ranges, c => !ranges.any (·.contains c)

/-- For each place of a list, whether `true` stands there or behind it. -/
def someBehind : List Bool → List Bool
  | [] => []
  | here :: rest =>
    let behind := someBehind rest
    (here || behind.headD false) :: behind

/-- For each place of a name, its end included, whether the text from there on is as the parts say.
One pass over the name for each part is enough. -/
def matchesFrom : List Wildcard → List Char → List Bool
  | [], name => name.map (fun _ => false) ++ [true]
  | anyText :: parts, name => someBehind (matchesFrom parts name)
  | part :: parts, name =>
    List.zipWith (fun c behind => part.accepts c && behind) name (matchesFrom parts name).tail
      ++ [false]

/-- Whether a name is as the parts say. -/
def matchesName (parts : List Wildcard) (name : List Char) : Bool :=
  (matchesFrom parts name).headD false

/-- The ranges that the text between two brackets names. -/
def ranges : List Char → List CharRange
  | first :: '-' :: last :: rest => ⟨first, last⟩ :: ranges rest
  | c :: rest => ⟨c, c⟩ :: ranges rest
  | [] => []

/-- The text up to a closing bracket, which is not the first character, and the text behind it. -/
def bracketed? : List Char → Option (List Char × List Char)
  | [] => none
  | c :: rest =>
    match rest.dropWhile (· ≠ ']') with
    | [] => none
    | _ :: behind => some (c :: rest.takeWhile (· ≠ ']'), behind)

/-- What is behind a bracket is shorter than the text, so reading a pattern ends. -/
theorem length_bracketed? {text inside behind : List Char}
    (found : bracketed? text = some (inside, behind)) : behind.length < text.length := by
  cases text with
  | nil => simp [bracketed?] at found
  | cons c rest =>
    have shorter := (List.dropWhile_sublist (l := rest) (· ≠ ']')).length_le
    simp only [bracketed?] at found
    split at found
    · simp at found
    · rename_i same
      simp only [Option.some.injEq, Prod.mk.injEq] at found
      simp only [same, List.length_cons] at shorter
      simp only [← found.2, List.length_cons]
      omega

/-- The parts of a piece without `**`. -/
def ofChars? (text : List Char) : Option (List Wildcard) :=
  match text with
  | [] => some []
  | '*' :: '*' :: _ => none
  | '*' :: rest => (anyText :: ·) <$> ofChars? rest
  | '?' :: rest => (anyChar :: ·) <$> ofChars? rest
  | '[' :: '!' :: rest =>
    match _found : bracketed? rest with
    | some (inside, behind) => (except (ranges inside) :: ·) <$> ofChars? behind
    | none => none
  | '[' :: rest =>
    match _found : bracketed? rest with
    | some (inside, behind) => (within (ranges inside) :: ·) <$> ofChars? behind
    | none => none
  | c :: rest => (char c :: ·) <$> ofChars? rest
termination_by text.length
decreasing_by
  all_goals simp_wf
  all_goals
    have := length_bracketed? _found
    omega

/-- The text that parts without wildcards are. -/
def literal? : List Wildcard → Option (List Char)
  | [] => some []
  | char c :: parts => (c :: ·) <$> literal? parts
  | _ => none

end Wildcard

/-- A piece of a pattern. -/
inductive PatternPiece where
  /-- All that lies below a directory. -/
  | anyDepth
  /-- Names without wildcards. -/
  | literal (name : String)
  /-- Names as the parts say. -/
  | wild (parts : List Wildcard)
  deriving DecidableEq, Repr

namespace PatternPiece

/-- Reads a piece; several stars in a row are refused, unless they are a piece of two. -/
def ofText? (text : String) : Option PatternPiece :=
  if text = "**" then some anyDepth
  else
    match Wildcard.ofChars? text.toList with
    | some parts =>
      match Wildcard.literal? parts with
      | some name => some (literal (String.ofList name))
      | none => some (wild parts)
    | none => none

/-- Whether a name matches a piece. -/
def matchesName (piece : PatternPiece) (name : String) : Bool :=
  match piece with
  | anyDepth => true
  | literal expected => expected = name
  | wild parts => Wildcard.matchesName parts name.toList

/-- Whether a piece names hidden entries outright, and so can mean `.` and `..`. -/
def startsWithPeriod : PatternPiece → Bool
  | wild (.char '.' :: _) => true
  | _ => false

end PatternPiece

/-- What the expansion of a pattern meets. -/
inductive Encounter where
  /-- A path that matches. -/
  | path (path : String)
  /-- A directory that cannot be listed. -/
  | unlisted (path : String)
  deriving DecidableEq, Repr

/-- A path that the expansion of a pattern has reached. -/
structure Reached where
  path : String
  /-- Whether a directory is there. -/
  isDirectory : Bool
  deriving DecidableEq, Repr

namespace Reached

/-- A path that is looked up in a tree. -/
def ofPath (tree : FileTree) (path : String) : Reached := ⟨path, tree.isDirectory path⟩

/-- The report that a directory cannot be listed, if that is so. -/
def unlisted (reached : Reached) : List Encounter :=
  if reached.isDirectory && !Path.isUsable reached.path then [.unlisted reached.path] else []

/-- What listing a path leads to: nothing if no directory is there. -/
def list (reached : Reached) (tree : FileTree) (next : FileNode → List Encounter) :
    List Encounter :=
  if reached.isDirectory then
    match tree.find? reached.path with
    | some node => next node
    | none => [.unlisted reached.path]
  else []

end Reached

/-- A path pattern. -/
structure Pattern where
  absolute : Bool
  pieces : List PatternPiece
  deriving DecidableEq, Repr

namespace Pattern

/-- Reads a pattern. -/
def ofText? (text : String) : Option Pattern :=
  let absolute := Path.isAbsolute text
  let pieces := if absolute then (Path.pieces text).drop 1 else Path.pieces text
  (pieces.mapM PatternPiece.ofText?).map fun pieces => ⟨absolute, pieces⟩

/-- What the pieces that are left lead to from a path that was reached. -/
def expandFrom (tree : FileTree) (reached : Reached) : List PatternPiece → List Encounter
  | [] => [.path reached.path]
  | .literal name :: rest =>
    let next := Reached.ofPath tree (Path.entry reached.path name)
    let isThere := if name = "." ∨ name = ".." then reached.isDirectory
      else (tree.find? next.path).isSome
    if isThere then expandFrom tree next rest else []
  | .wild parts :: rest =>
    reached.list tree fun node =>
      let around := if PatternPiece.startsWithPeriod (.wild parts) then
          ["..", "."].filter fun name => Wildcard.matchesName parts name.toList
        else []
      let found := node.entries.filter fun (name, _) => Wildcard.matchesName parts name.toList
      let next := around.map (fun name => Reached.ofPath tree (Path.join reached.path name)) ++
        found.map fun (name, child) => ⟨Path.entry reached.path name, child.isDirectory⟩
      next.flatMap fun next => expandFrom tree next rest
  | .anyDepth :: .anyDepth :: rest => expandFrom tree reached (.anyDepth :: rest)
  | [.anyDepth] =>
    reached.list tree fun node =>
      (node.descendants reached.path).flatMap fun (path, child) =>
        let next : Reached := ⟨path, child.isDirectory⟩
        (if next.isDirectory then [.path path] else []) ++ next.unlisted
  | .anyDepth :: piece :: rest =>
    reached.list tree fun node =>
      (node.descendants reached.path).flatMap fun (path, child) =>
        let next : Reached := ⟨path, child.isDirectory⟩
        (if (Path.fileName? path).any piece.matchesName then expandFrom tree next rest else []) ++
          next.unlisted
termination_by pieces => pieces.length

/-- What a pattern leads to in a tree. -/
def expand (pattern : Pattern) (tree : FileTree) : List Encounter :=
  expandFrom tree (.ofPath tree (if pattern.absolute then "/" else ".")) pattern.pieces

end Pattern

end ClassLowering
