import ClassLowering.Config.Value

/-! # Tables of a settings file

A settings file is a sequence of lines: `key = value`, or `[table]`, which puts the lines behind it
into a table, or `[[table]]`, which puts them into one more table of a list of tables.

A table is opened once. In a list of tables, each one has tables of its own below it, so that the
same names may come again there. What has been opened as one table, or has tables below it, cannot
become a list of tables (`opens?`). -/

namespace ClassLowering.Settings

/-- The head of a table. -/
structure Header where
  path : List String
  /-- Whether this is one table of a list. -/
  isItem : Bool
  deriving DecidableEq, Repr

/-- A line of a settings file. -/
inductive Line where
  | header (header : Header)
  | pair (path : List String) (value : Value)

/-! ## Lines -/

/-- Reads the head of a table behind its first bracket. -/
def readHeader (tokens : List Token) : Option (Header × Rest tokens) :=
  match tokens with
  | .leftBracket :: rest =>
    have := length_skipBlanks_le rest
    match readPath (skipBlanks rest) with
    | some (path, ⟨.rightBracket :: .rightBracket :: left, shorter⟩) =>
      some (⟨path, true⟩, ⟨left, by simp only [List.length_cons] at *; omega⟩)
    | _ => none
  | tokens =>
    have := length_skipBlanks_le tokens
    match readPath (skipBlanks tokens) with
    | some (path, ⟨.rightBracket :: left, shorter⟩) =>
      some (⟨path, false⟩, ⟨left, by simp only [List.length_cons] at *; omega⟩)
    | _ => none

/-- Reads one line without its end. -/
def readLine (tokens : List Token) : Option (Line × Rest tokens) :=
  match tokens with
  | .leftBracket :: rest =>
    (readHeader rest).map fun (header, ⟨left, shorter⟩) =>
      (.header header, ⟨left, length_lt_cons shorter⟩)
  | tokens =>
    match readPath tokens with
    | some (path, ⟨.equals :: rest, shorter⟩) =>
      (readValue (skipBlanks rest)).map fun (value, ⟨left, shorter'⟩) =>
        have inside := Nat.lt_of_lt_of_le shorter' (length_skipBlanks_le rest)
        (.pair path value, ⟨left, Nat.lt_trans inside (Nat.lt_of_succ_lt shorter)⟩)
    | _ => none

/-- Reads lines, each with an end behind it; blank lines are passed over. -/
def readLines (tokens : List Token) : Option (List Line) :=
  have _start := length_skipLines_le tokens
  if skipLines tokens = [] then some []
  else
    match readLine (skipLines tokens) with
    | none => none
    | some (line, ⟨left, _shorter⟩) =>
      have _behind := length_skipBlanks_le left
      match _next : skipBlanks left with
      | [] => some [line]
      | .newline :: rest => (line :: ·) <$> readLines rest
      | _ => none
termination_by tokens.length
decreasing_by simp only [_next, List.length_cons] at _behind; omega

/-! ## Tables -/

/-- A table with its entries; the table without a name comes first and has no head. -/
structure Table where
  header : Header
  entries : Entries

/-- The tables that lines make, from a table on. -/
def tables? (table : Table) : List Line → Option (List Table)
  | [] => some [table]
  | .header header :: rest => (table :: ·) <$> tables? ⟨header, []⟩ rest
  | .pair path value :: rest =>
    match table.entries.add? value path with
    | some entries => tables? { table with entries } rest
    | none => none

/-- The heads that are open after one more; those below a list of tables close when the next table
of the list opens. -/
def opens? (opened : List Header) (header : Header) : Option (List Header) :=
  let within := opened.filter fun other => header.path.isPrefixOf other.path
  if header.isItem then
    match within with
    | [] => some (opened ++ [header])
    | first :: _ =>
      if first = header then
        some ((opened.filter fun other => !header.path.isPrefixOf other.path) ++ [header])
      else none
  else if within.any (·.path = header.path) then none
  else some (opened ++ [header])

/-- The tables of a text, if it is well formed: those without a name, and the others. -/
def document? (text : String) : Option (Entries × List Table) :=
  match ((tokens? text).bind readLines).bind (tables? ⟨⟨[], false⟩, []⟩) with
  | some (first :: others) =>
    match (others.map Table.header).foldlM opens? [] with
    | some _ => some (first.entries, others)
    | none => none
  | _ => none

end ClassLowering.Settings
