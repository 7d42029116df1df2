/-! # Arguments of the command line

An input, an output if wanted, and switches between them in any order. A lone `--` ends the
switches. -/

namespace ClassLowering

/-- What a command line asks for. -/
structure Arguments where
  input : String
  output : Option String := none
  isolate : Bool := false
  dumpClasses : Bool := false
  /-- How many times more detail was asked for. -/
  verbosity : Nat := 0
  deriving DecidableEq, Repr

/-- A switch of the command line. -/
inductive Switch where
  | isolate
  | classes
  | verbose
  deriving DecidableEq, Repr

namespace Switch

/-- The switch with a name. -/
def ofName? : String → Option Switch
  | "isolate" => some isolate
  | "classes" => some classes
  | "verbose" => some verbose
  | _ => none

/-- The switch with a letter. -/
def ofLetter? : Char → Option Switch
  | 'v' => some verbose
  | _ => none

end Switch

namespace Arguments

/-- The words of a command line, by what they are. -/
structure Sorted where
  positional : List String := []
  switches : List Switch := []

/-- The switches in a word that starts with a dash and is longer: one by its name behind two
dashes, where an equals sign and what follows is left out, or several by their letters. -/
def switches? (word : List Char) : Option (List Switch) :=
  let text := word.dropWhile (· = '-')
  match word with
  | '-' :: '-' :: _ => (Switch.ofName? (String.ofList (text.takeWhile (· ≠ '=')))).map ([·])
  | _ => text.mapM Switch.ofLetter?

/-- Tells words for switches from others. -/
def sort? : List String → Option Sorted
  | [] => some {}
  | "--" :: rest => some { positional := rest }
  | word :: rest =>
    match word.toList, sort? rest with
    | '-' :: c :: letters, some sorted =>
      (switches? ('-' :: c :: letters)).map fun switches =>
        { sorted with switches := switches ++ sorted.switches }
    | _, some sorted => some { sorted with positional := word :: sorted.positional }
    | _, none => none

/-- The request that sorted words make; only detail may be asked for more than once. -/
def ofSorted? (sorted : Sorted) : Option Arguments :=
  let isolate := sorted.switches.count .isolate
  let classes := sorted.switches.count .classes
  if isolate ≤ 1 ∧ classes ≤ 1 then
    match sorted.positional with
    | input :: rest =>
      if rest.length ≤ 1 then
        some {
          input
          output := rest.head?
          isolate := isolate = 1
          dumpClasses := classes = 1
          verbosity := sorted.switches.count .verbose }
      else none
    | [] => none
  else none

/-- The request that a command line makes. -/
def ofWords? (words : List String) : Option Arguments := (sort? words).bind ofSorted?

end Arguments

end ClassLowering
