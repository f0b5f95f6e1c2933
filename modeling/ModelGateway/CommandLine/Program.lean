import ModelGateway.Json.Decimal
import ModelGateway.Service.Startup

/-!
# Programs of the command line

A configuration may name a command that prints the document, and the service leaves it to its
`Surroundings` to run it. The command line starts no processes. In their place stand the few
programs here, with what the ones of the same name print: those that do nothing, and those that
print their arguments or files, which is how a document is printed most often. No other program is
found.
-/

namespace ModelGateway

namespace ProgramResult

/-- A program that went well. -/
def printed (output : String) : ProgramResult :=
  { output, complaint := "", status := 0 }

/-- A program that failed. -/
def failed (status : Nat) (complaint : String) : ProgramResult :=
  { output := "", complaint, status }

/-- Two programs one after the other. -/
def andThen (a b : ProgramResult) : ProgramResult :=
  { output := a.output ++ b.output, complaint := a.complaint ++ b.complaint, status := b.status }

/-- A program whose output goes where its complaints go. -/
def complaining (r : ProgramResult) : ProgramResult :=
  { r with output := "", complaint := r.complaint ++ r.output }

end ProgramResult

namespace Program

/-! ## Formats -/

/-- The characters that an escape in a format stands for. -/
def formatEscape (c : Char) : List Char :=
  match c with
  | 'n' => ['\n']
  | 't' => ['\t']
  | 'r' => ['\r']
  | '\\' => ['\\']
  | '"' => ['"']
  | c => ['\\', c]

/-- Fills a format once. Returns the text and the arguments that are left. -/
def fill : List Char → List String → List Char × List String
  | [], arguments => ([], arguments)
  | '%' :: '%' :: rest, arguments =>
    let (text, left) := fill rest arguments
    ('%' :: text, left)
  | '%' :: _ :: rest, arguments =>
    let (text, left) := fill rest (arguments.drop 1)
    ((arguments.headD "").toList ++ text, left)
  | '\\' :: c :: rest, arguments =>
    let (text, left) := fill rest arguments
    (formatEscape c ++ text, left)
  | c :: rest, arguments =>
    let (text, left) := fill rest arguments
    (c :: text, left)

/-- Fills a format as often as there are arguments for it. -/
def fillAll (format : List Char) : Nat → List String → List Char
  | 0, arguments => (fill format arguments).1
  | rounds + 1, arguments =>
    let (text, left) := fill format arguments
    if left.isEmpty || left.length == arguments.length then text
    else text ++ fillAll format rounds left

/-! ## The programs -/

/-- Prints a format with its arguments. -/
def format : List String → ProgramResult
  | [] => .failed 1 "printf: missing operand\n"
  | pattern :: arguments =>
    .printed (String.ofList (fillAll pattern.toList arguments.length arguments))

/-- Prints files one after another. -/
def files (fileText? : String → Option String) : List String → ProgramResult
  | [] => .printed ""
  | name :: rest =>
    let more := files fileText? rest
    match fileText? name with
    | some text => { more with output := text ++ more.output }
    | none =>
      { more with
        complaint := s!"cat: {name}: No such file or directory\n" ++ more.complaint
        status := 1 }

/-- Runs one of the known programs. -/
def run? (fileText? : String → Option String) (program : String) (arguments : List String) :
    Option ProgramResult :=
  match program with
  | "true" => some (.printed "")
  | "false" => some (.failed 1 "")
  | "echo" => some (.printed (String.intercalate " " arguments ++ "\n"))
  | "printf" => some (format arguments)
  | "cat" => some (files fileText? arguments)
  | _ => none

end Program

end ModelGateway
