import ModelGateway.CommandLine.Program

/-!
# Scripts of the command line

Stands for `sh -c`, with which a configuration runs more than one program: a script is a list of
commands, each run always, or only after a success or a failure. Its words may be quoted and may
refer to the arguments of the script. What a shell knows beyond that is not there. `Shell.run?` runs
a script or a known program.
-/

namespace ModelGateway.Shell

/-! ## Words -/

/-- A lexical unit of a script. -/
inductive Token where
  | word (text : String)
  /-- The end of a command. -/
  | stop
  /-- The next command runs after a success. -/
  | ifDone
  /-- The next command runs after a failure. -/
  | ifFailed
  /-- The output of the command goes where its complaints go. -/
  | toComplaint
deriving DecidableEq, Repr

/-- What the scanner is inside of. The word that is being read is kept in reverse. -/
inductive Mode where
  | gap
  | word (seen : List Char)
  | single (seen : List Char)
  | double (seen : List Char)

namespace Mode

/-- The word that is being read. -/
def seen : Mode → List Char
  | .gap => []
  | .word seen | .single seen | .double seen => seen

/-- The tokens of a word that ends here. -/
def ended : Mode → List Token
  | .gap => []
  | m => [.word (String.ofList m.seen.reverse)]

end Mode

/-- What a parameter stands for; the name of the script comes first among its arguments. -/
def parameter (arguments : List String) (c : Char) : List Char :=
  if c.isDigit then ((arguments[c.toNat - '0'.toNat]?).getD "").toList
  else if c == '@' || c == '*' then (String.intercalate " " (arguments.drop 1)).toList
  else if c == '#' then Decimal.digitChars (arguments.length - 1)
  else ['$', c]

/-- Whether a backslash between double quotes escapes a character. -/
def isEscapable (c : Char) : Bool :=
  c == '"' || c == '\\' || c == '$'

/-- Splits a script into tokens, which are collected in reverse. -/
def scan (arguments : List String) : Mode → List Token → List Char → List Token
  | m, out, [] => (m.ended ++ out).reverse
  | .single seen, out, c :: rest =>
    if c == '\'' then scan arguments (.word seen) out rest
    else scan arguments (.single (c :: seen)) out rest
  | .double seen, out, '\\' :: c :: rest =>
    if isEscapable c then scan arguments (.double (c :: seen)) out rest
    else scan arguments (.double (c :: '\\' :: seen)) out rest
  | .double seen, out, '$' :: c :: rest =>
    scan arguments (.double ((parameter arguments c).reverse ++ seen)) out rest
  | .double seen, out, c :: rest =>
    if c == '"' then scan arguments (.word seen) out rest
    else scan arguments (.double (c :: seen)) out rest
  | m, out, '\\' :: c :: rest => scan arguments (.word (c :: m.seen)) out rest
  | m, out, '$' :: c :: rest =>
    scan arguments (.word ((parameter arguments c).reverse ++ m.seen)) out rest
  | .gap, out, '1' :: '>' :: '&' :: '2' :: rest => scan arguments .gap (.toComplaint :: out) rest
  | m, out, '>' :: '&' :: '2' :: rest => scan arguments .gap (.toComplaint :: m.ended ++ out) rest
  | m, out, '&' :: '&' :: rest => scan arguments .gap (.ifDone :: m.ended ++ out) rest
  | m, out, '|' :: '|' :: rest => scan arguments .gap (.ifFailed :: m.ended ++ out) rest
  | m, out, c :: rest =>
    if c == '\'' then scan arguments (.single m.seen) out rest
    else if c == '"' then scan arguments (.double m.seen) out rest
    else if c == ';' || c == '\n' then scan arguments .gap (.stop :: m.ended ++ out) rest
    else if c == ' ' || c == '\t' then scan arguments .gap (m.ended ++ out) rest
    else scan arguments (.word (c :: m.seen)) out rest

/-! ## Commands -/

/-- When a command runs. -/
inductive Condition where
  | always
  | done
  | failed
deriving DecidableEq, Repr

/-- Whether a command runs after a status. -/
def Condition.holds (status : Nat) : Condition → Bool
  | .always => true
  | .done => status == 0
  | .failed => status != 0

/-- A command of a script. -/
structure Command where
  condition : Condition
  words : List String
  /-- Whether the output goes where complaints go. -/
  complains : Bool
deriving DecidableEq, Repr

/-- A command without words. -/
def Command.start (condition : Condition) : Command :=
  { condition, words := [], complains := false }

/-- The commands that tokens spell, given the one that is being read. -/
def commands (current : Command) : List Token → List Command
  | [] => [current]
  | .word text :: rest => commands { current with words := current.words ++ [text] } rest
  | .toComplaint :: rest => commands { current with complains := true } rest
  | .stop :: rest => current :: commands (.start .always) rest
  | .ifDone :: rest => current :: commands (.start .done) rest
  | .ifFailed :: rest => current :: commands (.start .failed) rest

/-- The commands of a script. -/
def parse (arguments : List String) (script : String) : List Command :=
  commands (.start .always) (scan arguments .gap [] script.toList)

/-! ## Running -/

/-- The complaint about a program that is not known. -/
def unknown (program : String) : ProgramResult :=
  .failed 127 s!"sh: 1: {program}: not found\n"

/-- Runs commands one after another, given what those before left behind. -/
def runCommands (run? : String → List String → Option ProgramResult) (before : ProgramResult) :
    List Command → ProgramResult
  | [] => before
  | command :: rest =>
    if !command.condition.holds before.status then runCommands run? before rest
    else
      match command.words with
      | [] => runCommands run? before rest
      | "exit" :: status =>
        { before with status := (status.head?.bind String.toNat?).getD before.status }
      | program :: arguments =>
        let result := (run? program arguments).getD (unknown program)
        let result := if command.complains then result.complaining else result
        runCommands run? (before.andThen result) rest

/-- Runs a known program, or a script inside at most `depth` others. -/
def runWithin? (fileText? : String → Option String) :
    (depth : Nat) → (program : String) → (arguments : List String) → Option ProgramResult
  | depth + 1, "sh", "-c" :: script :: rest =>
    let arguments := if rest.isEmpty then ["sh"] else rest
    some (runCommands (runWithin? fileText? depth) (.printed "") (parse arguments script))
  | _, program, arguments => Program.run? fileText? program arguments

/-- The greatest number of scripts inside one another. -/
def maxDepth : Nat := 16

/-- Runs a known program or a script. -/
def run? (fileText? : String → Option String) (program : String) (arguments : List String) :
    Option ProgramResult :=
  runWithin? fileText? maxDepth program arguments

end ModelGateway.Shell
