import Framewise.Command.Argument
import Framewise.File.Path
import Framewise.Number.Read

/-! # Requests

  The command line names one of two commands: `check` looks at files, `rules`
  lists the catalog. Reading it gives a request, a text to show (help or
  version), or an error with the usage of the command that found it. Arguments
  that nobody takes are an error of the program itself, whichever command left
  them over.
-/

namespace Framewise.Command

/-! ### Signatures -/

/-- What a command or the program itself looks like from outside. -/
structure Signature where
  /-- Its name with that of the program. -/
  name : String
  /-- Its usage lines. -/
  usage : String
  /-- What its help says below the usage. -/
  details : String
  /-- Its options. -/
  options : List OptionSpec
  deriving Repr, Inhabited

/-- The help text. -/
def Signature.help (s : Signature) : String := s.usage ++ "\n" ++ s.details

/-- The option that shows the help. -/
def helpOption : OptionSpec := { names := ["-h", "--help"] }

/-- The option that shows the version. -/
def versionOption : OptionSpec := { names := ["--version"] }

/-- The option for the rules to enable. -/
def selectOption : OptionSpec := { names := ["--select"], takesValue := true }

/-- The option for the rules to disable. -/
def ignoreOption : OptionSpec := { names := ["--ignore"], takesValue := true }

/-- The option for a report as a document. -/
def jsonOption : OptionSpec := { names := ["--json"] }

/-- The option for the number of files looked at side by side. -/
def jobsOption : OptionSpec := { names := ["--jobs"], takesValue := true }

/-- The option for the seconds a file may take. -/
def deadlineOption : OptionSpec := { names := ["--deadline"], takesValue := true }

/-- The names of the commands. -/
def commandNames : List String := ["check", "rules"]

/-- The program. -/
def program : Signature where
  name := "framelint"
  usage := "usage: framelint [-h] [--version] \x7bcheck,rules\x7d ...\n"
  details :=
    "framelint: Static analysis for data frame scripts\n" ++
    "\n" ++
    "positional arguments:\n" ++
    "  \x7bcheck,rules\x7d\n" ++
    "    check        Analyse Python files or directories\n" ++
    "    rules        List the rule catalog\n" ++
    "\n" ++
    "options:\n" ++
    "  -h, --help     show this help message and exit\n" ++
    "  --version      show program's version number and exit\n"
  options := [helpOption, versionOption]

/-- The command `check`. -/
def checkCommand : Signature where
  name := "framelint check"
  usage :=
    "usage: framelint check [-h] [--select SELECT] [--ignore IGNORE] [--json] [--jobs JOBS]\n" ++
    "                       [--deadline DEADLINE]\n" ++
    "                       paths [paths ...]\n"
  details :=
    "positional arguments:\n" ++
    "  paths                Input source files or directories\n" ++
    "\n" ++
    "options:\n" ++
    "  -h, --help           show this help message and exit\n" ++
    "  --select SELECT      Only enable these rules (e.g. FL001,FL004)\n" ++
    "  --ignore IGNORE      Disable these rules (e.g. FL003)\n" ++
    "  --json               Print results as JSON\n" ++
    "  --jobs JOBS          Files analysed in parallel (default: from toml or 1)\n" ++
    "  --deadline DEADLINE  Per-file time limit in seconds; slower files are reported incomplete\n"
  options := [helpOption, selectOption, ignoreOption, jsonOption, jobsOption, deadlineOption]

/-- The command `rules`. -/
def rulesCommand : Signature where
  name := "framelint rules"
  usage := "usage: framelint rules [-h]\n"
  details :=
    "options:\n" ++
    "  -h, --help  show this help message and exit\n"
  options := [helpOption]

/-- What the program says about its version. -/
def versionText : String := "framelint 0.0.1\n"

/-! ### Requests -/

/-- A request to look at files. -/
structure CheckRequest where
  /-- Files and folders. -/
  paths : List Path := []
  /-- The list of rules to enable, as given. -/
  select : Option String := none
  /-- The list of rules to disable, as given. -/
  ignore : Option String := none
  /-- True for a report as a document. -/
  json : Bool := false
  /-- Files looked at side by side. -/
  jobs : Option Int := none
  /-- Seconds that a file may take. -/
  deadline : Option Double := none
  deriving Repr, Inhabited

/-- What the command line asks for. -/
inductive Request where
  | check (r : CheckRequest)
  | rules
  deriving Repr, Inhabited

/-- Why the command line is no request. -/
inductive Stop where
  /-- It asks for a text. -/
  | shown (text : String)
  /-- It is refused; the usage shown is that of the signature. -/
  | refused (command : Signature) (e : UsageError)
  deriving Repr, Inhabited

/-! ### Values of options -/

/-- The text of a number without surrounding white space. -/
def trimmed (text : String) : List Char := Text.stripBy Text.isSpacing text.toList

/-- A whole number of at least 1, or what is wrong with the text. -/
def positiveInt (text : String) : Except String Int :=
  match Number.readInt Number.anyDigit (trimmed text) with
  | none => .error ("invalid _positive_int value: " ++ Text.quoted text)
  | some n => if n < 1 then .error "must be at least 1" else .ok n

/-- A double that is not 0 or less, or what is wrong with the text. -/
def positiveDouble (text : String) : Except String Double :=
  match Number.readDouble Number.anyDigit (trimmed text) with
  | none => .error ("invalid _positive_float value: " ++ Text.quoted text)
  | some x => if x.isZero || x.lt (Double.signedZero false) then .error "must be greater than 0" else .ok x

/-- The value of an option, read by `read`. -/
def valueOf {α : Type} (command : Signature) (o : OptionSpec) (read : String → Except String α)
    (value : Option String) : Except Stop α :=
  (read (value.getD "")).mapError fun reason => .refused command (.badValue o.label reason)

/-! ### Reading the command line -/

/-- Adds an option to a request to look at files. -/
def CheckRequest.count (r : CheckRequest) (use : Use) : Except Stop CheckRequest :=
  let (o, value) := use
  if o = helpOption then .error (.shown checkCommand.help)
  else if o = selectOption then .ok { r with select := value }
  else if o = ignoreOption then .ok { r with ignore := value }
  else if o = jsonOption then .ok { r with json := true }
  else if o = jobsOption then
    (valueOf checkCommand o positiveInt value).map fun n => { r with jobs := some n }
  else
    (valueOf checkCommand o positiveDouble value).map fun x => { r with deadline := some x }

/-- Scans the arguments of a command. -/
def Signature.scan {α : Type} (s : Signature) (count : α → Use → Except Stop α)
    (takesOperands : Bool) (start : α) (arguments : List String) : Except Stop (Scan α) := do
  let words ← (Word.ofArguments s.options arguments).mapError (Stop.refused s)
  Command.scan { options := s.options, count := count, refuse := Stop.refused s } takesOperands
    start words

/-- A request to look at files, and the arguments left over. -/
def readCheck (arguments : List String) : Except Stop (Request × List String) := do
  let s ← checkCommand.scan CheckRequest.count true {} arguments
  if s.operands.isEmpty then throw (.refused checkCommand (.missing "paths"))
  return (.check { s.sum with paths := s.operands.map Path.ofString }, s.extras)

/-- A request for the catalog, and the arguments left over. -/
def readRules (arguments : List String) : Except Stop (Request × List String) := do
  let s ← rulesCommand.scan (fun (_ : Unit) _ => .error (.shown rulesCommand.help)) false ()
    arguments
  return (.rules, s.extras)

/-- The request of a command with its arguments, and those left over. -/
def readCommand (name : String) (arguments : List String) : Except Stop (Request × List String) :=
  if name = "check" then readCheck arguments
  else if name = "rules" then readRules arguments
  else .error (.refused program (.badChoice "command" name commandNames))

/-- Adds an option of the program itself: each one stops it. -/
def countProgram (_ : Unit) (use : Use) : Except Stop Unit :=
  .error (.shown (if use.1 = versionOption then versionText else program.help))

/-- The options in front of the command, then the command: its name is the first argument that
    is no option, and everything behind it belongs to it. -/
def readProgram (extras : List String) :
    List (String × Word) → Except Stop (Request × List String)
  | [] => .error (.refused program (.missing "command"))
  | (text, word) :: rest =>
    match word with
    | .unknown _ => readProgram (extras ++ [text]) rest
    | .option o attached => do
      let uses ← (usesOf program.options o attached).mapError (Stop.refused program)
      uses.complete.foldlM countProgram ()
      readProgram (extras ++ uses.extras) rest
    | .divider =>
      if rest.isEmpty then .error (.refused program (.missing "command"))
      else readCommand text (rest.map (·.1))
    | .plain _ => do
      let (request, more) ← readCommand text (rest.map (·.1))
      return (request, extras ++ more)

/-- The request of a command line. -/
def Request.ofArguments (arguments : List String) : Except Stop Request := do
  let words ← (Word.ofArguments program.options arguments).mapError (Stop.refused program)
  let (request, extras) ← readProgram [] (arguments.zip words)
  if extras.isEmpty then return request
  else throw (.refused program (.leftOver extras))

end Framewise.Command
