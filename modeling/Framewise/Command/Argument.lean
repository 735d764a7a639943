import Framewise.Text.Numeral
import Framewise.Text.Quoted
import Framewise.Text.Split

/-! # Arguments of a command

  A command takes options and operands. An option is named in full or by a
  beginning that fits no other option, with its value behind `=` or in the next
  argument; letters of short options may be joined. Behind `--` everything is an
  operand. The operands of a command stand together: once an option has followed
  them, further ones are left over.

  Main definitions:
  - `Word.ofArguments`: what the arguments are to a command.
  - `scan`: the options in order, the operands, and what is left over.
-/

namespace Framewise.Command

/-! ### Options -/

/-- An option of a command. -/
structure OptionSpec where
  /-- Its names, short ones first. -/
  names : List String
  /-- True if it takes a value. -/
  takesValue : Bool := false
  deriving DecidableEq, Repr, Inhabited

/-- An option as named in messages. -/
def OptionSpec.label (o : OptionSpec) : String := String.intercalate "/" o.names

/-- The names of options, each with its option. -/
def namesOf (options : List OptionSpec) : List (String × OptionSpec) :=
  options.flatMap fun o => o.names.map fun name => (name, o)

/-- The option of a name. -/
def optionNamed? (options : List OptionSpec) (name : String) : Option OptionSpec :=
  ((namesOf options).find? fun entry => entry.1 = name).map (·.2)

/-- True for a name of two or more dashes; others can be joined. -/
def isLong (name : String) : Bool := Text.begins "--" name

/-! ### Errors -/

/-- Why arguments are refused. -/
inductive UsageError where
  /-- The beginning of a name fits several options. -/
  | ambiguous (text : String) (candidates : List String)
  /-- An option has no value behind it. -/
  | noValue (label : String)
  /-- An option that takes no value is given one. -/
  | unusedValue (label value : String)
  /-- The value of an option is refused. -/
  | badValue (label reason : String)
  /-- An operand is missing. -/
  | missing (operand : String)
  /-- No command of this name. -/
  | badChoice (operand given : String) (choices : List String)
  /-- Arguments that no command takes. -/
  | leftOver (texts : List String)
  deriving DecidableEq, Repr, Inhabited

/-- The wording of an error. -/
def UsageError.message : UsageError → String
  | .ambiguous text candidates =>
    "ambiguous option: " ++ text ++ " could match " ++ String.intercalate ", " candidates
  | .noValue label => "argument " ++ label ++ ": expected one argument"
  | .unusedValue label value =>
    "argument " ++ label ++ ": ignored explicit argument " ++ Text.quoted value
  | .badValue label reason => "argument " ++ label ++ ": " ++ reason
  | .missing operand => "the following arguments are required: " ++ operand
  | .badChoice operand given choices =>
    "argument " ++ operand ++ ": invalid choice: " ++ Text.quoted given ++ " (choose from " ++
      String.intercalate ", " (choices.map Text.quoted) ++ ")"
  | .leftOver texts => "unrecognized arguments: " ++ String.intercalate " " texts

/-! ### Words -/

/-- How a value is written into the argument of its option. -/
inductive Attached where
  /-- There is none. -/
  | nothing
  /-- Behind an equals sign. -/
  | assigned (value : String)
  /-- Right behind a short name; if the option takes no value, these are further options. -/
  | joined (letters : String)
  deriving DecidableEq, Repr, Inhabited

/-- What an argument is to a command. -/
inductive Word where
  /-- An operand, or the value of the option before it. -/
  | plain (text : String)
  /-- The mark behind which everything is plain. -/
  | divider
  /-- An option, with what is written into its argument. -/
  | option (spec : OptionSpec) (attached : Attached)
  /-- Written like an option, but none of the command's. -/
  | unknown (text : String)
  deriving DecidableEq, Repr, Inhabited

/-- True for digits only, at least one. -/
def areDigits (cs : List Char) : Bool :=
  !cs.isEmpty && cs.all fun c => (Text.digitValue? c).isSome

/-- True for a dash and a number without exponent; a line feed may follow. -/
def isNegativeNumber (s : String) : Bool :=
  match s.toList with
  | '-' :: cs =>
    let cs := if cs.getLast? = some '\n' then cs.dropLast else cs
    areDigits cs ||
      (match cs.dropWhile fun c => c != '.' with
       | _ :: frac =>
         areDigits frac &&
           (cs.takeWhile fun c => c != '.').all fun c => (Text.digitValue? c).isSome
       | [] => false)
  | _ => false

/-- The options that the beginning of a long name fits. -/
def longCandidates (options : List OptionSpec) (text : String) :
    List (String × OptionSpec × Attached) :=
  let (start, attached) := match Text.cut? '=' text with
    | some (start, value) => (start, Attached.assigned value)
    | none => (text, .nothing)
  ((namesOf options).filter fun entry => Text.begins start entry.1).map
    fun (name, o) => (name, o, attached)

/-- The options that a short name with letters joined to it fits. -/
def shortCandidates (options : List OptionSpec) (text : String) :
    List (String × OptionSpec × Attached) :=
  (namesOf options).filterMap fun (name, o) =>
    if name.toList = text.toList.take 2 then
      some (name, o, .joined (String.ofList (text.toList.drop 2)))
    else if Text.begins text name then some (name, o, .nothing)
    else none

/-- What an argument is that begins with a dash and is no name of an option. -/
def Word.ofUnnamed (options : List OptionSpec) (text : String) : Except UsageError Word :=
  let candidates := if isLong text then longCandidates options text
    else shortCandidates options text
  match candidates with
  | [(_, o, attached)] => .ok (.option o attached)
  | [] =>
    if isNegativeNumber text || text.toList.contains ' ' then .ok (.plain text)
    else .ok (.unknown text)
  | several => .error (.ambiguous text (several.map (·.1)))

/-- What one argument is. -/
def Word.ofArgument (options : List OptionSpec) (text : String) : Except UsageError Word :=
  if !Text.begins "-" text || text = "-" then .ok (.plain text)
  else
    match optionNamed? options text with
    | some o => .ok (.option o .nothing)
    | none =>
      match (Text.cut? '=' text).bind fun (name, value) =>
          (optionNamed? options name).map fun o => Word.option o (.assigned value) with
      | some word => .ok word
      | none => Word.ofUnnamed options text

/-- What arguments are to a command with these options. -/
def Word.ofArguments (options : List OptionSpec) : List String → Except UsageError (List Word)
  | [] => .ok []
  | text :: texts =>
    if text = "--" then .ok (.divider :: texts.map .plain)
    else do
      let word ← Word.ofArgument options text
      let words ← Word.ofArguments options texts
      return word :: words

/-! ### Scanning -/

/-- An option that was given, with its value. -/
abbrev Use := OptionSpec × Option String

/-- The options that one word stands for. -/
structure Uses where
  /-- Those that are complete. -/
  complete : List Use := []
  /-- The last one, if its value is still to come. -/
  awaiting : Option OptionSpec := none
  /-- Letters that stand for no option. -/
  extras : List String := []
  deriving DecidableEq, Repr, Inhabited

/-- An option without anything written into its argument. -/
def Uses.bare (o : OptionSpec) : Uses :=
  if o.takesValue then { awaiting := some o } else { complete := [(o, none)] }

/-- One more option in front. -/
def Uses.after (o : OptionSpec) (u : Uses) : Uses := { u with complete := (o, none) :: u.complete }

/-- The options that letters stand for which are joined to `before`, an option without value. -/
def joined (options : List OptionSpec) (before : OptionSpec) :
    List Char → Except UsageError Uses
  | [] => .error (.unusedValue before.label "")
  | c :: cs =>
    if c = '-' then .error (.unusedValue before.label (String.ofList (c :: cs)))
    else
      match optionNamed? options (String.ofList ['-', c]) with
      | none => .ok { extras := [String.ofList ('-' :: c :: cs)] }
      | some o =>
        if cs.isEmpty then .ok (.bare o)
        else if cs.head? = some '=' then
          if o.takesValue then .ok { complete := [(o, some (String.ofList cs.tail))] }
          else .error (.unusedValue o.label (String.ofList cs.tail))
        else if o.takesValue then .ok { complete := [(o, some (String.ofList cs))] }
        else (joined options o cs).map (Uses.after o)

/-- The options that the argument of an option stands for. -/
def usesOf (options : List OptionSpec) (o : OptionSpec) : Attached → Except UsageError Uses
  | .nothing => .ok (.bare o)
  | .assigned value =>
    if o.takesValue then .ok { complete := [(o, some value)] }
    else .error (.unusedValue o.label value)
  | .joined letters =>
    if o.takesValue then .ok { complete := [(o, some letters)] }
    else (joined options o letters.toList).map (Uses.after o)

/-- Where a scan is with respect to the operands. -/
inductive Phase where
  | before
  | inside
  | behind
  deriving DecidableEq, Repr, Inhabited

/-- A scan in progress; `α` is what the options add up to. -/
structure Scan (α : Type) where
  /-- What the options so far add up to. -/
  sum : α
  /-- The option whose value must come next. -/
  awaiting : Option OptionSpec := none
  /-- Where the scan is. -/
  phase : Phase
  /-- The operands so far. -/
  operands : List String := []
  /-- What is left over so far. -/
  extras : List String := []

/-- How a command counts its options; `ε` is what can stop it. -/
structure Counter (α ε : Type) where
  /-- The options of the command. -/
  options : List OptionSpec
  /-- Adds an option. -/
  count : α → Use → Except ε α
  /-- Stops for an error. -/
  refuse : UsageError → ε

namespace Scan

variable {α ε : Type}

/-- An operand or something left over. -/
def operand (s : Scan α) (text : String) : Scan α :=
  if s.phase = .behind then { s with extras := s.extras ++ [text] }
  else { s with phase := .inside, operands := s.operands ++ [text] }

/-- The end of the operands, if there were any. -/
def leave (s : Scan α) : Scan α := if s.phase = .inside then { s with phase := .behind } else s

/-- One word. -/
def step (k : Counter α ε) (s : Scan α) (word : Word) : Except ε (Scan α) :=
  match s.awaiting, word with
  | some o, .plain text => do
    let sum ← k.count s.sum (o, some text)
    return { s with sum := sum, awaiting := none }
  | some o, _ => .error (k.refuse (.noValue o.label))
  | none, .plain text => .ok (s.operand text)
  | none, .divider =>
    .ok (if s.phase = .behind then { s with extras := s.extras ++ ["--"] } else s)
  | none, .unknown text => .ok { s.leave with extras := s.extras ++ [text] }
  | none, .option o attached => do
    let uses ← (usesOf k.options o attached).mapError k.refuse
    let sum ← uses.complete.foldlM k.count s.sum
    return { s.leave with sum := sum, awaiting := uses.awaiting, extras := s.extras ++ uses.extras }

/-- The end of the words. -/
def finish (k : Counter α ε) (s : Scan α) : Except ε (Scan α) :=
  match s.awaiting with
  | some o => .error (k.refuse (.noValue o.label))
  | none => .ok s

end Scan

/-- Scans the words of a command; `takesOperands` says whether it takes any. -/
def scan {α ε : Type} (k : Counter α ε) (takesOperands : Bool) (start : α) (words : List Word) :
    Except ε (Scan α) := do
  let s ← words.foldlM (Scan.step k)
    { sum := start, phase := if takesOperands then .before else .behind }
  s.finish k

end Framewise.Command
