import Framewise.Command.Check
import Framewise.Command.RuleTable

/-! # The program

  A run of the program on a command line, as a function of the files it can see.
-/

namespace Framewise.Command

/-- What the program leaves behind if the command line is no request. -/
def Stop.transcript : Stop → Transcript
  | .shown text => { exitCode := 0, stdout := text }
  | .refused command e =>
    { exitCode := 2, stderr := command.usage ++ command.name ++ ": error: " ++ e.message ++ "\n" }

/-- What the program leaves behind for the catalog. -/
def showRules : Transcript := { exitCode := 0, table := ruleTable catalog }

/-- Runs the program. -/
def run [Script.CharacterNames] (t : FileTree) (arguments : List String) :
    Except Failure Transcript :=
  match Request.ofArguments arguments with
  | .error stop => .ok stop.transcript
  | .ok .rules => .ok showRules
  | .ok (.check r) => r.run t

end Framewise.Command
