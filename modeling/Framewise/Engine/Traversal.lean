import Framewise.Diagnostic.Basic
import Framewise.Engine.Log
import Framewise.Rule.Catalog
import Framewise.Text.Markup

/-! # The traversal

  One walk over a tree applies every rule at every node and keeps the tracker
  up to date. A node's rules run before its children are visited. Functions and
  classes open a scope for their bodies; what stands outside the body
  (decorators, defaults, annotations, bases) is visited in the scope around
  them. An assignment binds after its children. A branch runs each of its arms
  from the same store and merges what they lead to.

  A matcher that crashes costs one crash diagnostic and nothing else. The walk
  is cut short by the deadline, by a fault of the tracker, and by a finding
  without a subject; the state reached is returned in any case, and scopes that
  were opened are closed.

  Main definitions:
  - `Walk`: the state of a walk.
  - `branch`: alternative arms and their merge.
  - `visit`: the walk over one node.
-/

namespace Framewise

/-! ### State -/

/-- Why a walk was cut short. -/
inductive Halt where
  /-- The deadline has passed. -/
  | deadline
  /-- A name could not be resolved or ordered. -/
  | fault (f : Fault)
  /-- A finding has no subject. -/
  | noSubject
  deriving DecidableEq, Repr, Inhabited

/-- What stays fixed during a walk. -/
structure Survey where
  /-- The rules to apply. -/
  rules : List Rule
  /-- The source text, if there is one. -/
  source : Option SourceText := none
  /-- The instant after which the walk is cut short. -/
  limit : Option Number := none
  /-- The readings of the clock, by number. -/
  clock : Nat → Number := fun _ => .int 0

/-- The state of a walk. -/
structure Walk where
  /-- The open scopes. -/
  tracker : Tracker := .start
  /-- The diagnostics so far, last first. -/
  raw : List Diagnostic := []
  /-- The log records so far, last first. -/
  logs : List LogRecord := []
  /-- The number of clock readings so far. -/
  readings : Nat := 0
  deriving Repr, Inhabited

/-- A step of a walk: it may be cut short, and the state survives that. -/
abbrev Visit := EStateM Halt Walk

/-! ### Rules -/

/-- Reads the clock and stops if the deadline has passed. -/
def checkDeadline (survey : Survey) : Visit Unit :=
  match survey.limit with
  | none => pure ()
  | some limit => do
    let walk ← get
    set { walk with readings := walk.readings + 1 }
    if limit.lt (survey.clock walk.readings) then throw .deadline

/-- The diagnostic of a crash. -/
def crashDiagnostic (rule : Rule) (n : Node) (crash : Crash) : Diagnostic :=
  { ruleId := crashRuleId, severity := .error, span := n.span,
    message := "Rule " ++ rule.id ++ " crashed: " ++ crash.display, subject := rule.id }

/-- The log record of a crash. -/
def crashRecord (rule : Rule) (n : Node) (crash : Crash) : LogRecord :=
  { level := .error,
    message := "Rule [rule]" ++ rule.id ++ "[/rule] crashed at line " ++
      toString n.span.startLine ++ ": " ++ Text.escapeMarkup crash.display }

/-- The diagnostic of a finding with a subject. -/
def findingDiagnostic (rule : Rule) (n : Node) (finding : Finding) (subject : String) :
    Diagnostic :=
  { ruleId := rule.id, severity := rule.severity, span := finding.span.getD n.span,
    message := finding.message, fixText := finding.fix, subject := subject }

/-- Adds a diagnostic. -/
def report (d : Diagnostic) : Visit Unit := modify fun walk => { walk with raw := d :: walk.raw }

/-- Adds a log record. -/
def log (record : LogRecord) : Visit Unit :=
  modify fun walk => { walk with logs := record :: walk.logs }

/-- Adds the diagnostics of a rule's findings. -/
def reportFindings (rule : Rule) (n : Node) : List Finding → Visit Unit
  | [] => pure ()
  | finding :: rest =>
    match finding.subject with
    | none => throw .noSubject
    | some subject => do
      report (findingDiagnostic rule n finding subject)
      reportFindings rule n rest

/-- Applies one rule at a node. -/
def applyRule (survey : Survey) (site : Site) (rule : Rule) : Visit Unit := do
  let walk ← get
  match rule.outcome site { tracker := walk.tracker, source := survey.source } with
  | .ok findings => reportFindings rule site.node findings
  | .error crash =>
    log (crashRecord rule site.node crash)
    report (crashDiagnostic rule site.node crash)

/-- Applies rules at a node, in order. -/
def applyRules (survey : Survey) (site : Site) : List Rule → Visit Unit
  | [] => pure ()
  | rule :: rest => do
    applyRule survey site rule
    applyRules survey site rest

/-! ### Tracking -/

/-- Changes the tracker. -/
def track (f : Tracker → Tracker) : Visit Unit :=
  modify fun walk => { walk with tracker := f walk.tracker }

/-- Changes the tracker in a way that may fail. -/
def tryTrack (f : Tracker → Except Fault Tracker) : Visit Unit := do
  let walk ← get
  match f walk.tracker with
  | .ok tracker => set { walk with tracker := tracker }
  | .error fault => throw (.fault fault)

/-- Runs a step and closes the innermost scope, also if the step was cut short. -/
def closing (step : Visit Unit) : Visit Unit := fun walk =>
  match step walk with
  | .ok a after => .ok a { after with tracker := after.tracker.exit }
  | .error halt after => .error halt { after with tracker := after.tracker.exit }

/-- Binds the name of a function or class, whose value is no frame. -/
def bindDefinition (n : Node) : Visit Unit :=
  match n.name with
  | some s => if s.isEmpty then pure () else track fun t => t.bind (some s) .unknown
  | none => pure ()

/-- The tracker after arms that led from the same store to `outcomes`. With `fallthrough`
    none of the arms need run, and without arms nothing happens. -/
def Tracker.join (t : Tracker) (start : Store) (outcomes : List Store) (fallthrough : Bool) :
    Except Fault Tracker := do
  let paths := if fallthrough || outcomes.isEmpty then outcomes ++ [start] else outcomes
  return t.withStore (← Store.merge paths)

/-- Runs each arm from the same store; the stores they lead to. -/
def runArms (start : Store) : List (Visit Unit) → Visit (List Store)
  | [] => pure []
  | arm :: rest => do
    track fun t => t.withStore start
    arm
    let walk ← get
    let outcomes ← runArms start rest
    return walk.tracker.current.store :: outcomes

/-- Runs alternative arms and merges what they lead to. -/
def branch (arms : List (Visit Unit)) (fallthrough : Bool) : Visit Unit := do
  let walk ← get
  let start := walk.tracker.current.store
  let outcomes ← runArms start arms
  tryTrack fun t => t.join start outcomes fallthrough

/-! ### Nodes -/

/-- The name of the scope of a class. -/
def classScopeName (n : Node) : String :=
  match n.name with
  | some s => if s.isEmpty then "<class>" else s
  | none => "<class>"

/-- True for a child in a role. -/
def playing (role : String) (n : Node) : Bool := n.role = role

/-- True for a child in another role. -/
def notPlaying (role : String) (n : Node) : Bool := n.role != role

/-- True for the parts of a loop that run after its target is bound. -/
def inLoop (n : Node) : Bool := n.role = Role.body || n.role = Role.orelse

mutual

/-- Visits a node below `parent`. -/
def visit (survey : Survey) (parent : Option Node) : Node → Visit Unit
  | n@{ kind := kind, tag := tag, children := cs, .. } => do
    checkDeadline survey
    applyRules survey { node := n, parent := parent } survey.rules
    match kind with
    | .functionDef =>
      visitWhere survey n (notPlaying Role.body) cs
      tryTrack fun t => t.enterFunction n
      closing (visitWhere survey n (playing Role.body) cs)
      bindDefinition n
    | .classDef =>
      visitWhere survey n (notPlaying Role.body) cs
      track fun t => t.enter (classScopeName n)
      closing (visitWhere survey n (playing Role.body) cs)
      bindDefinition n
    | .branch =>
      match tag with
      | "If" =>
        visitWhere survey n (playing Role.test) cs
        match n.child? Role.orelse with
        | some _ => branch [visitFirst survey n Role.body cs, visitFirst survey n Role.orelse cs] false
        | none => branch [visitFirst survey n Role.body cs] true
      | "For" =>
        visitWhere survey n (playing Role.iter) cs
        branch [do visitTarget survey n cs; visitWhere survey n inLoop cs] true
      | "While" =>
        visitWhere survey n (playing Role.test) cs
        branch [do visitFirst survey n Role.body cs; visitFirst survey n Role.orelse cs] true
      | "Try" =>
        branch ((do visitFirst survey n Role.body cs; visitFirst survey n Role.orelse cs) ::
          visitArms survey n Role.handler cs) false
        visitWhere survey n (playing Role.finally_) cs
      | "Match" =>
        visitWhere survey n (playing Role.test) cs
        branch (visitArms survey n Role.case cs) true
      | _ => visitWhere survey n (fun _ => true) cs
    | .assignment =>
      visitWhere survey n (fun _ => true) cs
      tryTrack fun t => t.bindAssignment n
    | _ => visitWhere survey n (fun _ => true) cs
  termination_by structural n => n

/-- Visits the children that `pick` chooses, in order. -/
def visitWhere (survey : Survey) (parent : Node) (pick : Node → Bool) : List Node → Visit Unit
  | [] => pure ()
  | c :: cs => do
    if pick c then visit survey (some parent) c
    visitWhere survey parent pick cs
  termination_by structural children => children

/-- Visits the first child in a role. -/
def visitFirst (survey : Survey) (parent : Node) (role : String) : List Node → Visit Unit
  | [] => pure ()
  | c :: cs =>
    if c.role = role then visit survey (some parent) c else visitFirst survey parent role cs
  termination_by structural children => children

/-- Visits the target of a loop and binds its names. -/
def visitTarget (survey : Survey) (parent : Node) : List Node → Visit Unit
  | [] => pure ()
  | c :: cs =>
    if c.role = Role.target then do
      visit survey (some parent) c
      track fun t => t.bindTarget .unknown c
    else visitTarget survey parent cs
  termination_by structural children => children

/-- One arm per child in a role. -/
def visitArms (survey : Survey) (parent : Node) (role : String) : List Node → List (Visit Unit)
  | [] => []
  | c :: cs =>
    if c.role = role then visit survey (some parent) c :: visitArms survey parent role cs
    else visitArms survey parent role cs
  termination_by structural children => children

end

end Framewise
