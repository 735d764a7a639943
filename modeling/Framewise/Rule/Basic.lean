import Framewise.Binding.Tracker
import Framewise.Diagnostic.Severity

/-! # Rules

  A rule has an id, a title, a severity and a matcher. The matcher is a pure
  function of one place in a tree and of what is known there; it yields
  findings, or crashes. A rule crashes as well if the texts of its findings
  cannot be written. Matchers keep no state and do not see each other, so a
  catalog of rules can be reordered or cut down freely.
-/

namespace Framewise

/-- A violation found at a node. -/
structure Finding where
  /-- What is wrong, in words. -/
  message : String
  /-- The binding or argument concerned. -/
  subject : Ident := some ""
  /-- Suggested replacement, if one can be derived. -/
  fix : Option String := none
  /-- Where it is, if narrower than the node. -/
  span : Option Span := none
  /-- Whether its texts can be written: they may show a number with too many digits. -/
  isWritable : Bool := true
  deriving Repr, Inhabited

/-- Why a matcher gave up. -/
inductive Crash where
  /-- A name could not be resolved. -/
  | fault (f : Fault)
  /-- A number has too many digits to be written. -/
  | unwritable
  /-- A rule of the host raised an error of the given class. -/
  | raised (class_ text : String)
  deriving DecidableEq, Repr, Inhabited

/-- The wording for a number with too many digits. -/
def unwritableMessage : String :=
  "Exceeds the limit (" ++ toString Number.digitLimit ++ " digits) for integer string " ++
    "conversion; use sys.set_int_max_str_digits() to increase the limit"

/-- A crash as shown in reports: the class of error around the quoted text. -/
def Crash.display : Crash → String
  | .fault f => "TypeError(" ++ Text.quoted f.message ++ ")"
  | .unwritable => "ValueError(" ++ Text.quoted unwritableMessage ++ ")"
  | .raised class_ text => class_ ++ "(" ++ Text.quoted text ++ ")"

/-- A node in its place: with its parent, unless it is the root. -/
structure Site where
  /-- The node. -/
  node : Node
  /-- Its parent. -/
  parent : Option Node := none

/-- What a matcher may look at besides the node. -/
structure View where
  /-- The open scopes. -/
  tracker : Tracker
  /-- The source text, if there is one. -/
  source : Option SourceText := none

namespace View

/-- The frame binding of a name node. -/
def frameOf (v : View) (n : Option Node) : Except Crash (Option Binding) :=
  (v.tracker.frameOf n).mapError .fault

/-- True if an expression is a frame. -/
def isFrame (v : View) (n : Option Node) : Except Crash Bool :=
  (v.tracker.isFrame n).mapError .fault

/-- The binding of a name in the innermost scope. -/
def local? (v : View) (name : Ident) : Option Binding := v.tracker.local? name

/-- The summary of the innermost scope, if it is a function. -/
def function? (v : View) : Option Summary := v.tracker.current.summary

/-- The source text of a node. -/
def textOf (v : View) (n : Option Node) : Option String := n.bind fun n => n.textIn v.source

end View

/-- The part of a rule that finds violations. -/
abbrev Matcher := Site → View → Except Crash (List Finding)

/-- An entry of a catalog. -/
structure Rule where
  /-- Identifier, such as `FL001`. -/
  id : String
  /-- Short title for listings. -/
  title : String
  /-- Severity unless settings replace it. -/
  severity : Severity
  /-- Finds the violations at a node. -/
  matcher : Matcher

/-- What a rule leads to at a node: what its matcher finds, if all of it can be written. -/
def Rule.outcome (rule : Rule) (site : Site) (view : View) : Except Crash (List Finding) := do
  let findings ← rule.matcher site view
  if findings.all Finding.isWritable then return findings else throw .unwritable

theorem Rule.outcome_eq_ok {rule : Rule} {site : Site} {view : View} {found : List Finding} :
    rule.outcome site view = .ok found ↔
      rule.matcher site view = .ok found ∧ ∀ finding ∈ found, finding.isWritable = true := by
  rw [← List.all_eq_true]
  unfold Rule.outcome
  cases rule.matcher site view with
  | error crash => simp [bind, Except.bind]
  | ok findings =>
    by_cases h : findings.all Finding.isWritable = true
    · simp only [bind, Except.bind, if_pos h, pure, Except.pure, Except.ok.injEq]
      exact ⟨fun heq => ⟨heq, heq ▸ h⟩, And.left⟩
    · simp only [bind, Except.bind, if_neg h, throw, throwThe, MonadExceptOf.throw,
        Except.ok.injEq, reduceCtorEq, false_iff]
      rintro ⟨rfl, hall⟩
      exact h hall

end Framewise
