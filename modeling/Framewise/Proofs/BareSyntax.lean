import Framewise.Proofs.Outline

/-! # Syntax without places

  Two scripts can hold the same syntax in different places. Here tokens and trees
  are stripped of their spans, and two of them are alike if nothing else tells
  them apart.

  Main definitions:
  - `Token.bare`, `Expr.bare`: a token or an expression with all spans empty.
  - `Alike`: equal but for spans.
-/

namespace Framewise.Script

/-- The span of what has no place. -/
def nowhere : Span := ⟨0, 0, 0, 0⟩

/-- What can be stripped of its places. -/
class Strip (α : Type) where
  /-- The same without places. -/
  bare : α → α

export Strip (bare)

/-- Equal but for places. -/
def Alike {α : Type} [Strip α] (a b : α) : Prop := bare a = bare b

/-! ### Tokens and expressions -/

/-- A token without its place. -/
def Token.bare (t : Token) : Token := { t with span := nowhere }

mutual

/-- An expression without places. -/
def Expr.bare : Expr → Expr
  | .name _ id => .name nowhere id
  | .constant _ value => .constant nowhere value
  | .number _ text => .number nowhere text
  | .string _ text => .string nowhere text
  | .concatenation _ pieces => .concatenation nowhere (bareExprs pieces)
  | .attribute _ receiver name => .attribute nowhere receiver.bare name
  | .call _ callee arguments => .call nowhere callee.bare (bareArguments arguments)
  | .subscript _ receiver items => .subscript nowhere receiver.bare (bareExprs items)
  | .slice _ bounds => .slice nowhere (bareExprs bounds)
  | .comparison _ first operators operands =>
    .comparison nowhere first.bare operators (bareExprs operands)
  | .sequence _ kind elements => .sequence nowhere kind (bareExprs elements)
  | .starred _ inner => .starred nowhere inner.bare
  | .lambda _ parameters body => .lambda nowhere (bareParameters parameters) body.bare
  | .operation _ kind operands => .operation nowhere kind (bareExprs operands)
  | .parenthesized _ inner => .parenthesized nowhere inner.bare

/-- Several expressions without places. -/
def bareExprs : List Expr → List Expr
  | [] => []
  | e :: es => e.bare :: bareExprs es

/-- An expression that may be absent, without places. -/
def bareOption : Option Expr → Option Expr
  | none => none
  | some e => some e.bare

/-- An argument without places. -/
def Argument.bare : Argument → Argument
  | .positional stars value => .positional stars value.bare
  | .keyword _ _ name value => .keyword nowhere nowhere name value.bare

/-- Arguments without places. -/
def bareArguments : List Argument → List Argument
  | [] => []
  | a :: as => a.bare :: bareArguments as

/-- A parameter without places. -/
def Parameter.bare : Parameter → Parameter
  | .mk _ stars name hint fallback => .mk nowhere stars name (bareOption hint) (bareOption fallback)

/-- Parameters without places. -/
def bareParameters : List Parameter → List Parameter
  | [] => []
  | p :: ps => p.bare :: bareParameters ps

end

@[simp] theorem bareExprs_eq (es : List Expr) : bareExprs es = es.map Expr.bare := by
  induction es with
  | nil => rfl
  | cons e es ih => rw [bareExprs, ih, List.map_cons]

@[simp] theorem bareArguments_eq (as : List Argument) :
    bareArguments as = as.map Argument.bare := by
  induction as with
  | nil => rfl
  | cons a as ih => rw [bareArguments, ih, List.map_cons]

/-! ### Instances -/

section Instances

variable {α : Type} [Strip α]

instance : Strip Token := ⟨Token.bare⟩

instance : Strip Expr := ⟨Expr.bare⟩

instance : Strip Argument := ⟨Argument.bare⟩

instance : Strip (List α) := ⟨List.map bare⟩

end Instances

/-! ### Alike -/

section Alike

variable {α : Type} [Strip α] {a a' b : α} {as as' : List α}

namespace Alike

theorem symm (h : Alike a b) : Alike b a := Eq.symm h

theorem nil_iff : Alike [] as ↔ as = [] := by
  constructor
  · intro h
    exact List.map_eq_nil_iff.mp (Eq.symm h)
  · rintro rfl
    rfl

theorem cons (h : Alike a a') (hs : Alike as as') : Alike (a :: as) (a' :: as') :=
  congrArg₂ List.cons h hs

theorem append {bs bs' : List α} (h : Alike as as') (hs : Alike bs bs') :
    Alike (as ++ bs) (as' ++ bs') := by
  show (as ++ bs).map Strip.bare = (as' ++ bs').map Strip.bare
  rw [List.map_append, List.map_append]
  exact congrArg₂ (· ++ ·) h hs

theorem cons_left (h : Alike (a :: as) as') :
    ∃ b bs, as' = b :: bs ∧ Alike a b ∧ Alike as bs := by
  cases as' with
  | nil => cases h
  | cons b bs => exact ⟨b, bs, rfl, List.head_eq_of_cons_eq h, List.tail_eq_of_cons_eq h⟩

theorem append_left {bs cs : List α} (h : Alike (as ++ bs) cs) :
    ∃ as' bs', cs = as' ++ bs' ∧ Alike as as' ∧ Alike bs bs' := by
  induction as generalizing cs with
  | nil => exact ⟨[], cs, rfl, rfl, h⟩
  | cons a as ih =>
    obtain ⟨c, cs, rfl, ha, hrest⟩ := cons_left h
    obtain ⟨as', bs', rfl, has, hbs⟩ := ih hrest
    exact ⟨c :: as', bs', rfl, cons ha has, hbs⟩

theorem length (h : Alike as as') : as.length = as'.length := by
  have hlength : (as.map Strip.bare).length = (as'.map Strip.bare).length :=
    congrArg List.length h
  simpa using hlength

end Alike

end Alike

/-! ### Tokens that are alike -/

namespace Alike

variable {t t' : Token}

theorem kind (h : Alike t t') : t.kind = t'.kind := by
  have hkind : t.bare.kind = t'.bare.kind := congrArg Token.kind h
  exact hkind

theorem text (h : Alike t t') : t.text = t'.text := by
  have htext : t.bare.text = t'.bare.text := congrArg Token.text h
  exact htext

theorem isOperator (h : Alike t t') (text : String) : t.isOperator text = t'.isOperator text := by
  rw [Token.isOperator, Token.isOperator, h.kind, h.text]

end Alike

/-! ### Expressions that are alike -/

namespace Alike

variable {s s' r r' : Span} {e e' f f' : Expr} {es es' : List Expr} {as as' : List Argument}

theorem name (id : String) : Alike (Expr.name s id) (.name s' id) := rfl

theorem constant (c : Constant) : Alike (Expr.constant s c) (.constant s' c) := rfl

theorem number (text : String) : Alike (Expr.number s text) (.number s' text) := rfl

theorem string (text : String) : Alike (Expr.string s text) (.string s' text) := rfl

theorem attributed (h : Alike e e') (id : String) :
    Alike (Expr.attribute s e id) (.attribute s' e' id) :=
  congrArg (Expr.attribute nowhere · id) h

theorem call (h : Alike e e') (has : Alike as as') :
    Alike (Expr.call s e as) (.call s' e' as') := by
  show Expr.call nowhere e.bare (bareArguments as) = .call nowhere e'.bare (bareArguments as')
  rw [bareArguments_eq, bareArguments_eq]
  exact congrArg₂ _ h has

theorem subscript (h : Alike e e') (hes : Alike es es') :
    Alike (Expr.subscript s e es) (.subscript s' e' es') := by
  show Expr.subscript nowhere e.bare (bareExprs es) = .subscript nowhere e'.bare (bareExprs es')
  rw [bareExprs_eq, bareExprs_eq]
  exact congrArg₂ _ h hes

theorem comparison (h : Alike e e') {signs signs' : List String} (hsigns : signs = signs')
    (hes : Alike es es') : Alike (Expr.comparison s e signs es) (.comparison s' e' signs' es') := by
  subst hsigns
  show Expr.comparison nowhere e.bare signs (bareExprs es) =
    .comparison nowhere e'.bare signs (bareExprs es')
  rw [bareExprs_eq, bareExprs_eq]
  exact congrArg₂ (Expr.comparison nowhere · signs ·) h hes

theorem sequence (kind : SequenceKind) (h : Alike es es') :
    Alike (Expr.sequence s kind es) (.sequence s' kind es') := by
  show Expr.sequence nowhere kind (bareExprs es) = .sequence nowhere kind (bareExprs es')
  rw [bareExprs_eq, bareExprs_eq]
  exact congrArg _ h

theorem operation (kind : OperationKind) (h : Alike es es') :
    Alike (Expr.operation s kind es) (.operation s' kind es') := by
  show Expr.operation nowhere kind (bareExprs es) = .operation nowhere kind (bareExprs es')
  rw [bareExprs_eq, bareExprs_eq]
  exact congrArg _ h

theorem parenthesized (h : Alike e e') : Alike (Expr.parenthesized s e) (.parenthesized s' e') :=
  congrArg (Expr.parenthesized nowhere) h

theorem positional (stars : Stars) (h : Alike e e') :
    Alike (Argument.positional stars e) (.positional stars e') :=
  congrArg (Argument.positional stars) h

theorem keyword (id : String) (h : Alike e e') :
    Alike (Argument.keyword s r id e) (.keyword s' r' id e') :=
  congrArg (Argument.keyword nowhere nowhere id ·) h

theorem single (h : Alike e e') : Alike [e] [e'] := cons h rfl

theorem name_left {id : String} (h : Alike (Expr.name s id) e) : ∃ s', e = .name s' id := by
  cases e with
  | name s' id' =>
    obtain ⟨-, rfl⟩ := Expr.name.inj h
    exact ⟨s', rfl⟩
  | _ => cases h

theorem string_left {text : String} (h : Alike (Expr.string s text) e) : ∃ s', e = .string s' text := by
  cases e with
  | string s' text' =>
    obtain ⟨-, rfl⟩ := Expr.string.inj h
    exact ⟨s', rfl⟩
  | _ => cases h

theorem attributed_left {id : String} (h : Alike (Expr.attribute s e id) f) :
    ∃ s' e', f = .attribute s' e' id ∧ Alike e e' := by
  cases f with
  | name | constant | number | string | concatenation | call | subscript | slice | comparison | sequence
  | starred | lambda | operation | parenthesized => cases h
  | _ =>
    obtain ⟨-, he, rfl⟩ := Expr.attribute.inj h
    exact ⟨_, _, rfl, he⟩

theorem subscript_left (h : Alike (Expr.subscript s e es) f) :
    ∃ s' e' es', f = .subscript s' e' es' ∧ Alike e e' ∧ Alike es es' := by
  cases f with
  | subscript s' e' es' =>
    obtain ⟨-, he, hes⟩ := Expr.subscript.inj h
    rw [bareExprs_eq, bareExprs_eq] at hes
    exact ⟨s', e', es', rfl, he, hes⟩
  | _ => cases h

theorem call_left (h : Alike (Expr.call s e as) f) :
    ∃ s' e' as', f = .call s' e' as' ∧ Alike e e' ∧ Alike as as' := by
  cases f with
  | call s' e' as' =>
    obtain ⟨-, he, has⟩ := Expr.call.inj h
    rw [bareArguments_eq, bareArguments_eq] at has
    exact ⟨s', e', as', rfl, he, has⟩
  | _ => cases h

theorem isStarred (h : Alike e e') : e.isStarred = e'.isStarred := by
  have hbare : ∀ e : Expr, e.bare.isStarred = e.isStarred := by
    intro e
    cases e <;> rfl
  rw [← hbare e, ← hbare e']
  exact congrArg Expr.isStarred h

end Alike

end Framewise.Script
