import Framewise.Proofs.RoundTrip
import Mathlib.Data.List.Forall2

/-! # Trees from outside that are well formed

  A value from outside is read as a tree or refused. It is read just if it is well formed
  and not nested too deeply; then every object has become one node, in its place and with
  its own fields. It is refused at the first field that is malformed, where the fields of
  an object come in a fixed order and what is wrong with its children comes with the field
  `children`.

  Every reader is judged in the same way: by the paths that are malformed for it, and by
  what its result has to be. Readers in a row are judged together if the paths of the first
  come before those of the second.

  Main definitions:
  - `Node.WellFormed`, `Node.Nested`: the values that are read.
  - `Node.Mirrors`: a tree with one node for each object.
  - `Node.Malformed`: the path of a malformed field.
  - `Node.Judged`: a reader that stops at the first malformed path.

  Main results: `Node.readNode_judged` and `ofValue_accepts_wellFormed`.
-/

namespace Framewise

open Schema (Step Cause Problem)

/-- A whole number, leniently read, that is at least 1. -/
def Value.CountsFromOne (v : Value) : Prop := ∃ i, Schema.int v = .ok i ∧ 1 ≤ i

namespace Node

/-! ## Well-formed values -/

/-- The entries of the object form of a span. -/
def spanKeys : List String := ["start_line", "start_column", "end_line", "end_column"]

/-- The entries of an object that may be left out and hold no objects of the tree. -/
inductive PlainField where
  | name
  | role
  | tag
  | attrs
  deriving DecidableEq, Repr

/-- The key of an entry. -/
def PlainField.key : PlainField → String
  | .name => "name"
  | .role => "role"
  | .tag => "tag"
  | .attrs => "attrs"

/-- The values that an entry may have. -/
def PlainField.Accepts : PlainField → Value → Prop
  | .name, v => v = .null ∨ ∃ s, v = .text s
  | .role, v => ∃ s, v = .text s
  | .tag, v => ∃ s, v = .text s
  | .attrs, v => ∃ entries, v = .table entries

/-- The kind of an object is that of a node. -/
def HasKind (entries : List (String × Value)) : Prop :=
  ∃ kind : NodeKind, Value.lookup entries "kind" = some (.text kind.label)

/-- A place of a span counts from 1. -/
def HasPlace (entries : List (String × Value)) (key : String) : Prop :=
  ∃ v, Value.lookup entries key = some v ∧ v.CountsFromOne

/-- A well-formed tree, as a value from outside. -/
inductive WellFormed : Value → Prop
  | node {entries inner : List (String × Value)} (kind : HasKind entries)
      (span : Value.lookup entries "span" = some (.table inner))
      (places : ∀ key ∈ spanKeys, HasPlace inner key)
      (list : ∀ v, Value.lookup entries "children" = some v → ∃ items, v = .list items)
      (children : ∀ items, Value.lookup entries "children" = some (.list items) →
        ∀ c ∈ items, WellFormed c)
      (plain : ∀ (field : PlainField) (v : Value), Value.lookup entries field.key = some v →
        field.Accepts v) : WellFormed (.table entries)

/-- Objects nested at most so many levels deep. -/
inductive Nested : Nat → Value → Prop
  | node {levels : Nat} {entries : List (String × Value)}
      (children : ∀ items, Value.lookup entries "children" = some (.list items) →
        ∀ c ∈ items, Nested levels c) : Nested (levels + 1) (.table entries)

/-- A place of a span as it has been read. -/
def ReadsPlace (entries : List (String × Value)) (key : String) (i : Int) : Prop :=
  ∃ v, Value.lookup entries key = some v ∧ Schema.int v = .ok i ∧ 1 ≤ i

/-- A span as it has been read. -/
structure ReadsSpan (entries : List (String × Value)) (s : Span) : Prop where
  startLine : ReadsPlace entries "start_line" s.startLine
  startColumn : ReadsPlace entries "start_column" s.startColumn
  endLine : ReadsPlace entries "end_line" s.endLine
  endColumn : ReadsPlace entries "end_column" s.endColumn

/-- The entries of a value that is a table. -/
def tableEntries : Option Value → List (String × Value)
  | some (.table entries) => entries
  | _ => []

/-- The objects in a value that is a list. -/
def listItems : Option Value → List Value
  | some (.list items) => items
  | _ => []

/-- What is read of an object besides its kind, span and children. -/
structure ReadsFields (entries : List (String × Value)) (n : Node) : Prop where
  name : n.name = Value.text? (Value.lookup entries "name")
  literal : n.literal = Value.lookup entries "literal"
  role : n.role = (Value.text? (Value.lookup entries "role")).getD ""
  tag : n.tag = (Value.text? (Value.lookup entries "tag")).getD ""
  attrs : n.attrs = tableEntries (Value.lookup entries "attrs")

/-- A tree that has one node for each object of a value, in the same order and nesting and with
    the same fields. -/
inductive Mirrors : Value → Node → Prop
  | node {entries inner : List (String × Value)} {n : Node}
      (kind : Value.lookup entries "kind" = some (.text n.kind.label))
      (span : Value.lookup entries "span" = some (.table inner))
      (places : ReadsSpan inner n.span)
      (children : List.Forall₂ Mirrors (listItems (Value.lookup entries "children")) n.children)
      (fields : ReadsFields entries n) : Mirrors (.table entries) n

/-! ## Malformed fields -/

/-- A field of a tree is malformed, where so many levels may be nested. -/
inductive Malformed : Nat → Value → List Step → Prop
  | tooDeep {v : Value} : Malformed 0 v []
  | object {levels : Nat} {v : Value} (h : ∀ entries, v ≠ .table entries) :
      Malformed (levels + 1) v []
  | kind {levels : Nat} {entries : List (String × Value)} (h : ¬HasKind entries) :
      Malformed (levels + 1) (.table entries) [.key "kind"]
  | span {levels : Nat} {entries : List (String × Value)}
      (h : ∀ inner, Value.lookup entries "span" ≠ some (.table inner)) :
      Malformed (levels + 1) (.table entries) [.key "span"]
  | place {levels : Nat} {entries inner : List (String × Value)} {key : String}
      (hspan : Value.lookup entries "span" = some (.table inner)) (hkey : key ∈ spanKeys)
      (h : ¬HasPlace inner key) : Malformed (levels + 1) (.table entries) [.key "span", .key key]
  | children {levels : Nat} {entries : List (String × Value)} {v : Value}
      (hchildren : Value.lookup entries "children" = some v) (h : ∀ items, v ≠ .list items) :
      Malformed (levels + 1) (.table entries) [.key "children"]
  | child {levels : Nat} {entries : List (String × Value)} {items : List Value} {i : Nat}
      {c : Value} {path : List Step}
      (hchildren : Value.lookup entries "children" = some (.list items))
      (hitem : items[i]? = some c) (h : Malformed levels c path) :
      Malformed (levels + 1) (.table entries) (.key "children" :: .item i :: path)
  | plain {levels : Nat} {entries : List (String × Value)} {field : PlainField} {v : Value}
      (hfield : Value.lookup entries field.key = some v) (h : ¬field.Accepts v) :
      Malformed (levels + 1) (.table entries) [.key field.key]

/-- The fields of an object, in their order. -/
def fieldOrder : List String := ["kind", "span", "children", "name", "role", "tag", "attrs"]

/-- The rank of a step among those from the same value. -/
def rank : Step → Nat
  | .key key => (fieldOrder ++ spanKeys).idxOf key
  | .item index => index

/-- The first path is the same as the second or comes before it, depth first. -/
def NoLater : List Step → List Step → Prop
  | [], _ => True
  | _ :: _, [] => False
  | s :: p, t :: q => rank s < rank t ∨ rank s = rank t ∧ NoLater p q

theorem NoLater.refl (p : List Step) : NoLater p p := by
  induction p with
  | nil => trivial
  | cons step p ih => exact .inr ⟨rfl, ih⟩

theorem NoLater.cons {p q : List Step} (step : Step) (h : NoLater p q) :
    NoLater (step :: p) (step :: q) := .inr ⟨rfl, h⟩

theorem NoLater.of_rank_lt {step step' : Step} (h : rank step < rank step') (p q : List Step) :
    NoLater (step :: p) (step' :: q) := .inl h

theorem NoLater.of_keys {key key' : String} {p q : List Step}
    (hrank : rank (.key key) < rank (.key key')) (hp : ∃ rest, p = .key key :: rest)
    (hq : ∃ rest, q = .key key' :: rest) : NoLater p q := by
  obtain ⟨rest, rfl⟩ := hp
  obtain ⟨rest', rfl⟩ := hq
  exact .of_rank_lt hrank _ _

/-! ## Readers -/

/-- A reader that gives a result as it should be if no path is malformed, and otherwise stops at
    the first that is. -/
structure Judged {α : Type} (r : FirstProblem α) (Bad : List Step → Prop) (Good : α → Prop) :
    Prop where
  ok : ∀ a, r = .ok a → Good a ∧ ∀ path, ¬Bad path
  error : ∀ p, r = .error p → Bad p.path ∧ ∀ path, Bad path → NoLater p.path path

namespace Judged

variable {α β : Type} {r : FirstProblem α} {f : α → FirstProblem β} {Bad Bad' : List Step → Prop}
variable {Good Good' : α → Prop} {Best : β → Prop} {v : Value} {entries : List (String × Value)}
variable {key : String}

theorem pure {a : α} (h : Good a) : Judged (pure a : FirstProblem α) (fun _ => False) Good where
  ok := by
    rintro b ⟨⟩
    exact ⟨h, fun _ => id⟩
  error := by rintro p ⟨⟩

theorem mono (h : Judged r Bad Good) (hbad : ∀ path, Bad path ↔ Bad' path)
    (hgood : ∀ a, Good a → Good' a) : Judged r Bad' Good' where
  ok a ha := ⟨hgood a (h.ok a ha).1, fun path hpath => (h.ok a ha).2 path ((hbad path).mpr hpath)⟩
  error p hp := ⟨(hbad p.path).mp (h.error p hp).1,
    fun path hpath => (h.error p hp).2 path ((hbad path).mpr hpath)⟩

/-- Two readers in a row, where what the first refuses comes before what the second refuses. -/
theorem bind (h : Judged r Bad Good) (hf : ∀ a, Good a → Judged (f a) Bad' Best)
    (hbefore : ∀ p q, Bad p → Bad' q → NoLater p q) :
    Judged (r >>= f) (fun path => Bad path ∨ Bad' path) Best := by
  cases r with
  | error p =>
    obtain ⟨hbad, hfirst⟩ := h.error p rfl
    refine ⟨by rintro b ⟨⟩, ?_⟩
    rintro q ⟨⟩
    refine ⟨.inl hbad, ?_⟩
    rintro path (hpath | hpath)
    · exact hfirst path hpath
    · exact hbefore _ path hbad hpath
  | ok a =>
    obtain ⟨hgood, hnone⟩ := h.ok a rfl
    have hnext : Judged (f a) Bad' Best := hf a hgood
    refine ⟨fun b hb => ?_, fun p hp => ?_⟩
    · obtain ⟨hbest, hnone'⟩ := hnext.ok b hb
      exact ⟨hbest, fun path hpath => hpath.elim (hnone path) (hnone' path)⟩
    · obtain ⟨hbad, hfirst⟩ := hnext.error p hp
      exact ⟨.inr hbad, fun path hpath => hpath.elim (fun h => absurd h (hnone path))
        (hfirst path)⟩

theorem inside (h : Judged r Bad Good) (step : Step) :
    Judged (Node.inside step r) (fun path => ∃ rest, path = step :: rest ∧ Bad rest) Good := by
  cases r with
  | error p =>
    obtain ⟨hbad, hfirst⟩ := h.error p rfl
    refine ⟨by rintro b ⟨⟩, ?_⟩
    rintro q ⟨⟩
    refine ⟨⟨p.path, rfl, hbad⟩, ?_⟩
    rintro path ⟨rest, rfl, hrest⟩
    exact (hfirst rest hrest).cons step
  | ok a =>
    obtain ⟨hgood, hnone⟩ := h.ok a rfl
    refine ⟨?_, by rintro p ⟨⟩⟩
    rintro b ⟨⟩
    refine ⟨hgood, ?_⟩
    rintro path ⟨rest, rfl, hrest⟩
    exact hnone rest hrest

/-- A value read in place. -/
theorem readHere (read : Value → Schema.Read α) (v : Value) :
    Judged (Node.readHere read v) (fun path => path = [] ∧ ∀ a, read v ≠ .ok a)
      (fun a => read v = .ok a) := by
  unfold Node.readHere
  cases hread : read v with
  | error cause =>
    refine ⟨by rintro a ⟨⟩, ?_⟩
    rintro p ⟨⟩
    refine ⟨⟨rfl, by simp⟩, ?_⟩
    rintro path ⟨rfl, -⟩
    exact .refl _
  | ok a =>
    refine ⟨?_, by rintro p ⟨⟩⟩
    rintro b ⟨⟩
    exact ⟨rfl, fun path hpath => hpath.2 a rfl⟩

/-- A field that must be there. -/
theorem readRequired {read : Value → FirstProblem α} {BadOf : Value → List Step → Prop}
    {GoodOf : Value → α → Prop} (h : ∀ v, Judged (read v) (BadOf v) (GoodOf v)) :
    Judged (Node.readRequired entries key read)
      (fun path => (Value.lookup entries key = none ∧ path = [.key key]) ∨
        ∃ v rest, Value.lookup entries key = some v ∧ path = .key key :: rest ∧ BadOf v rest)
      (fun a => ∃ v, Value.lookup entries key = some v ∧ GoodOf v a) := by
  unfold Node.readRequired
  cases hlookup : Value.lookup entries key with
  | some v => exact ((h v).inside (.key key)).mono (by simp) fun a ha => ⟨v, rfl, ha⟩
  | none =>
    refine ⟨by rintro a ⟨⟩, ?_⟩
    rintro p ⟨⟩
    refine ⟨.inl ⟨rfl, rfl⟩, ?_⟩
    rintro path (⟨-, rfl⟩ | ⟨v, rest, hv, -⟩)
    · exact .refl _
    · cases hv

/-- A field with a default. -/
theorem readDefaulted (fallback : α) (read : Value → Schema.Read α) :
    Judged (Node.readDefaulted entries key fallback read)
      (fun path => path = [.key key] ∧
        ∃ v, Value.lookup entries key = some v ∧ ∀ a, read v ≠ .ok a)
      (fun a => (Value.lookup entries key = none ∧ a = fallback) ∨
        ∃ v, Value.lookup entries key = some v ∧ read v = .ok a) := by
  unfold Node.readDefaulted
  cases hlookup : Value.lookup entries key with
  | some v =>
    refine ((readHere read v).inside (.key key)).mono (fun path => ?_) fun a ha => .inr ⟨v, rfl, ha⟩
    simp
  | none => exact (Judged.pure (.inl ⟨rfl, rfl⟩)).mono (by simp) fun _ => id

end Judged

/-! ## The fields of an object -/

section Fields

variable {entries : List (String × Value)}

theorem listed_kind_ok_iff {v : Value} {kind : NodeKind} :
    Schema.listed NodeKind.all NodeKind.label v = .ok kind ↔ v = .text kind.label := by
  constructor
  · intro h
    unfold Schema.listed at h
    cases v with
    | text s =>
      dsimp only at h
      split at h
      next found hfound =>
        cases h
        have hlabel := List.find?_some hfound
        exact congrArg Value.text (of_decide_eq_true hlabel).symm
      next => cases h
    | _ => cases h
  · rintro rfl
    exact listed_label kind

/-- The path of a kind that is none. -/
def BadKind (entries : List (String × Value)) (path : List Step) : Prop :=
  path = [.key "kind"] ∧ ¬HasKind entries

theorem BadKind.head {path : List Step} (h : BadKind entries path) :
    ∃ rest, path = .key "kind" :: rest := ⟨[], h.1⟩

/-- The kind of an object. -/
theorem kind_judged :
    Judged (readRequired entries "kind" (readHere (Schema.listed NodeKind.all NodeKind.label)))
      (BadKind entries)
      (fun kind => Value.lookup entries "kind" = some (.text kind.label)) := by
  refine (Judged.readRequired fun v => .readHere _ v).mono (fun path => ?_) ?_
  · cases hlookup : Value.lookup entries "kind" with
    | none => simp [BadKind, HasKind, hlookup]
    | some v => simp [BadKind, HasKind, hlookup, listed_kind_ok_iff]
  · rintro kind ⟨v, hlookup, hread⟩
    rw [hlookup, listed_kind_ok_iff.mp hread]

theorem positiveInt_ok_iff {v : Value} {i : Int} :
    Schema.positiveInt v = .ok i ↔ Schema.int v = .ok i ∧ 1 ≤ i := by
  unfold Schema.positiveInt
  cases Schema.int v with
  | error cause => simp [bind, Except.bind]
  | ok j =>
    by_cases hj : j < 1
    · simp only [bind, Except.bind, hj, if_true, throw, throwThe, MonadExceptOf.throw]
      constructor
      · rintro ⟨⟩
      · rintro ⟨⟨⟩, hi⟩
        omega
    · simp only [bind, Except.bind, hj, if_false, pure, Except.pure, Except.ok.injEq]
      constructor
      · rintro rfl
        exact ⟨rfl, by omega⟩
      · exact And.left

/-- A place of a span that does not count from 1. -/
def BadPlace (entries : List (String × Value)) (key : String) (path : List Step) : Prop :=
  path = [.key key] ∧ ¬HasPlace entries key

theorem BadPlace.head {key : String} {path : List Step} (h : BadPlace entries key path) :
    ∃ rest, path = .key key :: rest := ⟨[], h.1⟩

theorem place_judged (key : String) :
    Judged (readRequired entries key (readHere Schema.positiveInt)) (BadPlace entries key)
      (ReadsPlace entries key) := by
  refine (Judged.readRequired fun v => .readHere _ v).mono (fun path => ?_) ?_
  · cases hlookup : Value.lookup entries key with
    | none => simp [BadPlace, HasPlace, hlookup]
    | some v =>
      simp [BadPlace, HasPlace, hlookup, Value.CountsFromOne, positiveInt_ok_iff, and_comm]
  · rintro i ⟨v, hlookup, hread⟩
    exact ⟨v, hlookup, positiveInt_ok_iff.mp hread⟩

/-- The places of a span, one after the other. -/
theorem places_judged :
    Judged (readSpan (.table entries)) (fun path => ∃ key ∈ spanKeys, BadPlace entries key path)
      (ReadsSpan entries) := by
  refine Judged.mono (.bind (place_judged "start_line") (fun startLine hstartLine =>
    .bind (place_judged "start_column") (fun startColumn hstartColumn =>
    .bind (place_judged "end_line") (fun endLine hendLine =>
    .bind (place_judged "end_column") (fun endColumn hendColumn =>
      .pure ⟨hstartLine, hstartColumn, hendLine, hendColumn⟩) ?_) ?_) ?_) ?_) ?_ fun _ => id
  · exact fun p q _ hq => hq.elim
  · rintro p q hp (hq | hq)
    · exact .of_keys (by decide) hp.head hq.head
    · exact hq.elim
  · rintro p q hp (hq | hq | hq)
    · exact .of_keys (by decide) hp.head hq.head
    · exact .of_keys (by decide) hp.head hq.head
    · exact hq.elim
  · rintro p q hp (hq | hq | hq | hq)
    · exact .of_keys (by decide) hp.head hq.head
    · exact .of_keys (by decide) hp.head hq.head
    · exact .of_keys (by decide) hp.head hq.head
    · exact hq.elim
  · simp [spanKeys]

/-- The path of a span that is no object, or of a place in it. -/
def BadSpan (entries : List (String × Value)) (path : List Step) : Prop :=
  (path = [.key "span"] ∧ ∀ inner, Value.lookup entries "span" ≠ some (.table inner)) ∨
    ∃ inner key, Value.lookup entries "span" = some (.table inner) ∧ key ∈ spanKeys ∧
      path = [.key "span", .key key] ∧ ¬HasPlace inner key

theorem BadSpan.head {path : List Step} (h : BadSpan entries path) :
    ∃ rest, path = .key "span" :: rest := by
  rcases h with ⟨rfl, -⟩ | ⟨inner, key, -, -, rfl, -⟩
  · exact ⟨_, rfl⟩
  · exact ⟨_, rfl⟩

/-- A value that is to be a span. -/
theorem readSpan_judged (v : Value) :
    Judged (readSpan v)
      (fun path => (path = [] ∧ ∀ inner, v ≠ .table inner) ∨
        ∃ inner, v = .table inner ∧ ∃ key ∈ spanKeys, BadPlace inner key path)
      (fun s => ∃ inner, v = .table inner ∧ ReadsSpan inner s) := by
  by_cases htable : ∃ inner, v = .table inner
  · obtain ⟨inner, rfl⟩ := htable
    exact places_judged.mono (by simp) (by simp)
  · have hother : readSpan v = .error ⟨[], .notModel "_RawSpan"⟩ := by
      unfold readSpan
      split
      next inner => exact absurd ⟨inner, rfl⟩ htable
      next => rfl
    rw [not_exists] at htable
    rw [hother]
    refine ⟨by rintro a ⟨⟩, ?_⟩
    rintro p ⟨⟩
    refine ⟨.inl ⟨rfl, htable⟩, ?_⟩
    rintro path (⟨rfl, -⟩ | ⟨inner, hinner, -⟩)
    · exact .refl _
    · exact absurd hinner (htable inner)

/-- The span of an object. -/
theorem span_judged :
    Judged (readRequired entries "span" readSpan) (BadSpan entries)
      (fun s => ∃ inner, Value.lookup entries "span" = some (.table inner) ∧
        ReadsSpan inner s) := by
  refine (Judged.readRequired readSpan_judged).mono (fun path => ?_) ?_
  · unfold BadSpan
    cases hlookup : Value.lookup entries "span" with
    | none => simp
    | some v =>
      simp only [Option.some.injEq, reduceCtorEq, false_and, false_or, ne_eq]
      constructor
      · rintro ⟨w, rest, rfl, rfl, ⟨rfl, hother⟩ | ⟨inner, rfl, key, hkey, rfl, hplace⟩⟩
        · exact .inl ⟨rfl, hother⟩
        · exact .inr ⟨inner, key, rfl, hkey, rfl, hplace⟩
      · rintro (⟨rfl, hother⟩ | ⟨inner, key, rfl, hkey, rfl, hplace⟩)
        · exact ⟨v, [], rfl, rfl, .inl ⟨rfl, hother⟩⟩
        · exact ⟨_, _, rfl, rfl, .inr ⟨inner, rfl, key, hkey, rfl, hplace⟩⟩
  · rintro s ⟨v, hlookup, inner, rfl, hreads⟩
    exact ⟨inner, hlookup, hreads⟩

section Children

variable {read : Value → FirstProblem Node} {BadOf : Value → List Step → Prop}
variable {GoodOf : Value → Node → Prop}

/-- The items of a list, each judged for itself. -/
theorem items_judged (h : ∀ v, Judged (read v) (BadOf v) (GoodOf v)) (items : List Value)
    (index : Nat) :
    Judged (readItems read index items)
      (fun path => ∃ i c rest, items[i]? = some c ∧ path = .item (index + i) :: rest ∧
        BadOf c rest)
      (List.Forall₂ GoodOf items) := by
  induction items generalizing index with
  | nil => exact (Judged.pure .nil).mono (by simp) fun _ => id
  | cons v items ih =>
    refine Judged.mono (.bind ((h v).inside (.item index)) (fun n hn =>
      .bind (ih (index + 1)) (fun ns hns => .pure (.cons hn hns)) fun p q _ hq => hq.elim) ?_)
      (fun path => ?_) fun _ => id
    · rintro p q ⟨rest, rfl, -⟩ (⟨i, c, rest', -, rfl, -⟩ | hq)
      · exact .of_rank_lt (by simp only [rank]; omega) _ _
      · exact hq.elim
    · -- the first item, or one of the others with its number one less
      simp only [or_false]
      constructor
      · rintro (⟨rest, rfl, hbad⟩ | ⟨i, c, rest, hc, rfl, hbad⟩)
        · exact ⟨0, v, rest, rfl, rfl, hbad⟩
        · exact ⟨i + 1, c, rest, hc, by rw [Nat.add_right_comm, Nat.add_assoc], hbad⟩
      · rintro ⟨i, c, rest, hc, rfl, hbad⟩
        cases i with
        | zero =>
          obtain rfl := Option.some.inj hc
          exact .inl ⟨rest, rfl, hbad⟩
        | succ i =>
          exact .inr ⟨i, c, rest, hc, by rw [Nat.add_right_comm, Nat.add_assoc], hbad⟩

/-- The path of children that are no list, or into one of them. -/
def BadChildren (entries : List (String × Value)) (BadOf : Value → List Step → Prop)
    (path : List Step) : Prop :=
  (path = [.key "children"] ∧
      ∃ v, Value.lookup entries "children" = some v ∧ ∀ items, v ≠ .list items) ∨
    ∃ items i c rest, Value.lookup entries "children" = some (.list items) ∧
      items[i]? = some c ∧ path = .key "children" :: .item i :: rest ∧ BadOf c rest

theorem BadChildren.head {path : List Step} (h : BadChildren entries BadOf path) :
    ∃ rest, path = .key "children" :: rest := by
  rcases h with ⟨rfl, -⟩ | ⟨items, i, c, rest, -, -, rfl, -⟩
  · exact ⟨_, rfl⟩
  · exact ⟨_, rfl⟩

/-- The children of an object. -/
theorem children_judged (h : ∀ v, Judged (read v) (BadOf v) (GoodOf v)) :
    Judged (readChildren read entries) (BadChildren entries BadOf)
      (List.Forall₂ GoodOf (listItems (Value.lookup entries "children"))) := by
  unfold readChildren BadChildren
  cases hlookup : Value.lookup entries "children" with
  | none => exact (Judged.pure .nil).mono (by simp) fun _ => id
  | some v =>
    by_cases hlist : ∃ items, v = .list items
    · obtain ⟨items, rfl⟩ := hlist
      refine ((items_judged h items 0).inside (.key "children")).mono (fun path => ?_)
        fun _ => id
      constructor
      · rintro ⟨rest, rfl, i, c, rest', hc, rfl, hbad⟩
        exact .inr ⟨items, i, c, rest', rfl, hc, by rw [Nat.zero_add], hbad⟩
      · rintro (⟨-, w, hw, hother⟩ | ⟨items', i, c, rest, hitems, hc, rfl, hbad⟩)
        · obtain rfl := Option.some.inj hw
          exact absurd rfl (hother items)
        · obtain rfl := Value.list.inj (Option.some.inj hitems)
          exact ⟨_, rfl, i, c, rest, hc, by rw [Nat.zero_add], hbad⟩
    · rw [not_exists] at hlist
      split
      next => simp_all
      next items heq => exact absurd (Option.some.inj heq) (hlist items)
      next =>
        refine ⟨by rintro a ⟨⟩, ?_⟩
        rintro p ⟨⟩
        refine ⟨.inl ⟨rfl, v, rfl, hlist⟩, ?_⟩
        rintro path (⟨rfl, -⟩ | ⟨items, i, c, rest, hitems, -⟩)
        · exact .refl _
        · exact absurd (Option.some.inj hitems) (hlist items)

end Children

/-- An entry that is there has a value it may not have. -/
def BadField (entries : List (String × Value)) (field : PlainField) (path : List Step) : Prop :=
  path = [.key field.key] ∧ ∃ v, Value.lookup entries field.key = some v ∧ ¬field.Accepts v

theorem BadField.head {field : PlainField} {path : List Step} (h : BadField entries field path) :
    ∃ rest, path = .key field.key :: rest := ⟨[], h.1⟩

theorem plain_judged {α : Type} (field : PlainField) (fallback : α)
    {read : Value → Schema.Read α} (haccepts : ∀ v, field.Accepts v ↔ ∃ a, read v = .ok a) :
    Judged (readDefaulted entries field.key fallback read) (BadField entries field)
      (fun a => (Value.lookup entries field.key = none ∧ a = fallback) ∨
        ∃ v, Value.lookup entries field.key = some v ∧ read v = .ok a) := by
  refine (Judged.readDefaulted fallback read).mono (fun path => ?_) fun _ => id
  simp [BadField, haccepts]

theorem text_ok_iff {v : Value} {s : String} : Schema.text v = .ok s ↔ v = .text s := by
  cases v <;> simp [Schema.text]

/-- The name of an object; null counts as none. -/
theorem name_judged :
    Judged (readDefaulted entries "name" none (Schema.optional Schema.text))
      (BadField entries .name) (fun name => name = Value.text? (Value.lookup entries "name")) := by
  have hok : ∀ v name, Schema.optional Schema.text v = .ok name ↔
      (v = .null ∨ ∃ s, v = .text s) ∧ name = Value.text? (some v) := by
    intro v name
    cases v <;> simp [Schema.optional, Schema.text, Value.text?, Except.map, eq_comm]
  refine (plain_judged .name none fun v => ?_).mono (fun _ => Iff.rfl) ?_
  · simp [PlainField.Accepts, hok]
  · rintro name (⟨hnone, rfl⟩ | ⟨v, hlookup, hread⟩)
    · rw [show Value.lookup entries "name" = none from hnone]
      rfl
    · rw [show Value.lookup entries "name" = some v from hlookup]
      exact ((hok v name).mp hread).2

/-- A text of an object; an absent one is empty. -/
theorem text_judged (field : PlainField) (h : ∀ v, field.Accepts v ↔ ∃ s, v = .text s) :
    Judged (readDefaulted entries field.key "" Schema.text) (BadField entries field)
      (fun s => s = (Value.text? (Value.lookup entries field.key)).getD "") := by
  refine (plain_judged field "" fun v => ?_).mono (fun _ => Iff.rfl) ?_
  · simp [h, text_ok_iff]
  · rintro s (⟨hnone, rfl⟩ | ⟨v, hlookup, hread⟩)
    · rw [hnone]
      rfl
    · rw [hlookup, text_ok_iff.mp hread]
      rfl

theorem attrs_judged :
    Judged (readDefaulted entries "attrs" [] readAttrs) (BadField entries .attrs)
      (fun attrs => attrs = tableEntries (Value.lookup entries "attrs")) := by
  have hok : ∀ v attrs, readAttrs v = .ok attrs ↔ v = .table attrs := by
    intro v attrs
    cases v <;> simp [readAttrs]
  refine (plain_judged .attrs [] fun v => ?_).mono (fun _ => Iff.rfl) ?_
  · simp [PlainField.Accepts, hok]
  · rintro attrs (⟨hnone, rfl⟩ | ⟨v, hlookup, hread⟩)
    · rw [show Value.lookup entries "attrs" = none from hnone]
      rfl
    · rw [show Value.lookup entries "attrs" = some v from hlookup, (hok v attrs).mp hread]
      rfl

theorem fields_judged (kind : NodeKind) (span : Span) (children : List Node) :
    Judged (readFields entries kind span children)
      (fun path => ∃ field, BadField entries field path)
      (fun n => (n.kind = kind ∧ n.span = span ∧ n.children = children) ∧
        ReadsFields entries n) := by
  refine Judged.mono (.bind name_judged (fun name hname =>
    .bind (text_judged .role fun _ => Iff.rfl) (fun role hrole =>
    .bind (text_judged .tag fun _ => Iff.rfl) (fun tag htag =>
    .bind attrs_judged (fun attrs hattrs =>
      .pure ⟨⟨rfl, rfl, rfl⟩, hname, rfl, hrole, htag, hattrs⟩) ?_) ?_) ?_) ?_) ?_ fun _ => id
  · exact fun p q _ hq => hq.elim
  · rintro p q hp (hq | hq)
    · exact .of_keys (by decide) hp.head hq.head
    · exact hq.elim
  · rintro p q hp (hq | hq | hq)
    · exact .of_keys (by decide) hp.head hq.head
    · exact .of_keys (by decide) hp.head hq.head
    · exact hq.elim
  · rintro p q hp (hq | hq | hq | hq)
    · exact .of_keys (by decide) hp.head hq.head
    · exact .of_keys (by decide) hp.head hq.head
    · exact .of_keys (by decide) hp.head hq.head
    · exact hq.elim
  · intro path
    simp only [or_false]
    constructor
    · rintro (h | h | h | h)
      · exact ⟨_, h⟩
      · exact ⟨_, h⟩
      · exact ⟨_, h⟩
      · exact ⟨_, h⟩
    · rintro ⟨field, h⟩
      cases field with
      | name => exact .inl h
      | role => exact .inr (.inl h)
      | tag => exact .inr (.inr (.inl h))
      | attrs => exact .inr (.inr (.inr h))

end Fields

/-! ## Trees -/

/-- The malformed paths of an object, field by field. -/
theorem malformed_table_iff {levels : Nat} {entries : List (String × Value)} {path : List Step} :
    Malformed (levels + 1) (.table entries) path ↔
      BadKind entries path ∨ BadSpan entries path ∨
        BadChildren entries (Malformed levels) path ∨ ∃ field, BadField entries field path := by
  constructor
  · intro h
    cases h with
    | object hother => exact absurd rfl (hother entries)
    | kind hkind => exact .inl ⟨rfl, hkind⟩
    | span hspan => exact .inr (.inl (.inl ⟨rfl, hspan⟩))
    | place hspan hkey hplace => exact .inr (.inl (.inr ⟨_, _, hspan, hkey, rfl, hplace⟩))
    | children hchildren hother =>
      exact .inr (.inr (.inl (.inl ⟨rfl, _, hchildren, hother⟩)))
    | child hchildren hitem hbad =>
      exact .inr (.inr (.inl (.inr ⟨_, _, _, _, hchildren, hitem, rfl, hbad⟩)))
    | plain hfield hbad => exact .inr (.inr (.inr ⟨_, rfl, _, hfield, hbad⟩))
  · rintro (⟨rfl, hkind⟩ | (⟨rfl, hspan⟩ | ⟨inner, key, hspan, hkey, rfl, hplace⟩) |
      (⟨rfl, v, hchildren, hother⟩ | ⟨items, i, c, rest, hchildren, hitem, rfl, hbad⟩) |
      ⟨field, rfl, v, hfield, hbad⟩)
    · exact .kind hkind
    · exact .span hspan
    · exact .place hspan hkey hplace
    · exact .children hchildren hother
    · exact .child hchildren hitem hbad
    · exact .plain hfield hbad

/-- An object of a tree is read as a whole node or refused at its first malformed field. -/
theorem readNode_judged (levels : Nat) (v : Value) :
    Judged (readNode levels v) (Malformed levels v) (Mirrors v) := by
  induction levels generalizing v with
  | zero =>
    rw [readNode]
    refine ⟨by rintro a ⟨⟩, ?_⟩
    rintro p ⟨⟩
    refine ⟨.tooDeep, ?_⟩
    rintro path ⟨⟩
    exact .refl _
  | succ levels ih =>
    by_cases htable : ∃ entries, v = .table entries
    · obtain ⟨entries, rfl⟩ := htable
      rw [readNode]
      refine Judged.mono (.bind kind_judged (fun kind hkind =>
        .bind span_judged (fun span hspan =>
        .bind (children_judged ih) (fun children hchildren =>
        (fields_judged kind span children).mono (fun _ => Iff.rfl) ?_) ?_) ?_) ?_)
        (fun _ => malformed_table_iff.symm) fun _ => id
      · rintro n ⟨⟨rfl, rfl, rfl⟩, hfields⟩
        obtain ⟨inner, hinner, hplaces⟩ := hspan
        exact .node hkind hinner hplaces hchildren hfields
      · rintro p q hp ⟨field, hq⟩
        exact .of_keys (by cases field <;> decide) hp.head hq.head
      · rintro p q hp (hq | ⟨field, hq⟩)
        · exact .of_keys (by decide) hp.head hq.head
        · exact .of_keys (by cases field <;> decide) hp.head hq.head
      · rintro p q hp (hq | hq | ⟨field, hq⟩)
        · exact .of_keys (by decide) hp.head hq.head
        · exact .of_keys (by decide) hp.head hq.head
        · exact .of_keys (by cases field <;> decide) hp.head hq.head
    · have hother : readNode (levels + 1) v = .error ⟨[], .notModel "_RawNode"⟩ := by
        rw [readNode.eq_def]
        cases v with
        | table entries => exact absurd ⟨entries, rfl⟩ htable
        | _ => rfl
      rw [hother]
      refine ⟨by rintro a ⟨⟩, ?_⟩
      rintro p ⟨⟩
      exact ⟨.object (not_exists.mp htable), fun path _ => trivial⟩

/-- Objects are well formed and not nested too deeply if no field is malformed. -/
theorem wellFormed_of_none {levels : Nat} {v : Value} (h : ∀ path, ¬Malformed levels v path) :
    WellFormed v ∧ Nested levels v := by
  induction levels generalizing v with
  | zero => exact absurd .tooDeep (h [])
  | succ levels ih =>
    have htable : ∃ entries, v = .table entries := by
      by_contra hother
      exact h [] (.object (not_exists.mp hother))
    obtain ⟨entries, rfl⟩ := htable
    have hspan : ∃ inner, Value.lookup entries "span" = some (.table inner) := by
      by_contra hother
      exact h _ (.span (not_exists.mp hother))
    obtain ⟨inner, hinner⟩ := hspan
    have hbelow : ∀ items, Value.lookup entries "children" = some (.list items) →
        ∀ c ∈ items, WellFormed c ∧ Nested levels c := by
      intro items hitems c hc
      obtain ⟨i, hi⟩ := List.mem_iff_getElem?.mp hc
      exact ih fun path hpath => h _ (.child hitems hi hpath)
    refine ⟨.node ?_ hinner ?_ ?_ ?_ ?_, .node fun items hitems c hc => (hbelow items hitems c hc).2⟩
    · by_contra hkind
      exact h _ (.kind hkind)
    · intro key hkey
      by_contra hplace
      exact h _ (.place hinner hkey hplace)
    · intro w hw
      by_contra hother
      exact h _ (.children hw (not_exists.mp hother))
    · exact fun items hitems c hc => (hbelow items hitems c hc).1
    · intro field w hw
      by_contra hbad
      exact h _ (.plain hw hbad)

/-- No field of such objects is malformed. -/
theorem WellFormed.none {levels : Nat} {v : Value} (h : WellFormed v) (hnested : Nested levels v)
    (path : List Step) : ¬Malformed levels v path := by
  intro hbad
  induction hbad with
  | tooDeep => cases hnested
  | object hother =>
    cases h
    exact hother _ rfl
  | kind hkind =>
    cases h with
    | node hk => exact hkind hk
  | span hspan =>
    cases h with
    | node _ hs => exact hspan _ hs
  | place hspan hkey hplace =>
    cases h with
    | node _ hs hplaces =>
      obtain rfl := Value.table.inj (Option.some.inj (hspan.symm.trans hs))
      exact hplace (hplaces _ hkey)
  | children hchildren hother =>
    cases h with
    | node _ _ _ hlist =>
      obtain ⟨items, rfl⟩ := hlist _ hchildren
      exact hother items rfl
  | child hchildren hitem _ ih =>
    have hmem := List.mem_of_getElem? hitem
    cases h with
    | node _ _ _ _ hbelow =>
      cases hnested with
      | node hdeep => exact ih (hbelow _ hchildren _ hmem) (hdeep _ hchildren _ hmem)
  | plain hfield hbad =>
    cases h with
    | node _ _ _ _ _ hplain => exact hbad (hplain _ _ hfield)

/-! ### Places in words -/

/-- A malformed path is that of the whole value, or it begins with a field of an object. -/
theorem Malformed.head {levels : Nat} {v : Value} {path : List Step}
    (h : Malformed (levels + 1) v path) :
    (path = [] ∧ ∀ entries, v ≠ .table entries) ∨
      (∃ entries, v = .table entries) ∧ ∃ key ∈ fieldOrder, ∃ rest, path = .key key :: rest := by
  by_cases htable : ∃ entries, v = .table entries
  · obtain ⟨entries, rfl⟩ := htable
    refine .inr ⟨⟨entries, rfl⟩, ?_⟩
    rcases malformed_table_iff.mp h with h | h | h | ⟨field, h⟩
    · exact ⟨_, by decide, h.head⟩
    · exact ⟨_, by decide, h.head⟩
    · exact ⟨_, by decide, h.head⟩
    · exact ⟨_, by cases field <;> decide, h.head⟩
  · rw [not_exists] at htable
    cases h with
    | object hother => exact .inl ⟨rfl, hother⟩
    | _ => exact absurd rfl (htable _)

theorem displayPath_key_ne {key : String} (hkey : key ≠ "") (rest : List Step) :
    Schema.displayPath (.key key :: rest) ≠ "" := by
  cases rest with
  | nil => simpa [Schema.displayPath, Step.display] using hkey
  | cons step rest =>
    simp [Schema.displayPath, Step.display, String.intercalate_cons_cons, hkey]

/-- The text of a problem names the whole value as the root. -/
theorem problemMessage_of_malformed {levels : Nat} {v : Value} {p : Problem}
    (h : Malformed (levels + 1) v p.path) :
    problemMessage p = "Malformed node: " ++ p.cause.message ++ " (at " ++
      (if p.path = [] then "<root>" else Schema.displayPath p.path) ++ ")" := by
  unfold problemMessage
  dsimp only
  rcases h.head with ⟨hpath, -⟩ | ⟨-, key, hkey, rest, hpath⟩
  · rw [hpath]
    rfl
  · have hne : key ≠ "" := by
      rintro rfl
      revert hkey
      decide
    have hplace := displayPath_key_ne hne rest
    simp [hpath, hplace]

end Node

/-- A value is read as a tree just if it is well formed and nested at most `depthLimit` levels deep.
    The tree then has one node for each object. Any other value is refused at the first of its
    malformed fields, or as a whole if it is no object. -/
theorem ofValue_accepts_wellFormed (v : Value) :
    ((∃ n, Node.ofValue v = .ok n) ↔ Node.WellFormed v ∧ Node.Nested Node.depthLimit v) ∧
    (∀ n, Node.ofValue v = .ok n → Node.Mirrors v n) ∧
    ∀ p, Node.ofValue v = .error p →
      (Node.Malformed Node.depthLimit v p.path ∧
        ∀ path, Node.Malformed Node.depthLimit v path → Node.NoLater p.path path) ∧
      (p.path = [] ↔ ∀ entries, v ≠ .table entries) ∧
      Node.problemMessage p = "Malformed node: " ++ p.cause.message ++ " (at " ++
        (if p.path = [] then "<root>" else Schema.displayPath p.path) ++ ")" := by
  have hjudged := Node.readNode_judged Node.depthLimit v
  refine ⟨⟨?_, ?_⟩, fun n hn => (hjudged.ok n hn).1, fun p hp => ?_⟩
  · rintro ⟨n, hn⟩
    exact Node.wellFormed_of_none (hjudged.ok n hn).2
  · rintro ⟨hformed, hnested⟩
    cases hread : Node.ofValue v with
    | ok n => exact ⟨n, rfl⟩
    | error p => exact absurd (hjudged.error p hread).1 (hformed.none hnested p.path)
  · obtain ⟨hbad, hfirst⟩ := hjudged.error p hp
    refine ⟨⟨hbad, hfirst⟩, ?_, Node.problemMessage_of_malformed hbad⟩
    rcases hbad.head with ⟨hpath, hother⟩ | ⟨⟨entries, rfl⟩, key, -, rest, hpath⟩
    · exact ⟨fun _ => hother, fun _ => hpath⟩
    · simp [hpath]

/-! ### Values nested too deeply -/

/-- An object with so many others nested in it, one in the other. -/
def nest : Nat → Value
  | 0 => .table [("kind", .text "other"), ("span", Node.spanValue ⟨1, 1, 1, 2⟩)]
  | n + 1 => .table [("kind", .text "other"), ("span", Node.spanValue ⟨1, 1, 1, 2⟩),
      ("children", .list [nest n])]

theorem nest_wellFormed (n : Nat) : Node.WellFormed (nest n) := by
  have hplaces : ∀ key ∈ Node.spanKeys, Node.HasPlace
      [("start_line", .int 1), ("start_column", .int 1), ("end_line", .int 1),
        ("end_column", .int 2)] key := by
    intro key hkey
    simp only [Node.spanKeys, List.mem_cons, List.not_mem_nil, or_false] at hkey
    rcases hkey with rfl | rfl | rfl | rfl
    · exact ⟨.int 1, rfl, 1, rfl, by omega⟩
    · exact ⟨.int 1, rfl, 1, rfl, by omega⟩
    · exact ⟨.int 1, rfl, 1, rfl, by omega⟩
    · exact ⟨.int 2, rfl, 2, rfl, by omega⟩
  induction n with
  | zero =>
    refine .node ⟨.other, rfl⟩ rfl hplaces (by rintro v ⟨⟩) (by rintro items ⟨⟩) ?_
    intro field v hv
    cases field <;> cases hv
  | succ n ih =>
    refine .node ⟨.other, rfl⟩ rfl hplaces ?_ ?_ ?_
    · rintro v ⟨⟩
      exact ⟨_, rfl⟩
    · rintro items ⟨⟩ c hc
      obtain rfl := List.mem_singleton.mp hc
      exact ih
    · intro field v hv
      cases field <;> cases hv

theorem nest_nested_iff {n levels : Nat} : Node.Nested levels (nest n) ↔ n < levels := by
  induction n generalizing levels with
  | zero =>
    constructor
    · rintro ⟨-⟩
      omega
    · intro h
      obtain ⟨k, rfl⟩ := Nat.exists_eq_add_of_lt h
      exact .node (by rintro items ⟨⟩)
  | succ n ih =>
    constructor
    · rintro ⟨hbelow⟩
      have := ih.mp (hbelow [nest n] rfl (nest n) (by simp))
      omega
    · intro h
      obtain ⟨k, rfl⟩ := Nat.exists_eq_add_of_lt h
      refine .node ?_
      rintro items ⟨⟩ c hc
      obtain rfl := List.mem_singleton.mp hc
      exact ih.mpr (by omega)

/-- A well-formed value of 256 objects, one in the other, is refused. -/
theorem deep_nest_refused :
    Node.WellFormed (nest 255) ∧ ¬∃ n, Node.ofValue (nest 255) = .ok n := by
  refine ⟨nest_wellFormed 255, ?_⟩
  rintro ⟨n, hn⟩
  have hnone := ((Node.readNode_judged Node.depthLimit (nest 255)).ok n hn).2
  have hnested := nest_nested_iff.mp (Node.wellFormed_of_none hnone).2
  exact absurd hnested (by decide)

end Framewise
