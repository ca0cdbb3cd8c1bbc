import Lisplet.Proofs.SingleSweep
import Mathlib.Data.List.Basic

/-!
# Malformed lists

Lists that begin with a word of arithmetic, with `defvar` or with `defun` can be malformed.
`Malformed` says when they are and how that is catalogued. `malformation` is the fault of a
list, found without desugaring what is inside of it.
-/

namespace Lisplet

/-- The words that announce arithmetic. -/
def arithmeticWords : List String :=
  ["sum", "+", "mul", "*"]

/-- What each word announces. -/
theorem Head.ofName_cases (word : String) :
    (word ∈ arithmeticWords ∧ ∃ operator, Head.ofName word = .arithmetic operator) ∨
    (word = "defvar" ∧ Head.ofName word = .variableDef) ∨
    (word = "defun" ∧ Head.ofName word = .functionDef) ∨
    (word ∉ arithmeticWords ∧ word ≠ "defvar" ∧ word ≠ "defun" ∧ Head.ofName word = .call) := by
  by_cases isArithmetic : word ∈ arithmeticWords
  · refine .inl ⟨isArithmetic, ?_⟩
    simp only [arithmeticWords, List.mem_cons, List.not_mem_nil, or_false] at isArithmetic
    rcases isArithmetic with rfl | rfl | rfl | rfl
    · exact ⟨.sum, rfl⟩
    · exact ⟨.sum, rfl⟩
    · exact ⟨.mul, rfl⟩
    · exact ⟨.mul, rfl⟩
  · have noOperator : Operator.ofWord? word = none := by
      simp only [arithmeticWords, List.mem_cons, List.not_mem_nil, or_false, not_or] at isArithmetic
      simp [Operator.ofWord?, Operator.name, Operator.sign, isArithmetic]
    by_cases isVariable : word = "defvar"
    · subst isVariable
      exact .inr (.inl ⟨rfl, rfl⟩)
    by_cases isFunction : word = "defun"
    · subst isFunction
      exact .inr (.inr (.inl ⟨rfl, rfl⟩))
    refine .inr (.inr (.inr ⟨isArithmetic, isVariable, isFunction, ?_⟩))
    rw [Head.ofName, noOperator]
    simp [isVariable, isFunction]

namespace Expr

/-- Why a node cannot be the prototype of a function, if it cannot. -/
def prototypeMalformation : Expr → Option DesugarFault
  | list span items =>
    match items.find? fun item => item.identifierName?.isNone with
    | some item => some (.prototypeItem item.describe item.span span)
    | none => if items.isEmpty then some (.prototypeEmpty span) else none
  | other => some (.prototypeNotList other.describe other.span)

/-- Why operands do not define a variable, if they do not. -/
def variableMalformation (span : Span) : List Expr → Option DesugarFault
  | [name, _] =>
    if name.identifierName?.isNone then some (.variableName name.describe name.span) else none
  | operands => some (.variableArguments operands.length span)

/-- Why operands do not define a function, if they do not. -/
def functionMalformation (span : Span) : List Expr → Option DesugarFault
  | [prototype, _] => prototype.prototypeMalformation
  | operands => some (.functionArguments operands.length span)

/-- Why a list is malformed, if it is. -/
def malformation : Expr → Option DesugarFault
  | list span (identifier _ word :: operands) =>
    if word ∈ arithmeticWords then
      if operands.length < 2 then some (.missingOperands word operands.length span) else none
    else if word = "defvar" then variableMalformation span operands
    else if word = "defun" then functionMalformation span operands
    else none
  | _ => none

/-- Only an identifier has a name. -/
theorem eq_identifier_of_locatedName? {expr : Expr} {name : Located String}
    (named : expr.locatedName? = some name) : expr = identifier name.span name.value := by
  cases expr <;> cases named
  rfl

/-- The names of a prototype are read unless one of its items is no identifier; the first
such item is reported. -/
theorem prototypeNames_eq (span : Span) (items : List Expr) :
    prototypeNames span items =
      match items.find? fun item => item.identifierName?.isNone with
      | some item => .error (.prototypeItem item.describe item.span span)
      | none => .ok (items.filterMap locatedName?) := by
  induction items with
  | nil => rfl
  | cons first others inductionHypothesis =>
    rw [prototypeNames]
    cases named : first.locatedName? with
    | none => simp [identifierName?_eq_none_iff.2 named]
    | some name =>
      obtain rfl := eq_identifier_of_locatedName? named
      rw [inductionHypothesis, List.find?_cons_of_neg (by simp [identifierName?])]
      cases others.find? fun item => item.identifierName?.isNone <;> simp [named]

/-- A prototype is read exactly if nothing is wrong with it. -/
theorem prototypeMalformation_eq (expr : Expr) :
    expr.prototypeMalformation =
      match Prototype.ofExpr expr with
      | .error cause => some cause
      | .ok _ => none := by
  cases expr with
  | list span items =>
    rw [prototypeMalformation, Prototype.ofExpr, prototypeNames_eq]
    cases found : items.find? fun item => item.identifierName?.isNone with
    | some item => rfl
    | none =>
      cases items with
      | nil => rfl
      | cons first others =>
        have isIdentifier := List.find?_eq_none.1 found first List.mem_cons_self
        cases first with
        | identifier => rfl
        | number | text | list | arithmetic | variableDef | functionDef | call =>
          exact absurd rfl isIdentifier
  | identifier | number | text | arithmetic | variableDef | functionDef | call => rfl

/-- A prototype is a list of identifiers, at least of one for the name of the function. -/
def IsPrototype : Expr → Prop
  | list _ items => items ≠ [] ∧ ∀ item ∈ items, item.identifierName?.isSome
  | _ => False

/-- A list that begins with an identifier is malformed, and how that is catalogued. -/
inductive Malformed : Expr → Code → Prop where
  | operands {span place : Span} {word : String} {operands : List Expr}
      (isArithmetic : word ∈ arithmeticWords) (few : operands.length < 2) :
      Malformed (list span (identifier place word :: operands)) .missingOperands
  | variableArguments {span place : Span} {word : String} {operands : List Expr}
      (isVariable : word = "defvar") (count : operands.length ≠ 2) :
      Malformed (list span (identifier place word :: operands)) .malformedVariable
  | variableName {span place : Span} {word : String} {nameItem initializer : Expr}
      (isVariable : word = "defvar") (notIdentifier : nameItem.identifierName? = none) :
      Malformed (list span [identifier place word, nameItem, initializer]) .malformedVariable
  | functionArguments {span place : Span} {word : String} {operands : List Expr}
      (isFunction : word = "defun") (count : operands.length ≠ 2) :
      Malformed (list span (identifier place word :: operands)) .malformedFunction
  | prototype {span place : Span} {word : String} {prototypeItem body : Expr}
      (isFunction : word = "defun") (notPrototype : ¬ prototypeItem.IsPrototype) :
      Malformed (list span [identifier place word, prototypeItem, body]) .malformedPrototype

/-- The definition of a variable has two operands. -/
theorem variableMalformation_of_length_ne {span : Span} {operands : List Expr}
    (count : operands.length ≠ 2) :
    variableMalformation span operands = some (.variableArguments operands.length span) := by
  unfold variableMalformation
  split
  · exact absurd rfl count
  · rfl

/-- The definition of a function has two operands. -/
theorem functionMalformation_of_length_ne {span : Span} {operands : List Expr}
    (count : operands.length ≠ 2) :
    functionMalformation span operands = some (.functionArguments operands.length span) := by
  unfold functionMalformation
  split
  · exact absurd rfl count
  · rfl

/-- Something is wrong with every node that is no prototype, and it is catalogued as that. -/
theorem prototypeMalformation_cases (expr : Expr) :
    (expr.IsPrototype ∧ expr.prototypeMalformation = none) ∨
    (¬ expr.IsPrototype ∧ ∃ cause, expr.prototypeMalformation = some cause ∧
      cause.diagnostic.code = some .malformedPrototype) := by
  cases expr with
  | list span items =>
    rw [IsPrototype, prototypeMalformation]
    cases found : items.find? fun item => item.identifierName?.isNone with
    | some item =>
      refine .inr ⟨?_, _, rfl, rfl⟩
      rintro ⟨-, identifiers⟩
      have isIdentifier := identifiers item (List.mem_of_find?_eq_some found)
      have notIdentifier := List.find?_some found
      rw [Option.isNone_iff_eq_none.1 notIdentifier] at isIdentifier
      cases isIdentifier
    | none =>
      have identifiers : ∀ item ∈ items, item.identifierName?.isSome := by
        simpa [List.find?_eq_none, Option.isSome_iff_ne_none] using found
      cases items with
      | nil => exact .inr ⟨fun isPrototype => isPrototype.1 rfl, _, rfl, rfl⟩
      | cons first others => exact .inl ⟨⟨List.cons_ne_nil _ _, identifiers⟩, rfl⟩
  | identifier | number | text | arithmetic | variableDef | functionDef | call =>
    exact .inr ⟨id, _, rfl, rfl⟩

/-- The fault of a malformed list is catalogued for what is wrong with the list. -/
theorem Malformed.exists_malformation {expr : Expr} {code : Code}
    (malformed : expr.Malformed code) :
    ∃ cause, expr.malformation = some cause ∧ cause.diagnostic.code = some code := by
  cases malformed with
  | operands isArithmetic few =>
    exact ⟨.missingOperands _ _ _, by rw [malformation, if_pos isArithmetic, if_pos few], rfl⟩
  | variableArguments isVariable count =>
    subst isVariable
    exact ⟨.variableArguments _ _, variableMalformation_of_length_ne count, rfl⟩
  | variableName isVariable notIdentifier =>
    subst isVariable
    exact ⟨.variableName _ _, if_pos (Option.isNone_iff_eq_none.2 notIdentifier), rfl⟩
  | functionArguments isFunction count =>
    subst isFunction
    exact ⟨.functionArguments _ _, functionMalformation_of_length_ne count, rfl⟩
  | @prototype _ _ _ prototypeItem _ isFunction notPrototype =>
    subst isFunction
    rcases prototypeItem.prototypeMalformation_cases with ⟨isPrototype, -⟩ | ⟨-, wrong⟩
    · exact absurd isPrototype notPrototype
    · exact wrong

section Operands

variable {span : Span} {operands : List Expr} {cause : DesugarFault} (place : Span)

/-- A definition of a variable that is refused is malformed. -/
theorem malformed_of_variableMalformation
    (wrong : variableMalformation span operands = some cause) :
    ∃ code, (list span (identifier place "defvar" :: operands)).Malformed code := by
  by_cases count : operands.length = 2
  · obtain ⟨nameItem, initializer, rfl⟩ := List.length_eq_two.1 count
    rw [variableMalformation] at wrong
    split at wrong
    next notIdentifier => exact ⟨_, .variableName rfl (Option.isNone_iff_eq_none.1 notIdentifier)⟩
    next => cases wrong
  · exact ⟨_, .variableArguments rfl count⟩

/-- A definition of a function that is refused is malformed. -/
theorem malformed_of_functionMalformation
    (wrong : functionMalformation span operands = some cause) :
    ∃ code, (list span (identifier place "defun" :: operands)).Malformed code := by
  by_cases count : operands.length = 2
  · obtain ⟨prototypeItem, body, rfl⟩ := List.length_eq_two.1 count
    rw [functionMalformation] at wrong
    rcases prototypeItem.prototypeMalformation_cases with ⟨-, sound⟩ | ⟨notPrototype, -⟩
    · rw [sound] at wrong
      cases wrong
    · exact ⟨_, .prototype rfl notPrototype⟩
  · exact ⟨_, .functionArguments rfl count⟩

end Operands

/-- A list with something wrong is malformed in one of the ways that are catalogued. -/
theorem exists_malformed {expr : Expr} {cause : DesugarFault}
    (wrong : expr.malformation = some cause) : ∃ code, expr.Malformed code := by
  unfold malformation at wrong
  split at wrong
  next span place word operands =>
    rcases Head.ofName_cases word with ⟨isArithmetic, -⟩ | ⟨rfl, -⟩ | ⟨rfl, -⟩ |
      ⟨notArithmetic, notVariable, notFunction, -⟩
    · rw [if_pos isArithmetic] at wrong
      split at wrong
      next few => exact ⟨_, .operands isArithmetic few⟩
      next => cases wrong
    · exact malformed_of_variableMalformation place wrong
    · exact malformed_of_functionMalformation place wrong
    · rw [if_neg notArithmetic, if_neg notVariable, if_neg notFunction] at wrong
      cases wrong
  next => cases wrong

/-- Nothing is wrong with a list exactly if it is malformed in none of the ways. -/
theorem malformation_eq_none_iff {expr : Expr} :
    expr.malformation = none ↔ ∀ code, ¬ expr.Malformed code := by
  constructor
  · intro sound code malformed
    obtain ⟨cause, wrong, -⟩ := malformed.exists_malformation
    rw [sound] at wrong
    cases wrong
  · intro sound
    cases wrong : expr.malformation with
    | none => rfl
    | some cause =>
      obtain ⟨code, malformed⟩ := exists_malformed wrong
      exact absurd malformed (sound code)

end Expr

end Lisplet
