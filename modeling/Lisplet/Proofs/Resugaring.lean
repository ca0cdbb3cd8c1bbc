import Lisplet.Proofs.MalformedLists

/-!
# Back from trees to lists

Desugaring loses nothing but the operands that arithmetic ignores. A desugared tree is
`resugared` by turning each node that stands for a list back into that list. The outcome is
the tree as read, `abridged`: the signs of operators are read as their names, and ignored
operands are left out. A node does not keep the place of the word that announced it, so on
both sides this word stands at the place of its list.
-/

namespace Lisplet

/-- A prototype as the list that it was read from. -/
def Prototype.toExpr (prototype : Prototype) : Expr :=
  .list prototype.span
    ((prototype.name :: prototype.params).map fun name => .identifier name.span name.value)

/-- The name of the operator that a word announces, if it announces one by its sign. -/
def operatorName (word : String) : String :=
  if word = "+" then "sum" else if word = "*" then "mul" else word

/-- Arithmetic is announced by the name of its operator or by its sign. -/
theorem Head.operatorName_of_ofName {word : String} {operator : Operator}
    (announced : Head.ofName word = .arithmetic operator) :
    word ∈ arithmeticWords ∧ operator.name = operatorName word := by
  rcases Head.ofName_cases word with ⟨isArithmetic, -⟩ | ⟨-, other⟩ | ⟨-, other⟩ | ⟨-, -, -, other⟩
  · refine ⟨isArithmetic, ?_⟩
    simp only [arithmeticWords, List.mem_cons, List.not_mem_nil, or_false] at isArithmetic
    rcases isArithmetic with rfl | rfl | rfl | rfl <;> cases announced <;> rfl
  all_goals
    rw [other] at announced
    cases announced

/-- The items of a prototype list are the names that are read from it. -/
theorem eq_map_of_prototypeNames {span : Span} {items : List Expr} {names : List (Located String)}
    (read : prototypeNames span items = .ok names) :
    items = names.map fun name => .identifier name.span name.value := by
  induction items generalizing names with
  | nil =>
    cases read
    rfl
  | cons item rest inductionHypothesis =>
    rw [prototypeNames] at read
    split at read
    · cases read
    next name isIdentifier =>
      split at read
      · cases read
      next others readRest =>
        cases read
        rw [List.map_cons, ← inductionHypothesis readRest,
          ← Expr.eq_identifier_of_locatedName? isIdentifier]

/-- A prototype is the list that it was read from. -/
theorem Prototype.eq_toExpr_of_ofExpr {expr : Expr} {prototype : Prototype}
    (isPrototype : Prototype.ofExpr expr = .ok prototype) : expr = prototype.toExpr := by
  unfold Prototype.ofExpr at isPrototype
  split at isPrototype
  next span items =>
    split at isPrototype
    · cases isPrototype
    · cases isPrototype
    next name params read =>
      cases isPrototype
      rw [eq_map_of_prototypeNames read, Prototype.toExpr]
  next => cases isPrototype

namespace Expr

mutual

/-- A tree with every node turned back into the list that it stands for. -/
def resugared : Expr → Expr
  | identifier span name => identifier span name
  | number span value => number span value
  | text span body => text span body
  | list span items => list span (resugaredAll items)
  | arithmetic span operator left right =>
    list span [identifier span operator.name, resugared left, resugared right]
  | variableDef span name initializer =>
    list span [identifier span "defvar", identifier name.span name.value, resugared initializer]
  | functionDef span prototype body =>
    list span [identifier span "defun", prototype.toExpr, resugared body]
  | call span callee arguments =>
    list span (identifier callee.span callee.value :: resugaredAll arguments)

/-- Trees with every node turned back into the list that it stands for. -/
def resugaredAll : List Expr → List Expr
  | [] => []
  | first :: others => resugared first :: resugaredAll others

end

mutual

/-- A tree as read, with the signs of operators read as their names and without the operands
that arithmetic ignores. Nothing is changed in the prototypes of functions. -/
def abridged : Expr → Expr
  | list span (identifier place word :: operands) =>
    if word ∈ arithmeticWords then
      list span (identifier span (operatorName word) :: (abridgedAll operands).take 2)
    else if word = "defvar" then
      list span (identifier span word :: abridgedAll operands)
    else if word = "defun" then
      list span (identifier span word :: (operands.take 1 ++ (abridgedAll operands).drop 1))
    else
      list span (identifier place word :: abridgedAll operands)
  | list span items => list span (abridgedAll items)
  | other => other

/-- Trees as read, without the operands that arithmetic ignores. -/
def abridgedAll : List Expr → List Expr
  | [] => []
  | first :: others => abridged first :: abridgedAll others

end

/-- The names in a prototype list after that of the function. -/
def parameterNames : Expr → List (Located String)
  | list _ items => (items.drop 1).filterMap locatedName?
  | _ => []

mutual

/-- The identifiers of a tree that are not the head of a list, from left to right. Those in
operands that arithmetic ignores are left out. -/
def operandNames : Expr → List (Located String)
  | identifier span name => [⟨name, span⟩]
  | number _ _ => []
  | text _ _ => []
  | list _ (identifier _ word :: operands) =>
    if word ∈ arithmeticWords then
      ((operandNamesEach operands).take 2).flatten
    else if word = "defun" then
      (operands.take 1).flatMap parameterNames ++ ((operandNamesEach operands).drop 1).flatten
    else
      (operandNamesEach operands).flatten
  | list _ items => (operandNamesEach items).flatten
  | arithmetic _ _ left right => operandNames left ++ operandNames right
  | variableDef _ name initializer => name :: operandNames initializer
  | functionDef _ prototype body => prototype.params ++ operandNames body
  | call _ _ arguments => (operandNamesEach arguments).flatten

/-- The identifiers of each of some trees that are not the head of a list. -/
def operandNamesEach : List Expr → List (List (Located String))
  | [] => []
  | first :: others => operandNames first :: operandNamesEach others

end

/-- The parameters of a prototype are read off the list that spells it. -/
theorem parameterNames_toExpr (prototype : Prototype) :
    prototype.toExpr.parameterNames = prototype.params := by
  rw [Prototype.toExpr, parameterNames, List.map_cons, List.drop_one, List.tail_cons,
    List.filterMap_map]
  exact List.filterMap_some

/-- A tree as read from tokens: atoms and lists, and nothing that desugaring makes. -/
inductive IsPlain : Expr → Prop where
  | identifier (span : Span) (name : String) : IsPlain (identifier span name)
  | number (span : Span) (value : Int64) : IsPlain (number span value)
  | text (span : Span) (body : String) : IsPlain (text span body)
  | list (span : Span) {items : List Expr} (plain : ∀ item ∈ items, item.IsPlain) :
      IsPlain (list span items)

/-- A list is plain if its items are. -/
theorem isPlain_list_iff {span : Span} {items : List Expr} :
    (list span items).IsPlain ↔ ∀ item ∈ items, item.IsPlain := by
  constructor
  · rintro ⟨⟩
    assumption
  · exact IsPlain.list span

/-- Trees are resugared one by one. -/
theorem resugaredAll_eq_map (exprs : List Expr) : resugaredAll exprs = exprs.map resugared := by
  induction exprs with
  | nil => rfl
  | cons first others inductionHypothesis => rw [resugaredAll, inductionHypothesis, List.map_cons]

/-- Trees are abridged one by one. -/
theorem abridgedAll_eq_map (exprs : List Expr) : abridgedAll exprs = exprs.map abridged := by
  induction exprs with
  | nil => rfl
  | cons first others inductionHypothesis => rw [abridgedAll, inductionHypothesis, List.map_cons]

/-- The names of operands are collected tree by tree. -/
theorem operandNamesEach_eq_map (exprs : List Expr) :
    operandNamesEach exprs = exprs.map operandNames := by
  induction exprs with
  | nil => rfl
  | cons first others inductionHypothesis =>
    rw [operandNamesEach, inductionHypothesis, List.map_cons]

/-- A tree that desugaring arrives at gives back the tree as read, and has its identifiers. -/
structure Restores (expr swept : Expr) : Prop where
  lists : swept.resugared = expr.abridged
  names : swept.operandNames = expr.operandNames

/-- The same for some trees, one after another. -/
structure RestoresAll (exprs swept : List Expr) : Prop where
  lists : resugaredAll swept = abridgedAll exprs
  names : operandNamesEach swept = operandNamesEach exprs

/-- Trees are restored one by one. -/
theorem Restores.cons {first sweptFirst : Expr} {others sweptOthers : List Expr}
    (firstRestored : first.Restores sweptFirst) (othersRestored : RestoresAll others sweptOthers) :
    RestoresAll (first :: others) (sweptFirst :: sweptOthers) where
  lists := by
    rw [resugaredAll, abridgedAll, firstRestored.lists, othersRestored.lists]
  names := by
    rw [operandNamesEach, operandNamesEach, firstRestored.names, othersRestored.names]

/-- Resugaring neither makes nor changes an identifier. -/
theorem locatedName?_resugared (expr : Expr) :
    expr.resugared.locatedName? = expr.locatedName? := by
  cases expr <;> rfl

/-- Abridging neither makes nor changes an identifier. -/
theorem locatedName?_abridged (expr : Expr) : expr.abridged.locatedName? = expr.locatedName? := by
  fun_cases abridged expr <;> rfl

/-- A tree is an identifier exactly if it gives one back. -/
theorem Restores.locatedName?_eq {expr swept : Expr} (restored : expr.Restores swept) :
    swept.locatedName? = expr.locatedName? := by
  rw [← locatedName?_resugared, restored.lists, locatedName?_abridged]

section NotIdentifier

variable {first : Expr} (notIdentifier : first.locatedName? = none) (span : Span)
  (operands : List Expr)

include notIdentifier

/-- A list whose head is no name loses nothing but what its items lose. -/
theorem abridged_of_not_identifier :
    (list span (first :: operands)).abridged = list span (abridgedAll (first :: operands)) := by
  cases first with
  | identifier => cases notIdentifier
  | number | text | list | arithmetic | variableDef | functionDef | call => rfl

/-- A list whose head is no name has the names of operands that its items have. -/
theorem operandNames_of_not_identifier :
    (list span (first :: operands)).operandNames =
      (operandNamesEach (first :: operands)).flatten := by
  cases first with
  | identifier => cases notIdentifier
  | number | text | list | arithmetic | variableDef | functionDef | call => rfl

end NotIdentifier

section Lists

variable {word : String} {operands : List Expr} (span place : Span)

/-- A list that stands for nothing remains, with its items restored. -/
theorem restores_list {first sweptFirst : Expr} {sweptOperands : List Expr}
    (notIdentifier : first.locatedName? = none) (firstRestored : first.Restores sweptFirst)
    (operandsRestored : RestoresAll operands sweptOperands) :
    (list span (first :: operands)).Restores (list span (sweptFirst :: sweptOperands)) := by
  have restored := firstRestored.cons operandsRestored
  have sweptNotIdentifier := firstRestored.locatedName?_eq.trans notIdentifier
  constructor
  · rw [resugared, abridged_of_not_identifier notIdentifier, restored.lists]
  · rw [operandNames_of_not_identifier notIdentifier,
      operandNames_of_not_identifier sweptNotIdentifier, restored.names]

/-- Arithmetic gives back its list, with two operands. -/
theorem restores_arithmetic {operator : Operator} {left right sweptLeft sweptRight : Expr}
    (announced : Head.ofName word = .arithmetic operator) (leftRestored : left.Restores sweptLeft)
    (rightRestored : right.Restores sweptRight) (ignored : List Expr) :
    (list span (identifier place word :: left :: right :: ignored)).Restores
      (arithmetic span operator sweptLeft sweptRight) := by
  obtain ⟨isArithmetic, sameName⟩ := Head.operatorName_of_ofName announced
  constructor
  · rw [resugared, abridged, if_pos isArithmetic, sameName, leftRestored.lists,
      rightRestored.lists]
    rfl
  · rw [operandNames, operandNames, if_pos isArithmetic, leftRestored.names, rightRestored.names]
    simp [operandNamesEach]

/-- The definition of a variable gives back its list. -/
theorem restores_variableDef (name : Located String) {initializer swept : Expr}
    (restored : initializer.Restores swept) :
    (list span [identifier place "defvar", identifier name.span name.value, initializer]).Restores
      (variableDef span name swept) := by
  have notArithmetic : "defvar" ∉ arithmeticWords := by decide
  have notFunction : "defvar" ≠ "defun" := by decide
  constructor
  · rw [resugared, restored.lists, abridged, if_neg notArithmetic, if_pos rfl]
    rfl
  · rw [operandNames, operandNames, restored.names, if_neg notArithmetic, if_neg notFunction]
    simp [operandNamesEach, operandNames]

/-- The definition of a function gives back its list. -/
theorem restores_functionDef {prototypeItem body swept : Expr} {prototype : Prototype}
    (isPrototype : Prototype.ofExpr prototypeItem = .ok prototype)
    (restored : body.Restores swept) :
    (list span [identifier place "defun", prototypeItem, body]).Restores
      (functionDef span prototype swept) := by
  have notArithmetic : "defun" ∉ arithmeticWords := by decide
  have notVariable : "defun" ≠ "defvar" := by decide
  obtain rfl := Prototype.eq_toExpr_of_ofExpr isPrototype
  constructor
  · rw [resugared, restored.lists, abridged, if_neg notArithmetic, if_neg notVariable, if_pos rfl]
    rfl
  · rw [operandNames, operandNames, restored.names, if_neg notArithmetic, if_pos rfl]
    simp [operandNamesEach, parameterNames_toExpr]

/-- A call gives back its list. -/
theorem restores_call (notArithmetic : word ∉ arithmeticWords) (notVariable : word ≠ "defvar")
    (notFunction : word ≠ "defun") {swept : List Expr} (restored : RestoresAll operands swept) :
    (list span (identifier place word :: operands)).Restores (call span ⟨word, place⟩ swept) := by
  constructor
  · rw [resugared, abridged, if_neg notArithmetic, if_neg notVariable, if_neg notFunction,
      restored.lists]
  · rw [operandNames, operandNames, if_neg notArithmetic, if_neg notFunction, restored.names]

end Lists

mutual

/-- A sweep over a tree as read arrives at a tree that gives it back. -/
theorem yields_restores_sweep : (expr : Expr) → expr.IsPlain → expr.sweep.Yields expr.Restores
  | identifier _ _, _ | number _ _, _ | text _ _, _ => Sweep.yields_pure ⟨rfl, rfl⟩
  | list _ [], _ => Sweep.yields_pure ⟨rfl, rfl⟩
  | list span (first :: operands), .list _ plain => by
    have operandsPlain := fun operand member => plain operand (List.mem_cons_of_mem first member)
    rw [sweep]
    split
    next notIdentifier =>
      have firstPlain := plain first List.mem_cons_self
      refine Sweep.yields_bind (yields_restores_sweep first firstPlain) fun _ firstRestored => ?_
      refine Sweep.yields_bind (yields_restores_sweepAll operands operandsPlain) ?_
      intro _ operandsRestored
      exact Sweep.yields_pure (restores_list span notIdentifier firstRestored operandsRestored)
    next head isIdentifier =>
      obtain rfl := eq_identifier_of_locatedName? isIdentifier
      rcases Head.ofName_cases head.value with ⟨-, operator, announced⟩ |
        ⟨isVariable, announced⟩ | ⟨isFunction, announced⟩ |
        ⟨notArithmetic, notVariable, notFunction, announced⟩
      · rw [announced]
        exact yields_restores_sweepArithmetic span head.span announced operands operandsPlain
      · rw [announced, isVariable]
        exact yields_restores_sweepVariableDef span head.span operands operandsPlain
      · rw [announced, isFunction]
        exact yields_restores_sweepFunctionDef span head.span operands operandsPlain
      · rw [announced]
        refine Sweep.yields_bind_unit ?_
        refine Sweep.yields_bind (yields_restores_sweepAll operands operandsPlain) ?_
        intro _ restored
        exact Sweep.yields_pure
          (restores_call span head.span notArithmetic notVariable notFunction restored)

/-- What a list that announces arithmetic is swept to restores the list. -/
theorem yields_restores_sweepArithmetic (span place : Span) {operator : Operator} {word : String}
    (announced : Head.ofName word = .arithmetic operator) : (operands : List Expr) →
    (∀ operand ∈ operands, operand.IsPlain) →
    (sweepArithmetic span operator word operands).Yields
      (list span (identifier place word :: operands)).Restores
  | left :: right :: ignored, plain => by
    have leftPlain := plain left List.mem_cons_self
    have rightPlain := plain right (List.mem_cons_of_mem left List.mem_cons_self)
    rw [sweepArithmetic]
    refine Sweep.yields_bind_unit (Sweep.yields_bind_unit ?_)
    refine Sweep.yields_bind (yields_restores_sweep left leftPlain) fun _ leftRestored => ?_
    refine Sweep.yields_bind (yields_restores_sweep right rightPlain) fun _ rightRestored => ?_
    exact Sweep.yields_pure
      (restores_arithmetic span place announced leftRestored rightRestored ignored)
  | [], _ | [_], _ => Sweep.yields_fault

/-- What a list that announces a variable is swept to restores the list. -/
theorem yields_restores_sweepVariableDef (span place : Span) : (operands : List Expr) →
    (∀ operand ∈ operands, operand.IsPlain) →
    (sweepVariableDef span operands).Yields
      (list span (identifier place "defvar" :: operands)).Restores
  | [nameItem, initializer], plain => by
    have initializerPlain := plain initializer (List.mem_cons_of_mem nameItem List.mem_cons_self)
    rw [sweepVariableDef]
    split
    · exact Sweep.yields_fault
    next name isIdentifier =>
      obtain rfl := eq_identifier_of_locatedName? isIdentifier
      refine Sweep.yields_bind_unit ?_
      refine Sweep.yields_bind (yields_restores_sweep initializer initializerPlain) ?_
      intro _ restored
      exact Sweep.yields_pure (restores_variableDef span place name restored)
  | [], _ | [_], _ | _ :: _ :: _ :: _, _ => Sweep.yields_fault

/-- What a list that announces a function is swept to restores the list. -/
theorem yields_restores_sweepFunctionDef (span place : Span) : (operands : List Expr) →
    (∀ operand ∈ operands, operand.IsPlain) →
    (sweepFunctionDef span operands).Yields
      (list span (identifier place "defun" :: operands)).Restores
  | [prototypeItem, body], plain => by
    have bodyPlain := plain body (List.mem_cons_of_mem prototypeItem List.mem_cons_self)
    rw [sweepFunctionDef]
    split
    · exact Sweep.yields_fault
    next prototype isPrototype =>
      refine Sweep.yields_bind_unit ?_
      refine Sweep.yields_bind (yields_restores_sweep body bodyPlain) fun _ restored => ?_
      exact Sweep.yields_pure (restores_functionDef span place isPrototype restored)
  | [], _ | [_], _ | _ :: _ :: _ :: _, _ => Sweep.yields_fault

/-- What trees are swept to restores them one by one. -/
theorem yields_restores_sweepAll : (exprs : List Expr) → (∀ expr ∈ exprs, expr.IsPlain) →
    (sweepAll exprs).Yields (RestoresAll exprs)
  | [], _ => Sweep.yields_pure ⟨rfl, rfl⟩
  | first :: others, plain => by
    have firstPlain := plain first List.mem_cons_self
    have othersPlain := fun other member => plain other (List.mem_cons_of_mem first member)
    rw [sweepAll]
    refine Sweep.yields_bind (yields_restores_sweep first firstPlain) fun _ firstRestored => ?_
    refine Sweep.yields_bind (yields_restores_sweepAll others othersPlain) ?_
    intro _ othersRestored
    exact Sweep.yields_pure (firstRestored.cons othersRestored)

end

end Expr

namespace Module

/-- Desugaring loses nothing but the operands that arithmetic ignores. If a module of atoms and
lists is desugared, turning the nodes back into the lists that they stand for gives back its
forms, all of them and in their order, with the places and contents they had. Only signs are
read as names in the heads of arithmetic, and the ignored operands are left out. Identifiers
that are not the head of a list are the same ones as before. -/
theorem resugared_desugar (module swept : Module) (plain : ∀ form ∈ module.forms, form.IsPlain)
    (arrived : module.desugar.result = .ok swept) :
    swept.forms.map Expr.resugared = module.forms.map Expr.abridged ∧
      swept.forms.flatMap Expr.operandNames = module.forms.flatMap Expr.operandNames := by
  rw [desugar_eq_sweep] at arrived
  have yields : module.sweep.Yields fun swept => Expr.RestoresAll module.forms swept.forms :=
    Sweep.yields_bind (Expr.yields_restores_sweepAll module.forms plain) fun _ restored =>
      Sweep.yields_pure restored
  have restored := yields swept arrived
  constructor
  · rw [← Expr.resugaredAll_eq_map, ← Expr.abridgedAll_eq_map, restored.lists]
  · rw [List.flatMap_def, List.flatMap_def, ← Expr.operandNamesEach_eq_map,
      ← Expr.operandNamesEach_eq_map, restored.names]

/-- A definition of a function by the name of a sign. Its prototype stays as it is, while the
product in its body is written by name and without the list that it ignores. -/
theorem resugared_desugar_definition_of_sign :
    let word (offset : Nat) (name : String) : Expr := .identifier (.point offset) name
    let prototype : Expr := .list (.point 2) [word 3 "+", word 4 "a", word 5 "b"]
    let argument : Expr := .list (.point 8) [word 9 "g", word 10 "a"]
    let ignored : Expr := .list (.point 12) [word 13 "defvar"]
    let module : Module := ⟨[.list (.point 0) [word 1 "defun", prototype,
      .list (.point 6) [word 7 "*", argument, word 11 "b", ignored]]]⟩
    ∃ swept, module.desugar.result = .ok swept ∧
      swept.forms.map Expr.resugared = [.list (.point 0) [word 0 "defun", prototype,
        .list (.point 6) [word 6 "mul", argument, word 11 "b"]]] ∧
      swept.forms.flatMap Expr.operandNames =
        [⟨"a", .point 4⟩, ⟨"b", .point 5⟩, ⟨"a", .point 10⟩, ⟨"b", .point 11⟩] := by
  intro word prototype argument ignored module
  have plain : ∀ form ∈ module.forms, form.IsPlain := by
    simp [module, prototype, argument, ignored, word, Expr.isPlain_list_iff,
      Expr.IsPlain.identifier]
  obtain ⟨swept, arrived⟩ : ∃ swept, module.desugar.result = .ok swept := by
    rw [desugar_eq_sweep]
    exact ⟨_, rfl⟩
  obtain ⟨lists, names⟩ := module.resugared_desugar swept plain arrived
  exact ⟨swept, arrived, lists, names⟩

end Module

end Lisplet
