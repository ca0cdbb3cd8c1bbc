import Lisplet.Proofs.TreeSpans

/-!
# Enclosures

An enclosure is the place of a list together with the places of what is kept of its items, in
order. A node that was read as a list has an enclosure of its own, and so has the prototype in the
definition of a function. Desugaring makes up no enclosure: it takes over those of the lists that
it replaces, at most with some places left out. So a property of enclosures that does not depend on
how many places are kept is handed on to the desugared tree.
-/

namespace Lisplet

/-- The place of a list, and the places of what is kept of its items. -/
structure Enclosure where
  span : Span
  parts : List Span

/-- Leaving out places keeps the property. -/
def Enclosure.ThinningClosed (holds : Enclosure → Prop) : Prop :=
  ∀ span parts fewer, fewer.Sublist parts → holds ⟨span, parts⟩ → holds ⟨span, fewer⟩

/-- The enclosure of a prototype: its own place around those of its name and parameters. -/
def Prototype.enclosure (prototype : Prototype) : Enclosure :=
  ⟨prototype.span, prototype.name.span :: prototype.params.map Located.span⟩

namespace Expr

/-- The enclosure of a node that was read as a list, and that of a prototype in it. Names are parts
like the nodes below: the name of a variable before its initializer, a prototype before the body
and a callee before its arguments. -/
def enclosures : Expr → List Enclosure
  | identifier _ _ => []
  | number _ _ => []
  | text _ _ => []
  | list span items => [⟨span, items.map Expr.span⟩]
  | arithmetic span _ left right => [⟨span, [left.span, right.span]⟩]
  | variableDef span name initializer => [⟨span, [name.span, initializer.span]⟩]
  | functionDef span prototype body => [⟨span, [prototype.span, body.span]⟩, prototype.enclosure]
  | call span callee arguments => [⟨span, callee.span :: arguments.map Expr.span⟩]

/-- Whether all enclosures in a tree have a property. -/
def Enclosed (holds : Enclosure → Prop) (tree : Expr) : Prop :=
  ∀ node, Within node tree → ∀ enclosure ∈ node.enclosures, holds enclosure

variable {holds : Enclosure → Prop}

/-- All enclosures in a tree are those of its root and those in the trees below. -/
theorem enclosed_iff {tree : Expr} :
    tree.Enclosed holds ↔
      (∀ enclosure ∈ tree.enclosures, holds enclosure) ∧
        ∀ child ∈ tree.children, child.Enclosed holds := by
  constructor
  · intro enclosed
    exact ⟨enclosed tree (.root tree), fun child isChild node within =>
      enclosed node (.under isChild within)⟩
  · rintro ⟨own, below⟩ node within
    cases within with
    | root => exact own
    | under isChild within => exact below _ isChild node within

/-- There are no enclosures in an atom. -/
theorem enclosed_of_atom {tree : Expr} (noneHere : tree.enclosures = [])
    (noneBelow : tree.children = []) : tree.Enclosed holds := by
  rw [enclosed_iff, noneHere, noneBelow]
  exact ⟨List.forall_mem_nil _, List.forall_mem_nil _⟩

@[simp] theorem enclosed_list {span : Span} {items : List Expr} :
    (list span items).Enclosed holds ↔
      holds ⟨span, items.map Expr.span⟩ ∧ ∀ item ∈ items, item.Enclosed holds := by
  rw [enclosed_iff]
  simp [enclosures, children]

@[simp] theorem enclosed_arithmetic {span : Span} {operator : Operator} {left right : Expr} :
    (arithmetic span operator left right).Enclosed holds ↔
      holds ⟨span, [left.span, right.span]⟩ ∧ left.Enclosed holds ∧ right.Enclosed holds := by
  rw [enclosed_iff]
  simp [enclosures, children]

@[simp] theorem enclosed_variableDef {span : Span} {name : Located String} {initializer : Expr} :
    (variableDef span name initializer).Enclosed holds ↔
      holds ⟨span, [name.span, initializer.span]⟩ ∧ initializer.Enclosed holds := by
  rw [enclosed_iff]
  simp [enclosures, children]

@[simp] theorem enclosed_functionDef {span : Span} {prototype : Prototype} {body : Expr} :
    (functionDef span prototype body).Enclosed holds ↔
      (holds ⟨span, [prototype.span, body.span]⟩ ∧ holds prototype.enclosure) ∧
        body.Enclosed holds := by
  rw [enclosed_iff]
  simp [enclosures, children]

@[simp] theorem enclosed_call {span : Span} {callee : Located String} {arguments : List Expr} :
    (call span callee arguments).Enclosed holds ↔
      holds ⟨span, callee.span :: arguments.map Expr.span⟩ ∧
        ∀ argument ∈ arguments, argument.Enclosed holds := by
  rw [enclosed_iff]
  simp [enclosures, children]

/-- A property of all enclosures can be weakened. -/
theorem Enclosed.mono {weaker : Enclosure → Prop} {tree : Expr} (enclosed : tree.Enclosed holds)
    (weaken : ∀ enclosure, holds enclosure → weaker enclosure) : tree.Enclosed weaker :=
  fun node within enclosure isOwn => weaken enclosure (enclosed node within enclosure isOwn)

/-- The enclosures in a part of a tree are enclosures in the tree. -/
theorem Enclosed.within {node tree : Expr} (within : Within node tree)
    (enclosed : tree.Enclosed holds) : node.Enclosed holds := by
  induction within with
  | root => exact enclosed
  | under isChild _ inductionHypothesis =>
    exact inductionHypothesis ((enclosed_iff.1 enclosed).2 _ isChild)

/-- The enclosure of a prototype is that of the list it was read from. -/
theorem holds_enclosure_of_ofExpr {expr : Expr} {prototype : Prototype}
    (isPrototype : Prototype.ofExpr expr = .ok prototype) (enclosed : expr.Enclosed holds) :
    expr.span = prototype.span ∧ holds prototype.enclosure := by
  rw [Prototype.eq_toExpr_of_ofExpr isPrototype, Prototype.toExpr] at enclosed ⊢
  have own := (enclosed_list.1 enclosed).1
  rw [List.map_map] at own
  exact ⟨rfl, own⟩

/-- A tree in the place of another, all of whose enclosures have a property. -/
structure EnclosedAt (holds : Enclosure → Prop) (span : Span) (swept : Expr) : Prop where
  place : swept.span = span
  enclosed : swept.Enclosed holds

/-- Trees in the places of others, one after another. -/
structure EnclosedAll (holds : Enclosure → Prop) (exprs swept : List Expr) : Prop where
  places : swept.map Expr.span = exprs.map Expr.span
  enclosed : ∀ expr ∈ swept, expr.Enclosed holds

open Sweep

mutual

/-- A sweep over a node leaves it at its place and makes up no enclosure. -/
theorem enclosed_sweep (closed : Enclosure.ThinningClosed holds) : (expr : Expr) →
    expr.Enclosed holds → expr.sweep.Yields (EnclosedAt holds expr.span)
  | identifier _ _, enclosed => yields_pure ⟨rfl, enclosed⟩
  | number _ _, enclosed => yields_pure ⟨rfl, enclosed⟩
  | text _ _, enclosed => yields_pure ⟨rfl, enclosed⟩
  | list _ [], enclosed => yields_pure ⟨rfl, enclosed⟩
  | list span (first :: operands), enclosed => by
    obtain ⟨here, itemsEnclosed⟩ := enclosed_list.1 enclosed
    obtain ⟨firstEnclosed, operandsEnclosed⟩ := List.forall_mem_cons.1 itemsEnclosed
    -- Only a call keeps the place of the head, as its callee.
    have behindHead : holds ⟨span, operands.map Expr.span⟩ :=
      closed span _ _ (List.sublist_cons_self _ _) here
    rw [sweep]
    split
    next =>
      refine yields_bind (enclosed_sweep closed first firstEnclosed) fun sweptFirst firstAt => ?_
      refine yields_bind (enclosed_sweepAll closed operands operandsEnclosed)
        fun sweptOperands operandsAt => yields_pure ⟨rfl, enclosed_list.2 ⟨?_, ?_⟩⟩
      · rwa [List.map_cons, firstAt.place, operandsAt.places]
      · exact List.forall_mem_cons.2 ⟨firstAt.enclosed, operandsAt.enclosed⟩
    next head isIdentifier =>
      split
      · exact enclosed_sweepArithmetic closed _ _ operands behindHead operandsEnclosed
      · exact enclosed_sweepVariableDef closed operands behindHead operandsEnclosed
      · exact enclosed_sweepFunctionDef closed operands behindHead operandsEnclosed
      · refine yields_bind_unit (yields_bind (enclosed_sweepAll closed operands operandsEnclosed)
          fun arguments sweptAt => yields_pure ⟨rfl, enclosed_call.2 ⟨?_, sweptAt.enclosed⟩⟩)
        rw [eq_identifier_of_locatedName? isIdentifier] at here
        rwa [sweptAt.places]
  | arithmetic span operator left right, enclosed => by
    obtain ⟨here, leftEnclosed, rightEnclosed⟩ := enclosed_arithmetic.1 enclosed
    rw [sweep]
    refine yields_bind (enclosed_sweep closed left leftEnclosed) fun sweptLeft leftAt => ?_
    refine yields_bind (enclosed_sweep closed right rightEnclosed) fun sweptRight rightAt => ?_
    refine yields_pure ⟨rfl, enclosed_arithmetic.2 ⟨?_, leftAt.enclosed, rightAt.enclosed⟩⟩
    rwa [leftAt.place, rightAt.place]
  | variableDef span name initializer, enclosed => by
    obtain ⟨here, initializerEnclosed⟩ := enclosed_variableDef.1 enclosed
    rw [sweep]
    refine yields_bind (enclosed_sweep closed initializer initializerEnclosed)
      fun swept sweptAt => ?_
    refine yields_pure ⟨rfl, enclosed_variableDef.2 ⟨?_, sweptAt.enclosed⟩⟩
    rwa [sweptAt.place]
  | functionDef span prototype body, enclosed => by
    obtain ⟨⟨here, prototypeHere⟩, bodyEnclosed⟩ := enclosed_functionDef.1 enclosed
    rw [sweep]
    refine yields_bind (enclosed_sweep closed body bodyEnclosed) fun swept sweptAt => ?_
    refine yields_pure ⟨rfl, enclosed_functionDef.2 ⟨⟨?_, prototypeHere⟩, sweptAt.enclosed⟩⟩
    rwa [sweptAt.place]
  | call span callee arguments, enclosed => by
    obtain ⟨here, argumentsEnclosed⟩ := enclosed_call.1 enclosed
    rw [sweep]
    refine yields_bind (enclosed_sweepAll closed arguments argumentsEnclosed)
      fun swept sweptAt => ?_
    refine yields_pure ⟨rfl, enclosed_call.2 ⟨?_, sweptAt.enclosed⟩⟩
    rwa [sweptAt.places]

/-- Arithmetic encloses what the list has enclosed. -/
theorem enclosed_sweepArithmetic (closed : Enclosure.ThinningClosed holds) {span : Span}
    (operator : Operator) (head : String) : (operands : List Expr) →
      holds ⟨span, operands.map Expr.span⟩ → (∀ operand ∈ operands, operand.Enclosed holds) →
        (sweepArithmetic span operator head operands).Yields (EnclosedAt holds span)
  | left :: right :: ignored, here, enclosed => by
    obtain ⟨leftEnclosed, others⟩ := List.forall_mem_cons.1 enclosed
    obtain ⟨rightEnclosed, -⟩ := List.forall_mem_cons.1 others
    have operandsKept : holds ⟨span, [left.span, right.span]⟩ :=
      closed span _ _ (List.sublist_append_left [left.span, right.span] _) here
    rw [sweepArithmetic]
    refine yields_bind_unit (yields_bind_unit ?_)
    refine yields_bind (enclosed_sweep closed left leftEnclosed) fun sweptLeft leftAt => ?_
    refine yields_bind (enclosed_sweep closed right rightEnclosed) fun sweptRight rightAt => ?_
    refine yields_pure ⟨rfl, enclosed_arithmetic.2 ⟨?_, leftAt.enclosed, rightAt.enclosed⟩⟩
    rwa [leftAt.place, rightAt.place]
  | [], _, _ | [_], _, _ => yields_fault

/-- The definition of a variable encloses what the list has enclosed. -/
theorem enclosed_sweepVariableDef (closed : Enclosure.ThinningClosed holds) {span : Span} :
    (operands : List Expr) → holds ⟨span, operands.map Expr.span⟩ →
      (∀ operand ∈ operands, operand.Enclosed holds) →
        (sweepVariableDef span operands).Yields (EnclosedAt holds span)
  | [nameItem, initializer], here, enclosed => by
    have initializerEnclosed := enclosed initializer (List.mem_cons_of_mem _ List.mem_cons_self)
    rw [sweepVariableDef]
    split
    · exact yields_fault
    next name isIdentifier =>
      refine yields_bind_unit (yields_bind (enclosed_sweep closed initializer initializerEnclosed)
        fun swept sweptAt => yields_pure ⟨rfl, enclosed_variableDef.2 ⟨?_, sweptAt.enclosed⟩⟩)
      rw [eq_identifier_of_locatedName? isIdentifier] at here
      rwa [sweptAt.place]
  | [], _, _ | [_], _, _ | _ :: _ :: _ :: _, _, _ => yields_fault

/-- The definition of a function encloses what the list has enclosed. -/
theorem enclosed_sweepFunctionDef (closed : Enclosure.ThinningClosed holds) {span : Span} :
    (operands : List Expr) → holds ⟨span, operands.map Expr.span⟩ →
      (∀ operand ∈ operands, operand.Enclosed holds) →
        (sweepFunctionDef span operands).Yields (EnclosedAt holds span)
  | [prototypeItem, body], here, enclosed => by
    have prototypeEnclosed := enclosed prototypeItem List.mem_cons_self
    have bodyEnclosed := enclosed body (List.mem_cons_of_mem _ List.mem_cons_self)
    rw [sweepFunctionDef]
    split
    · exact yields_fault
    next prototype isPrototype =>
      obtain ⟨place, prototypeHere⟩ := holds_enclosure_of_ofExpr isPrototype prototypeEnclosed
      refine yields_bind_unit (yields_bind (enclosed_sweep closed body bodyEnclosed)
        fun swept sweptAt =>
          yields_pure ⟨rfl, enclosed_functionDef.2 ⟨⟨?_, prototypeHere⟩, sweptAt.enclosed⟩⟩)
      rwa [sweptAt.place, ← place]
  | [], _, _ | [_], _, _ | _ :: _ :: _ :: _, _, _ => yields_fault

/-- A sweep over some nodes leaves them at their places and makes up no enclosure. -/
theorem enclosed_sweepAll (closed : Enclosure.ThinningClosed holds) : (exprs : List Expr) →
    (∀ expr ∈ exprs, expr.Enclosed holds) → (sweepAll exprs).Yields (EnclosedAll holds exprs)
  | [], _ => yields_pure ⟨rfl, List.forall_mem_nil _⟩
  | first :: others, enclosed => by
    obtain ⟨firstEnclosed, othersEnclosed⟩ := List.forall_mem_cons.1 enclosed
    rw [sweepAll]
    refine yields_bind (enclosed_sweep closed first firstEnclosed) fun sweptFirst firstAt => ?_
    refine yields_bind (enclosed_sweepAll closed others othersEnclosed)
      fun sweptOthers othersAt => ?_
    refine yields_pure ⟨?_, List.forall_mem_cons.2 ⟨firstAt.enclosed, othersAt.enclosed⟩⟩
    rw [List.map_cons, List.map_cons, firstAt.place, othersAt.places]

end

end Expr

/-- Desugaring leaves the forms of a module at their places and makes up no enclosure. -/
theorem Module.enclosedAll_of_desugar {holds : Enclosure → Prop}
    (closed : Enclosure.ThinningClosed holds) {module desugared : Module}
    (enclosed : ∀ form ∈ module.forms, form.Enclosed holds)
    (arrived : module.desugar.result = .ok desugared) :
    Expr.EnclosedAll holds module.forms desugared.forms := by
  have yields : module.sweep.Yields fun swept => Expr.EnclosedAll holds module.forms swept.forms :=
    Sweep.yields_bind (Expr.enclosed_sweepAll closed module.forms enclosed)
      fun _ enclosedAll => Sweep.yields_pure enclosedAll
  rw [Module.desugar_eq_sweep] at arrived
  exact yields desugared arrived

end Lisplet
