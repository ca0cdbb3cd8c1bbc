import Lisplet.Proofs.MalformedLists

/-!
# Live lists

Desugaring walks over a module from the outside in and from left to right. It passes over
the operands that arithmetic ignores and over the prototypes of functions; the lists that
it comes to are live. The first live list that is malformed ends the walk with its fault,
and a note is made for every live list before it that has operands to ignore.
-/

namespace Lisplet

namespace Expr

/-- The nodes directly below a node that are walked over. -/
def entered : Expr → List Expr
  | list _ (identifier _ word :: operands) =>
    if word ∈ arithmeticWords then operands.take 2
    else if word = "defun" then operands.drop 1
    else operands
  | other => other.children

/-- Only nodes directly below a node are entered. -/
theorem mem_children_of_mem_entered {node tree : Expr} (isEntered : node ∈ tree.entered) :
    node ∈ tree.children := by
  unfold entered at isEntered
  split at isEntered
  · refine List.mem_cons_of_mem _ ?_
    split at isEntered
    · exact List.mem_of_mem_take isEntered
    · split at isEntered
      · exact List.mem_of_mem_drop isEntered
      · exact isEntered
  · exact isEntered

/-- Nodes below a node are smaller. -/
theorem sizeOf_lt_of_mem_children {node tree : Expr} (isChild : node ∈ tree.children) :
    sizeOf node < sizeOf tree := by
  cases tree with
  | identifier | number | text => cases isChild
  | list span items =>
    have smaller := List.sizeOf_lt_of_mem isChild
    simp only [children, list.sizeOf_spec] at smaller ⊢
    omega
  | call span callee arguments =>
    have smaller := List.sizeOf_lt_of_mem isChild
    simp only [children, call.sizeOf_spec] at smaller ⊢
    omega
  | arithmetic span operator left right =>
    simp only [children, List.mem_cons, List.not_mem_nil, or_false] at isChild
    rcases isChild with rfl | rfl <;> simp only [arithmetic.sizeOf_spec] <;> omega
  | variableDef span name initializer =>
    simp only [children, List.mem_singleton] at isChild
    subst isChild
    simp only [variableDef.sizeOf_spec]
    omega
  | functionDef span prototype body =>
    simp only [children, List.mem_singleton] at isChild
    subst isChild
    simp only [functionDef.sizeOf_spec]
    omega

/-- The lists that the walk over a tree comes to, in its order. -/
def liveLists (tree : Expr) : List Expr :=
  (if tree.isList then [tree] else []) ++
    tree.entered.attach.flatMap fun node => liveLists node.val
termination_by sizeOf tree
decreasing_by exact sizeOf_lt_of_mem_children (mem_children_of_mem_entered node.property)

/-- The lists a walk meets are the node, if it is one, and then those in the nodes that it
enters. -/
theorem liveLists_eq (tree : Expr) :
    tree.liveLists = (if tree.isList then [tree] else []) ++ tree.entered.flatMap liveLists := by
  rw [liveLists]
  simp

/-- The operands that a list has to ignore, if there are any: an arithmetic list takes two,
and those from the third on are marked all together. -/
def ignoredOperands? : Expr → Option IgnoredOperands
  | list _ (identifier _ word :: _ :: _ :: ignored :: others) =>
    if word ∈ arithmeticWords then
      some ⟨word, (others.map span).foldl Span.union ignored.span⟩
    else
      none
  | _ => none

end Expr

namespace Sweep

variable {α β : Type}

/-- A sweep walks over lists in order. It stops at the first malformed one with its fault,
and notes the ignored operands of those that it has passed. -/
def Follows (sweep : Sweep α) (lists : List Expr) : Prop :=
  match sweep.result with
  | .error cause => ∃ before first after, lists = before ++ first :: after ∧
      (∀ list ∈ before, list.malformation = none) ∧ first.malformation = some cause ∧
      sweep.notes = before.filterMap Expr.ignoredOperands?
  | .ok _ => (∀ list ∈ lists, list.malformation = none) ∧
      sweep.notes = lists.filterMap Expr.ignoredOperands?

/-- A sweep that does nothing meets no lists. -/
theorem follows_pure (value : α) : (pure value : Sweep α).Follows [] :=
  ⟨nofun, rfl⟩

/-- Counting a replacement meets no lists. -/
theorem follows_replacement : replacement.Follows [] :=
  ⟨nofun, rfl⟩

/-- A malformed list ends the walk. -/
theorem follows_fault {list : Expr} {cause : DesugarFault}
    (malformed : list.malformation = some cause) (others : List Expr) :
    (fault cause : Sweep α).Follows (list :: others) :=
  ⟨[], list, others, rfl, nofun, malformed, rfl⟩

/-- Sweeps in sequence walk over one part of the lists after another. -/
theorem follows_bind {first : Sweep α} {next : α → Sweep β} {front rest : List Expr}
    (firstFollows : first.Follows front) (nextFollows : ∀ value, (next value).Follows rest) :
    (first >>= next).Follows (front ++ rest) := by
  change (first.andThen next).Follows (front ++ rest)
  obtain ⟨notes, replacements, result⟩ := first
  cases result with
  | error cause =>
    obtain ⟨before, malformed, after, rfl, sound, isMalformed, noted⟩ := firstFollows
    exact ⟨before, malformed, after ++ rest, by simp, sound, isMalformed, noted⟩
  | ok value =>
    obtain ⟨frontSound, frontNoted⟩ := firstFollows
    have following := nextFollows value
    unfold andThen Follows
    unfold Follows at following
    dsimp only at frontNoted ⊢
    cases arrived : (next value).result with
    | error cause =>
      rw [arrived] at following
      obtain ⟨before, malformed, after, rfl, sound, isMalformed, noted⟩ := following
      refine ⟨front ++ before, malformed, after, by simp, ?_, isMalformed, ?_⟩
      · exact List.forall_mem_append.2 ⟨frontSound, sound⟩
      · rw [List.filterMap_append, frontNoted, noted]
    | ok final =>
      rw [arrived] at following
      obtain ⟨sound, noted⟩ := following
      refine ⟨List.forall_mem_append.2 ⟨frontSound, sound⟩, ?_⟩
      rw [List.filterMap_append, frontNoted, noted]

/-- A list that is neither malformed nor has operands to ignore is passed in silence. -/
theorem Follows.cons_of_silent {sweep : Sweep α} {list : Expr} {lists : List Expr}
    (follows : sweep.Follows lists) (sound : list.malformation = none)
    (silent : list.ignoredOperands? = none) : sweep.Follows (list :: lists) := by
  have passed : (unchanged () : Sweep Unit).Follows [list] :=
    ⟨List.forall_mem_singleton.2 sound, by simp [silent, unchanged]⟩
  have walked := follows_bind passed fun _ => follows
  rwa [List.singleton_append, show (unchanged () >>= fun _ => sweep) = sweep from pure_bind ..]
    at walked

/-- What is made of the value of a sweep does not matter for the lists it meets. -/
theorem Follows.wrap {below : Sweep α} {lists : List Expr} (follows : below.Follows lists)
    (wrap : α → β) : (do let value ← below; pure (wrap value)).Follows lists := by
  have walked := follows_bind follows fun value => follows_pure (wrap value)
  rwa [List.append_nil] at walked

/-- Counting a replacement first does not matter for the lists a sweep meets. -/
theorem Follows.replaced {below : Sweep α} {lists : List Expr} (follows : below.Follows lists) :
    (do replacement; below).Follows lists :=
  follows_bind follows_replacement fun _ => follows

end Sweep

namespace Expr

/-- All nodes below a node other than a list are entered. -/
theorem liveLists_of_not_list {tree : Expr} (notList : tree.isList = false) :
    tree.liveLists = tree.children.flatMap liveLists := by
  rw [liveLists_eq, notList]
  cases tree with
  | list => cases notList
  | identifier | number | text | arithmetic | variableDef | functionDef | call => rfl

/-- A walk meets a list before it enters it. -/
theorem liveLists_list (span : Span) (items : List Expr) :
    (list span items).liveLists =
      list span items :: (list span items).entered.flatMap liveLists :=
  liveLists_eq _

/-- All items of a list are entered whose head is no name. -/
theorem liveLists_of_not_identifier {first : Expr} (notIdentifier : first.locatedName? = none)
    (span : Span) (operands : List Expr) :
    (list span (first :: operands)).liveLists =
      list span (first :: operands) :: (first.liveLists ++ operands.flatMap liveLists) := by
  rw [liveLists_list]
  cases first with
  | identifier => cases notIdentifier
  | number | text | list | arithmetic | variableDef | functionDef | call => rfl

/-- Nothing is to be said about a list that does not begin with an identifier. -/
theorem silent_of_not_identifier {first : Expr} (notIdentifier : first.locatedName? = none)
    (span : Span) (operands : List Expr) :
    (list span (first :: operands)).malformation = none ∧
      (list span (first :: operands)).ignoredOperands? = none := by
  cases first with
  | identifier => cases notIdentifier
  | number | text | list | arithmetic | variableDef | functionDef | call => exact ⟨rfl, rfl⟩

section Words

variable {word : String} (span place : Span) (operands : List Expr)

/-- Of a list that announces arithmetic the first two operands are entered. -/
theorem liveLists_arithmetic (isArithmetic : word ∈ arithmeticWords) :
    (list span (identifier place word :: operands)).liveLists =
      list span (identifier place word :: operands) :: (operands.take 2).flatMap liveLists := by
  rw [liveLists_list, entered, if_pos isArithmetic]

/-- Of a list that announces a function all operands but the prototype are entered. -/
theorem liveLists_functionDef :
    (list span (identifier place "defun" :: operands)).liveLists =
      list span (identifier place "defun" :: operands) :: (operands.drop 1).flatMap liveLists := by
  have notArithmetic : "defun" ∉ arithmeticWords := by decide
  rw [liveLists_list, entered, if_neg notArithmetic, if_pos rfl]

/-- Of a list with any other name at its head all operands are entered. -/
theorem liveLists_other (notArithmetic : word ∉ arithmeticWords) (notFunction : word ≠ "defun") :
    (list span (identifier place word :: operands)).liveLists =
      list span (identifier place word :: operands) :: operands.flatMap liveLists := by
  rw [liveLists_list, entered, if_neg notArithmetic, if_neg notFunction]

end Words

/-- Only arithmetic ignores operands. -/
theorem ignoredOperands?_of_not_arithmetic {word : String} (notArithmetic : word ∉ arithmeticWords)
    (span place : Span) (operands : List Expr) :
    (list span (identifier place word :: operands)).ignoredOperands? = none := by
  unfold ignoredOperands?
  split
  · next same =>
    cases same
    rw [if_neg notArithmetic]
  · rfl

/-- The note on ignored operands is made on coming to their list. -/
theorem follows_noteIgnored {word : String} (isArithmetic : word ∈ arithmeticWords)
    (span place : Span) (left right : Expr) (ignored : List Expr) :
    (noteIgnored word ignored).Follows
      [list span (identifier place word :: left :: right :: ignored)] := by
  have sound : (list span (identifier place word :: left :: right :: ignored)).malformation =
      none := by
    simp [malformation, isArithmetic]
  cases ignored with
  | nil => exact ⟨List.forall_mem_singleton.2 sound, rfl⟩
  | cons first others =>
    refine ⟨List.forall_mem_singleton.2 sound, ?_⟩
    simp [noteIgnored, Sweep.note, ignoredOperands?, isArithmetic, List.foldl_map]

mutual

/-- A sweep over a tree walks over its live lists. -/
theorem follows_sweep : (expr : Expr) → expr.sweep.Follows expr.liveLists
  | identifier _ _ | number _ _ | text _ _ => by
    rw [liveLists_of_not_list rfl]
    exact Sweep.follows_pure _
  | list span [] => by
    rw [liveLists_list]
    exact (Sweep.follows_pure _).cons_of_silent rfl rfl
  | list span (first :: operands) => by
    rw [sweep]
    split
    next notIdentifier =>
      obtain ⟨sound, silent⟩ := silent_of_not_identifier notIdentifier span operands
      rw [liveLists_of_not_identifier notIdentifier]
      refine Sweep.Follows.cons_of_silent ?_ sound silent
      exact Sweep.follows_bind (follows_sweep first) fun _ => (follows_sweepAll operands).wrap _
    next head isIdentifier =>
      obtain rfl := eq_identifier_of_locatedName? isIdentifier
      rcases Head.ofName_cases head.value with ⟨isArithmetic, operator, announced⟩ |
        ⟨isVariable, announced⟩ | ⟨isFunction, announced⟩ |
        ⟨notArithmetic, notVariable, notFunction, announced⟩
      · rw [announced]
        exact follows_sweepArithmetic span head.span operator isArithmetic operands
      · rw [announced, isVariable]
        exact follows_sweepVariableDef span head.span operands
      · rw [announced, isFunction]
        exact follows_sweepFunctionDef span head.span operands
      · -- A call is walked over like a list that stands for nothing.
        rw [announced, liveLists_other _ _ _ notArithmetic notFunction]
        refine Sweep.Follows.cons_of_silent ?_ ?_ ?_
        · exact ((follows_sweepAll operands).wrap _).replaced
        · simp [malformation, notArithmetic, notVariable, notFunction]
        · exact ignoredOperands?_of_not_arithmetic notArithmetic ..
  | arithmetic span operator left right => by
    rw [sweep, liveLists_of_not_list rfl, children, List.flatMap_cons, List.flatMap_singleton]
    exact Sweep.follows_bind (follows_sweep left) fun _ => (follows_sweep right).wrap _
  | variableDef span name initializer => by
    rw [sweep, liveLists_of_not_list rfl, children, List.flatMap_singleton]
    exact (follows_sweep initializer).wrap _
  | functionDef span prototype body => by
    rw [sweep, liveLists_of_not_list rfl, children, List.flatMap_singleton]
    exact (follows_sweep body).wrap _
  | call span callee arguments => by
    rw [sweep, liveLists_of_not_list rfl]
    exact (follows_sweepAll arguments).wrap _

/-- Arithmetic is swept in the order of the walk. -/
theorem follows_sweepArithmetic (span place : Span) (operator : Operator) {word : String}
    (isArithmetic : word ∈ arithmeticWords) : (operands : List Expr) →
    (sweepArithmetic span operator word operands).Follows
      (list span (identifier place word :: operands)).liveLists
  | left :: right :: ignored => by
    rw [sweepArithmetic, liveLists_arithmetic _ _ _ isArithmetic, List.take_succ_cons,
      List.take_succ_cons, List.take_zero, List.flatMap_cons, List.flatMap_singleton]
    refine Sweep.follows_bind (follows_noteIgnored isArithmetic span place left right ignored) ?_
    intro _
    exact (Sweep.follows_bind (follows_sweep left) fun _ => (follows_sweep right).wrap _).replaced
  | [] | [_] => by
    rw [liveLists_list]
    exact Sweep.follows_fault (by simp [malformation, isArithmetic]) _

/-- The definition of a variable is swept in the order of the walk. -/
theorem follows_sweepVariableDef (span place : Span) : (operands : List Expr) →
    (sweepVariableDef span operands).Follows
      (list span (identifier place "defvar" :: operands)).liveLists
  | [nameItem, initializer] => by
    rw [sweepVariableDef]
    split
    next notIdentifier =>
      rw [liveLists_list]
      refine Sweep.follows_fault ?_ _
      exact if_pos (Option.isNone_iff_eq_none.2 (identifierName?_eq_none_iff.2 notIdentifier))
    next name isIdentifier =>
      obtain rfl := eq_identifier_of_locatedName? isIdentifier
      rw [liveLists_other _ _ _ (by decide) (by decide), List.flatMap_cons,
        List.flatMap_singleton, liveLists_of_not_list rfl]
      exact ((follows_sweep initializer).wrap _).replaced.cons_of_silent rfl rfl
  | [] | [_] | _ :: _ :: _ :: _ => by
    rw [liveLists_list]
    exact Sweep.follows_fault rfl _

/-- The definition of a function is swept in the order of the walk. -/
theorem follows_sweepFunctionDef (span place : Span) : (operands : List Expr) →
    (sweepFunctionDef span operands).Follows
      (list span (identifier place "defun" :: operands)).liveLists
  | [prototypeItem, body] => by
    rw [sweepFunctionDef]
    split
    next cause refused =>
      have malformed : prototypeItem.prototypeMalformation = some cause := by
        rw [prototypeMalformation_eq, refused]
      rw [liveLists_list]
      refine Sweep.follows_fault ?_ _
      exact malformed
    next prototype isPrototype =>
      have sound : prototypeItem.prototypeMalformation = none := by
        rw [prototypeMalformation_eq, isPrototype]
      rw [liveLists_functionDef, List.drop_one, List.tail_cons, List.flatMap_singleton]
      exact ((follows_sweep body).wrap _).replaced.cons_of_silent sound rfl
  | [] | [_] | _ :: _ :: _ :: _ => by
    rw [liveLists_list]
    exact Sweep.follows_fault rfl _

/-- Trees are swept one after another in the order of the walk. -/
theorem follows_sweepAll : (exprs : List Expr) → (sweepAll exprs).Follows (exprs.flatMap liveLists)
  | [] => Sweep.follows_pure _
  | first :: others => by
    rw [sweepAll, List.flatMap_cons]
    exact Sweep.follows_bind (follows_sweep first) fun _ => (follows_sweepAll others).wrap _

end

end Expr

namespace Sweep

variable {α : Type} {sweep : Sweep α}

/-- A walk goes over all lists, none of them malformed, or ends at the first malformed one. -/
theorem Follows.cases {lists : List Expr} (follows : sweep.Follows lists) :
    (∃ value, sweep.result = .ok value ∧ (∀ list ∈ lists, list.malformation = none) ∧
      sweep.notes = lists.filterMap Expr.ignoredOperands?) ∨
    ∃ cause before first after, sweep.result = .error cause ∧ lists = before ++ first :: after ∧
      (∀ list ∈ before, list.malformation = none) ∧ first.malformation = some cause ∧
      sweep.notes = before.filterMap Expr.ignoredOperands? := by
  unfold Follows at follows
  split at follows
  next cause met =>
    obtain ⟨before, first, after, split⟩ := follows
    exact .inr ⟨cause, before, first, after, met, split⟩
  next value arrived => exact .inl ⟨value, arrived, follows⟩

/-- A walk over lists without fault arrives, with a note for each list that calls for one. -/
theorem Follows.arrives {lists : List Expr} (follows : sweep.Follows lists)
    (sound : ∀ list ∈ lists, list.malformation = none) :
    (∃ value, sweep.result = .ok value) ∧ sweep.notes = lists.filterMap Expr.ignoredOperands? := by
  rcases follows.cases with ⟨value, arrived, -, noted⟩ | ⟨_, _, first, _, -, rfl, -, wrong, -⟩
  · exact ⟨⟨value, arrived⟩, noted⟩
  · rw [sound first (by simp)] at wrong
    cases wrong

/-- The lists before the first malformed one are determined. -/
theorem eq_of_first_malformed {before others after rest : List Expr} {first other : Expr}
    (same : before ++ first :: after = others ++ other :: rest)
    (sound : ∀ list ∈ before, list.malformation = none) (wrong : first.malformation ≠ none)
    (othersSound : ∀ list ∈ others, list.malformation = none)
    (otherWrong : other.malformation ≠ none) : before = others ∧ first = other := by
  have cut : ∀ {front back : List Expr} {middle : Expr},
      (∀ list ∈ front, list.malformation = none) → middle.malformation ≠ none →
      (front ++ middle :: back).takeWhile (·.malformation.isNone) = front := by
    intro front back middle frontSound middleWrong
    rw [List.takeWhile_append_of_pos (by simpa using frontSound),
      List.takeWhile_cons_of_neg (by simpa using middleWrong), List.append_nil]
  have sameFront : before = others := by
    rw [← cut sound wrong, same, cut othersSound otherWrong]
  subst sameFront
  exact ⟨rfl, (List.cons.inj (List.append_cancel_left same)).1⟩

/-- A walk ends at the first malformed list, with a note for each list before it that calls
for one. -/
theorem Follows.stops {before after : List Expr} {first : Expr} {cause : DesugarFault}
    (follows : sweep.Follows (before ++ first :: after))
    (sound : ∀ list ∈ before, list.malformation = none) (wrong : first.malformation = some cause) :
    sweep.result = .error cause ∧ sweep.notes = before.filterMap Expr.ignoredOperands? := by
  rcases follows.cases with ⟨_, -, allSound, -⟩ |
    ⟨_, _, _, _, met, same, othersSound, otherWrong, noted⟩
  · rw [allSound first (by simp)] at wrong
    cases wrong
  · obtain ⟨rfl, rfl⟩ := eq_of_first_malformed same sound (by simp [wrong]) othersSound
      (by simp [otherWrong])
    rw [wrong] at otherWrong
    cases otherWrong
    exact ⟨met, noted⟩

/-- A walk ends with a fault exactly if it is over a malformed list. -/
theorem Follows.fault_iff {lists : List Expr} (follows : sweep.Follows lists) :
    (∃ cause, sweep.result = .error cause) ↔
      ∃ list ∈ lists, ∃ code, list.Malformed code := by
  rcases follows.cases with ⟨_, arrived, sound, -⟩ | ⟨cause, _, first, _, met, rfl, -, wrong, -⟩
  · constructor
    · rintro ⟨cause, met⟩
      rw [arrived] at met
      cases met
    · rintro ⟨list, member, code, malformed⟩
      exact absurd malformed (Expr.malformation_eq_none_iff.1 (sound list member) code)
  · exact ⟨fun _ => ⟨first, by simp, Expr.exists_malformed wrong⟩, fun _ => ⟨cause, met⟩⟩

/-- Notes are added at the end of a log. -/
theorem entries_recordIn (sweep : Sweep α) (log : Log) :
    (sweep.recordIn log).entries =
      log.entries ++ sweep.notes.map IgnoredOperands.diagnostic := by
  rw [recordIn, Log.entries_foldl_emit]

end Sweep

namespace Module

/-- The lists that the walk over a module comes to, in its order. -/
def liveLists (module : Module) : List Expr :=
  module.forms.flatMap Expr.liveLists

/-- Desugaring walks over the live lists of a module. -/
theorem follows_desugar (module : Module) : module.desugar.Follows module.liveLists := by
  rw [desugar_eq_sweep]
  exact (Expr.follows_sweepAll module.forms).wrap _

/-- Desugaring fails exactly if a live list is malformed, and then with the fault of the
first such list. It notes exactly the live arithmetic lists with operands to ignore that come
before that list, or all of them if there is no fault, in the order of the walk; each note
marks the ignored operands from the first to the last. -/
theorem desugar_stops_at_first_malformed_list (module : Module) (log : Log) :
    ((∃ cause, module.desugar.result = .error cause) ↔
      ∃ list ∈ module.liveLists, ∃ code, list.Malformed code) ∧
    (∀ before first after code, module.liveLists = before ++ first :: after →
      (∀ earlier ∈ before, ∀ other, ¬ earlier.Malformed other) → first.Malformed code →
      (∃ cause, first.malformation = some cause ∧ cause.diagnostic.code = some code ∧
        module.desugar.result = .error cause) ∧
      (module.desugar.recordIn log).entries = log.entries ++
        (before.filterMap Expr.ignoredOperands?).map IgnoredOperands.diagnostic) ∧
    ((∀ list ∈ module.liveLists, ∀ code, ¬ list.Malformed code) →
      (∃ final, module.desugar.result = .ok final) ∧
      (module.desugar.recordIn log).entries = log.entries ++
        (module.liveLists.filterMap Expr.ignoredOperands?).map IgnoredOperands.diagnostic) ∧
    ∀ note : IgnoredOperands, note.diagnostic.severity = .info ∧
      note.diagnostic.code = some .ignoredOperands ∧
      note.diagnostic.labels = [.primary note.span "ignored"] := by
  have follows := module.follows_desugar
  refine ⟨follows.fault_iff, ?_, ?_, fun _ => ⟨rfl, rfl, rfl⟩⟩
  · intro before first after code lists sound malformed
    obtain ⟨cause, wrong, coded⟩ := malformed.exists_malformation
    rw [lists] at follows
    obtain ⟨met, noted⟩ := follows.stops
      (fun list member => Expr.malformation_eq_none_iff.2 (sound list member)) wrong
    exact ⟨⟨cause, wrong, coded, met⟩, by rw [Sweep.entries_recordIn, noted]⟩
  · intro sound
    obtain ⟨arrived, noted⟩ := follows.arrives fun list member =>
      Expr.malformation_eq_none_iff.2 (sound list member)
    exact ⟨arrived, by rw [Sweep.entries_recordIn, noted]⟩

/-- The malformed definition in an ignored operand is passed over. The arithmetic that lacks
an operand is the first malformed live list, and the definition after it is not reached. -/
theorem desugar_stops_at_arithmetic_in_call :
    let place : Span := .point 0
    let word (name : String) : Expr := .identifier place name
    let ignoring : Expr := .list place [word "+", .number place 1, .number place 2,
      .list (.point 7) [word "defvar"], .number (.point 9) 3]
    let lacking : Expr := .list (.point 12) [word "mul", .number place 1]
    let module : Module := ⟨[ignoring, .list place [word "f", lacking],
      .list place [word "defvar", .number place 1, .number place 2]]⟩
    module.desugar.result = .error (.missingOperands "mul" 1 (.point 12)) ∧
      (module.desugar.recordIn {}).entries =
        [IgnoredOperands.diagnostic ⟨"+", (Span.point 7).union (.point 9)⟩] := by
  intro place word ignoring lacking module
  have lists : module.liveLists = [ignoring, .list place [word "f", lacking]] ++ lacking ::
      [.list place [word "defvar", .number place 1, .number place 2]] := by
    simp [module, ignoring, lacking, word, liveLists, Expr.liveLists_eq, Expr.isList, Expr.entered,
      Expr.children, arithmeticWords]
  have sound : ∀ list ∈ [ignoring, .list place [word "f", lacking]], list.malformation = none := by
    simp [ignoring, word, Expr.malformation, arithmeticWords]
  have malformed : lacking.Malformed .missingOperands := .operands (by decide) (by decide)
  obtain ⟨-, stops, -, -⟩ := module.desugar_stops_at_first_malformed_list {}
  obtain ⟨⟨cause, wrong, -, met⟩, recorded⟩ := stops _ _ _ _ lists
    (fun list member => Expr.malformation_eq_none_iff.1 (sound list member)) malformed
  cases wrong
  exact ⟨met, recorded⟩

end Module

end Lisplet
