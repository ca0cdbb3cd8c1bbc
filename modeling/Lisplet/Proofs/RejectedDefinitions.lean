import Lisplet.Proofs.DefinitionOrder

/-!
# Definitions that are left out

A definition is left out if it claims the name of the entry function, or the name of a
definition before it that counts. Such a definition binds nothing, takes no number and
leaves the arities alone, so the module without it is lowered to the same target. All it
leaves is the finding that it was left out; the other findings are those on the module
without it.
-/

namespace Lisplet

namespace Diagnostic

/-- Whether a diagnostic is of an entry of the catalogue. -/
def isOf (code : Code) (diagnostic : Diagnostic) : Bool :=
  diagnostic.code == some code

/-- Whether a diagnostic says that a definition is left out. -/
def rejectsDefinition (diagnostic : Diagnostic) : Bool :=
  diagnostic.isOf .redefinition || diagnostic.isOf .reservedName

end Diagnostic

/-- The definitions that do not count: those of a name that is taken, be it from the start
or by a definition before them. -/
def rejectedDefinitions (taken : List String) : List (Prototype × Expr) → List (Prototype × Expr)
  | [] => []
  | definition :: rest =>
    if definition.1.name.value ∈ taken then
      definition :: rejectedDefinitions taken rest
    else
      rejectedDefinitions (definition.1.name.value :: taken) rest

/-- Forms without the definitions that do not count. -/
def keptForms (taken : List String) : List Expr → List Expr
  | [] => []
  | form :: rest =>
    match form.functionDef? with
    | none => form :: keptForms taken rest
    | some (prototype, _) =>
      if prototype.name.value ∈ taken then
        keptForms taken rest
      else
        form :: keptForms (prototype.name.value :: taken) rest

namespace Module

/-- A module without the definitions that lowering leaves out. -/
def kept (module : Module) (names : TargetNames) : Module :=
  ⟨keptForms [names.entry] module.forms⟩

/-- The definitions that lowering leaves out, in order. -/
def rejected (module : Module) (names : TargetNames) : List (Prototype × Expr) :=
  rejectedDefinitions [names.entry] module.functionDefs

end Module

section Sorting

/-- What is kept of forms defines the functions that count. -/
theorem filterMap_keptForms (taken : List String) (forms : List Expr) :
    (keptForms taken forms).filterMap Expr.functionDef? =
      firstDefinitions taken (forms.filterMap Expr.functionDef?) := by
  induction forms generalizing taken with
  | nil => rfl
  | cons form rest inductionHypothesis =>
    rw [keptForms]
    cases defines : form.functionDef? with
    | none =>
      rw [List.filterMap_cons_none defines, List.filterMap_cons_none defines]
      exact inductionHypothesis taken
    | some definition =>
      rw [List.filterMap_cons_some defines, firstDefinitions]
      dsimp only
      split
      · exact inductionHypothesis taken
      · rw [List.filterMap_cons_some defines, inductionHypothesis]

/-- All forms that define no function are kept. -/
theorem filter_keptForms (taken : List String) (forms : List Expr) :
    (keptForms taken forms).filter (fun form => form.functionDef?.isNone) =
      forms.filter fun form => form.functionDef?.isNone := by
  induction forms generalizing taken with
  | nil => rfl
  | cons form rest inductionHypothesis =>
    rw [keptForms]
    cases defines : form.functionDef? with
    | none => simp [defines, inductionHypothesis]
    | some definition =>
      dsimp only
      split
      · simp [defines, inductionHypothesis]
      · simp [defines, inductionHypothesis]

/-- A definition counts or it is left out. -/
theorem perm_firstDefinitions (taken : List String) (definitions : List (Prototype × Expr)) :
    definitions.Perm
      (firstDefinitions taken definitions ++ rejectedDefinitions taken definitions) := by
  induction definitions generalizing taken with
  | nil => exact .nil
  | cons definition rest inductionHypothesis =>
    rw [firstDefinitions, rejectedDefinitions]
    split
    · exact ((inductionHypothesis taken).cons definition).trans List.perm_middle.symm
    · exact (inductionHypothesis _).cons definition

/-- The names of the definitions that count are distinct. -/
theorem nodup_firstDefinitions (taken : List String) (definitions : List (Prototype × Expr)) :
    ((firstDefinitions taken definitions).map fun definition =>
      definition.1.name.value).Nodup := by
  induction definitions generalizing taken with
  | nil => exact List.nodup_nil
  | cons definition rest inductionHypothesis =>
    rw [firstDefinitions]
    split
    · exact inductionHypothesis taken
    · refine List.nodup_cons.2 ⟨?_, inductionHypothesis _⟩
      intro member
      obtain ⟨other, counts, same⟩ := List.mem_map.1 member
      exact not_mem_taken_of_mem_firstDefinitions counts (same ▸ List.mem_cons_self)

variable {reserved : String} {taken others : List String}

/-- Once a name is taken, it stays taken apart from the others. -/
theorem mem_cons_iff_of_reserved (same : ∀ name, name ∈ taken ↔ name = reserved ∨ name ∈ others)
    (added name : String) : name ∈ added :: taken ↔ name = reserved ∨ name ∈ added :: others := by
  rw [List.mem_cons, List.mem_cons, same]
  exact or_left_comm

/-- To reserve a name is to pass over its definitions. -/
theorem firstDefinitions_filter (definitions : List (Prototype × Expr))
    (same : ∀ name, name ∈ taken ↔ name = reserved ∨ name ∈ others) :
    firstDefinitions others
        (definitions.filter fun definition => !(definition.1.name.value == reserved)) =
      firstDefinitions taken definitions := by
  induction definitions generalizing taken others with
  | nil => rfl
  | cons definition rest inductionHypothesis =>
    have continued := mem_cons_iff_of_reserved same definition.1.name.value
    by_cases isReserved : definition.1.name.value = reserved
    · have isTaken := (same _).2 (.inl isReserved)
      rw [List.filter_cons_of_neg (by simp [isReserved]), firstDefinitions, if_pos isTaken]
      exact inductionHypothesis same
    · have sameHere : definition.1.name.value ∈ taken ↔ definition.1.name.value ∈ others := by
        simp [same, isReserved]
      rw [List.filter_cons_of_pos (by simp [isReserved]), firstDefinitions, firstDefinitions]
      simp only [sameHere, inductionHypothesis same, inductionHypothesis continued]

/-- Apart from the definitions of a reserved name, those are left out that would be if it
were not reserved. -/
theorem filter_rejectedDefinitions (definitions : List (Prototype × Expr))
    (same : ∀ name, name ∈ taken ↔ name = reserved ∨ name ∈ others) :
    (rejectedDefinitions taken definitions).filter
        (fun definition => !(definition.1.name.value == reserved)) =
      rejectedDefinitions others
        (definitions.filter fun definition => !(definition.1.name.value == reserved)) := by
  induction definitions generalizing taken others with
  | nil => rfl
  | cons definition rest inductionHypothesis =>
    have continued := mem_cons_iff_of_reserved same definition.1.name.value
    by_cases isReserved : definition.1.name.value = reserved
    · have isTaken := (same _).2 (.inl isReserved)
      rw [rejectedDefinitions, if_pos isTaken, List.filter_cons_of_neg (by simp [isReserved]),
        List.filter_cons_of_neg (by simp [isReserved])]
      exact inductionHypothesis same
    · have sameHere : definition.1.name.value ∈ taken ↔ definition.1.name.value ∈ others := by
        simp [same, isReserved]
      rw [List.filter_cons_of_pos (by simp [isReserved]), rejectedDefinitions,
        rejectedDefinitions]
      by_cases isTaken : definition.1.name.value ∈ others
      · rw [if_pos (sameHere.2 isTaken), if_pos isTaken,
          List.filter_cons_of_pos (by simp [isReserved]), inductionHypothesis same]
      · rw [if_neg (mt sameHere.1 isTaken), if_neg isTaken, inductionHypothesis continued]

/-- All definitions of a reserved name are left out. -/
theorem filter_rejectedDefinitions_of_mem (isTaken : reserved ∈ taken)
    (definitions : List (Prototype × Expr)) :
    (rejectedDefinitions taken definitions).filter
        (fun definition => definition.1.name.value == reserved) =
      definitions.filter fun definition => definition.1.name.value == reserved := by
  induction definitions generalizing taken with
  | nil => rfl
  | cons definition rest inductionHypothesis =>
    rw [rejectedDefinitions]
    split
    next =>
      rw [List.filter_cons, List.filter_cons, inductionHypothesis isTaken]
    next free =>
      have other : definition.1.name.value ≠ reserved := fun same => free (same ▸ isTaken)
      rw [List.filter_cons_of_neg (by simp [other])]
      exact inductionHypothesis (List.mem_cons_of_mem _ isTaken)

end Sorting

section Findings

variable {arity? : String → Option Nat}

namespace Expr

mutual

/-- No finding on a node is that a definition is left out. -/
theorem not_rejectsDefinition_emission (node : Expr) (scopes : Scopes) (temps : TempNames) :
    ∀ fault ∈ (node.emission arity? scopes temps).faults,
      fault.diagnostic.rejectsDefinition = false := by
  cases node with
  | number span value =>
    rw [emission]
    rintro fault ⟨⟩
  | identifier span name =>
    rw [emission]
    split
    · rintro fault ⟨⟩
    · exact List.forall_mem_singleton.2 rfl
    · exact List.forall_mem_singleton.2 rfl
  | text span body =>
    rw [emission]
    exact List.forall_mem_singleton.2 rfl
  | list span items =>
    rw [emission]
    exact List.forall_mem_singleton.2 rfl
  | functionDef span prototype body =>
    rw [emission]
    exact List.forall_mem_singleton.2 rfl
  | arithmetic span operator left right =>
    have first := not_rejectsDefinition_emission left scopes temps
    have second := not_rejectsDefinition_emission right
      (left.emission arity? scopes temps).scopes (left.emission arity? scopes temps).temps
    rw [emission]
    split
    · exact List.forall_mem_append.2 ⟨first, List.forall_mem_append.2 ⟨second, by rintro _ ⟨⟩⟩⟩
    · exact List.forall_mem_append.2 ⟨first, second⟩
  | variableDef span name initializer =>
    rw [emission]
    split
    · exact not_rejectsDefinition_emission initializer scopes temps
    · exact not_rejectsDefinition_emission initializer scopes temps
  | call span callee arguments =>
    rw [emission]
    split
    · exact List.forall_mem_singleton.2 rfl
    split
    · exact List.forall_mem_singleton.2 rfl
    have first := not_rejectsDefinition_argumentEmission callee 1 arguments scopes temps
    dsimp only
    split
    · exact List.forall_mem_append.2 ⟨first, by rintro _ ⟨⟩⟩
    · exact first

/-- No finding on arguments is that a definition is left out. -/
theorem not_rejectsDefinition_argumentEmission (callee : Located String) (position : Nat)
    (arguments : List Expr) (scopes : Scopes) (temps : TempNames) :
    ∀ fault ∈ (argumentEmission arity? callee position arguments scopes temps).faults,
      fault.diagnostic.rejectsDefinition = false := by
  cases arguments with
  | nil =>
    rw [argumentEmission]
    rintro fault ⟨⟩
  | cons argument others =>
    have first := not_rejectsDefinition_emission argument scopes temps
    rw [argumentEmission]
    dsimp only
    split
    · exact List.forall_mem_append.2 ⟨first, List.forall_mem_singleton.2 rfl⟩
    · exact List.forall_mem_append.2 ⟨first,
        not_rejectsDefinition_argumentEmission callee (position + 1) others _ _⟩

end

end Expr

/-- No finding on the forms that define no function is that a definition is left out. -/
theorem not_rejectsDefinition_formsEmission (last : Option Value) (forms : List Expr)
    (scopes : Scopes) (temps : TempNames) :
    ∀ fault ∈ (formsEmission arity? last forms scopes temps).faults,
      fault.diagnostic.rejectsDefinition = false := by
  induction forms generalizing last scopes temps with
  | nil => rintro fault ⟨⟩
  | cons form rest inductionHypothesis =>
    rw [formsEmission]
    split
    · exact inductionHypothesis last scopes temps
    · exact List.forall_mem_append.2 ⟨form.not_rejectsDefinition_emission scopes temps,
        inductionHypothesis _ _ _⟩

variable {faults : List LoweringFault}

/-- Findings none of which rejects a definition all remain when those that do are dropped. -/
theorem filter_of_not_rejectsDefinition
    (accepted : ∀ fault ∈ faults, fault.diagnostic.rejectsDefinition = false) :
    faults.filter (fun fault => !fault.diagnostic.rejectsDefinition) = faults :=
  List.filter_eq_self.2 fun fault member => by simp [accepted fault member]

/-- Among findings none of which rejects a definition there is none of an entry of the
catalogue that does. -/
theorem filter_isOf_of_not_rejectsDefinition
    (accepted : ∀ fault ∈ faults, fault.diagnostic.rejectsDefinition = false) {code : Code}
    (rejects : code = .redefinition ∨ code = .reservedName) :
    (faults.map LoweringFault.diagnostic).filter (Diagnostic.isOf code) = [] := by
  refine List.filter_eq_nil_iff.2 (List.forall_mem_map.2 ?_)
  intro fault member isOfCode
  have neither := Bool.or_eq_false_iff.1 (accepted fault member)
  rcases rejects with rfl | rfl
  · exact Bool.false_ne_true (neither.1.symm.trans isOfCode)
  · exact Bool.false_ne_true (neither.2.symm.trans isOfCode)

/-- No such finding is made on the body of a function. -/
theorem filter_isOf_bodyEmission {code : Code}
    (rejects : code = .redefinition ∨ code = .reservedName) (prototype : Prototype) (body : Expr)
    (scopes : Scopes) (temps : TempNames) :
    ((bodyEmission arity? prototype body scopes temps).faults.map
      LoweringFault.diagnostic).filter (Diagnostic.isOf code) = [] :=
  filter_isOf_of_not_rejectsDefinition (body.not_rejectsDefinition_emission _ temps) rejects

end Findings

section Bodies

variable {arity? : String → Option Nat}

/-- What definitions contribute without the findings that some of them are left out. -/
def Definitions.withoutRejections (made : Definitions) : Definitions :=
  { made with faults := made.faults.filter fun fault => !fault.diagnostic.rejectsDefinition }

/-- The definitions that do not count contribute such findings and nothing else. -/
theorem definitions_firstDefinitions (defined : List (Located String))
    (definitions : List (Prototype × Expr)) (scopes : Scopes) (temps : TempNames) :
    Lisplet.definitions arity? defined
        (firstDefinitions (defined.map Located.value) definitions) scopes temps =
      (Lisplet.definitions arity? defined definitions scopes temps).withoutRejections := by
  induction definitions generalizing defined scopes temps with
  | nil => rfl
  | cons definition rest inductionHypothesis =>
    obtain ⟨prototype, body⟩ := definition
    rw [firstDefinitions]
    cases found : defined.find? fun earlier => earlier.value == prototype.name.value with
    | some first =>
      -- All that the definition adds is its finding, which is dropped again.
      rw [if_pos (mem_of_find?_name found), inductionHypothesis, Lisplet.definitions, found]
      rfl
    | none =>
      let own := bodyEmission arity? prototype body scopes temps
      have ownAccepted : own.faults.filter (fun fault => !fault.diagnostic.rejectsDefinition) =
          own.faults :=
        filter_of_not_rejectsDefinition (body.not_rejectsDefinition_emission _ temps)
      have others := inductionHypothesis (prototype.name :: defined) own.scopes.leaveFunction
        own.temps
      rw [List.map_cons] at others
      rw [if_neg (not_mem_of_find?_name found), Lisplet.definitions, Lisplet.definitions, found]
      dsimp only
      rw [others]
      simp only [Definitions.withoutRejections, List.filter_append]
      rw [ownAccepted]

/-- Whether a finding is that a definition repeats one of those that count, whose names are
given. -/
def RepeatsOneOf (counting : List (Located String)) (definition : Prototype × Expr)
    (finding : Diagnostic) : Prop :=
  ∃ first ∈ counting, first.value = definition.1.name.value ∧
    finding = (LoweringFault.redefinition definition.1.name first.span).diagnostic

/-- Each definition that does not count is reported once, in order. -/
theorem repeats_definitions (defined : List (Located String))
    (definitions : List (Prototype × Expr)) (scopes : Scopes) (temps : TempNames) :
    List.Forall₂
      (RepeatsOneOf (defined ++
        (firstDefinitions (defined.map Located.value) definitions).map fun definition =>
          definition.1.name))
      (rejectedDefinitions (defined.map Located.value) definitions)
      (((Lisplet.definitions arity? defined definitions scopes temps).faults.map
        LoweringFault.diagnostic).filter (Diagnostic.isOf .redefinition)) := by
  induction definitions generalizing defined scopes temps with
  | nil => exact .nil
  | cons definition rest inductionHypothesis =>
    obtain ⟨prototype, body⟩ := definition
    rw [firstDefinitions, rejectedDefinitions, Lisplet.definitions]
    cases found : defined.find? fun earlier => earlier.value == prototype.name.value with
    | some first =>
      have same : first.value = prototype.name.value := by simpa using List.find?_some found
      rw [if_pos (mem_of_find?_name found), if_pos (mem_of_find?_name found)]
      refine .cons ⟨first, ?_, same, rfl⟩ (inductionHypothesis defined scopes temps)
      exact List.mem_append_left _ (List.mem_of_find?_eq_some found)
    | none =>
      have free := not_mem_of_find?_name found
      rw [if_neg free, if_neg free]
      dsimp only
      rw [List.map_append, List.filter_append, filter_isOf_bodyEmission (.inl rfl),
        List.nil_append]
      -- From here on the name of the definition itself is among those that count.
      refine (inductionHypothesis (prototype.name :: defined) _ _).imp ?_
      rintro repeated finding ⟨counting, member, same, reported⟩
      refine ⟨counting, ?_, same, reported⟩
      simpa [or_left_comm, or_assoc] using member

/-- No finding on definitions is that one claims a reserved name. -/
theorem filter_reservedName_definitions (defined : List (Located String))
    (definitions : List (Prototype × Expr)) (scopes : Scopes) (temps : TempNames) :
    ((Lisplet.definitions arity? defined definitions scopes temps).faults.map
      LoweringFault.diagnostic).filter (Diagnostic.isOf .reservedName) = [] := by
  induction definitions generalizing defined scopes temps with
  | nil => rfl
  | cons definition rest inductionHypothesis =>
    obtain ⟨prototype, body⟩ := definition
    rw [Lisplet.definitions]
    split
    · exact inductionHypothesis defined scopes temps
    · dsimp only
      rw [List.map_append, List.filter_append, filter_isOf_bodyEmission (.inr rfl),
        List.nil_append]
      exact inductionHypothesis _ _ _

end Bodies

namespace Module

variable (module : Module) (names : TargetNames)

theorem functionDefs_kept :
    (module.kept names).functionDefs = firstDefinitions [names.entry] module.functionDefs :=
  filterMap_keptForms [names.entry] module.forms

/-- The definitions that are kept are those that count. -/
theorem functionDefs_kept_eq_firstDefinitions :
    (module.kept names).functionDefs = firstDefinitions [] (module.userDefinitions names) :=
  (functionDefs_kept module names).trans
    (firstDefinitions_filter module.functionDefs (by simp)).symm

/-- No definition that is kept claims the name of the entry function. -/
theorem name_ne_entry_of_mem_kept :
    ∀ definition ∈ (module.kept names).functionDefs,
      definition.1.name.value ≠ names.entry := by
  intro definition member
  rw [functionDefs_kept] at member
  exact List.ne_of_not_mem_cons (not_mem_taken_of_mem_firstDefinitions member)

theorem userDefinitions_kept :
    (module.kept names).userDefinitions names =
      firstDefinitions [] (module.userDefinitions names) := by
  rw [userDefinitions, List.filter_eq_self.2, functionDefs_kept_eq_firstDefinitions]
  simpa using name_ne_entry_of_mem_kept module names

theorem reservedFaults_kept : (module.kept names).reservedFaults names = [] := by
  rw [reservedFaults, List.filter_eq_nil_iff.2, List.map_nil]
  simpa using name_ne_entry_of_mem_kept module names

/-- The functions that count are declared, whether the others are there or not. -/
theorem declared_kept : (module.kept names).declared names = module.declared names := by
  have again : firstDefinitions [] (firstDefinitions [] (module.userDefinitions names)) =
      firstDefinitions [] (module.userDefinitions names) :=
    firstDefinitions_of_nodup (nodup_firstDefinitions [] _) (by simp)
  rw [declared, declared, userDefinitions_kept, again]

theorem definitions_kept :
    (module.kept names).definitions names = (module.definitions names).withoutRejections := by
  rw [definitions, definitions, declared_kept, userDefinitions_kept]
  exact definitions_firstDefinitions [] _ {} {}

theorem entryEmission_kept :
    (module.kept names).entryEmission names = module.entryEmission names := by
  rw [entryEmission, entryEmission, declared_kept, definitions_kept, ← formsEmission_filter,
    ← formsEmission_filter _ _ module.forms, kept, filter_keptForms]
  rfl

theorem target_kept : (module.kept names).target names = module.target names := by
  rw [target, target, entryEmission_kept, definitions_kept]
  rfl

/-- The findings without those that reject definitions are those on what is kept. -/
theorem faults_kept :
    (module.kept names).faults names =
      (module.faults names).filter fun fault => !fault.diagnostic.rejectsDefinition := by
  have reservedRejects : (module.reservedFaults names).filter
      (fun fault => !fault.diagnostic.rejectsDefinition) = [] := by
    refine List.filter_eq_nil_iff.2 (List.forall_mem_map.2 ?_)
    intro definition _
    exact Bool.false_ne_true
  have entryAccepted : (module.entryEmission names).faults.filter
      (fun fault => !fault.diagnostic.rejectsDefinition) = (module.entryEmission names).faults :=
    filter_of_not_rejectsDefinition (not_rejectsDefinition_formsEmission none _ _ _)
  rw [faults, faults, reservedFaults_kept, definitions_kept, entryEmission_kept,
    List.filter_append, List.filter_append, reservedRejects, entryAccepted]
  rfl

/-- Findings of an entry of the catalogue that rejects definitions are made before the
remaining forms are lowered. -/
theorem filter_isOf_faults {code : Code} (rejects : code = .redefinition ∨ code = .reservedName) :
    ((module.faults names).map LoweringFault.diagnostic).filter (Diagnostic.isOf code) =
      ((module.reservedFaults names).map LoweringFault.diagnostic).filter (Diagnostic.isOf code) ++
      ((module.definitions names).faults.map LoweringFault.diagnostic).filter
        (Diagnostic.isOf code) := by
  have entryAccepted : ((module.entryEmission names).faults.map
      LoweringFault.diagnostic).filter (Diagnostic.isOf code) = [] :=
    filter_isOf_of_not_rejectsDefinition (not_rejectsDefinition_formsEmission none _ _ _) rejects
  rw [faults, List.map_append, List.map_append, List.filter_append, List.filter_append,
    entryAccepted, List.append_nil]

/-- There is one finding of a reserved name for each definition of the name of the entry
function that is left out. -/
theorem filter_reservedName_faults :
    ((module.faults names).map LoweringFault.diagnostic).filter (Diagnostic.isOf .reservedName) =
      ((module.rejected names).filter fun definition =>
        definition.1.name.value == names.entry).map fun definition =>
          (LoweringFault.reservedName definition.1.name).diagnostic := by
  have all : ((module.reservedFaults names).map LoweringFault.diagnostic).filter
      (Diagnostic.isOf .reservedName) =
        (module.reservedFaults names).map LoweringFault.diagnostic := by
    refine List.filter_eq_self.2 (List.forall_mem_map.2 (List.forall_mem_map.2 ?_))
    intro definition _
    rfl
  rw [filter_isOf_faults module names (.inr rfl), all, definitions,
    filter_reservedName_definitions, List.append_nil, rejected,
    filter_rejectedDefinitions_of_mem List.mem_cons_self, reservedFaults, List.map_map]
  rfl

/-- There is one finding of a redefinition for each other definition that is left out. -/
theorem repeats_faults :
    List.Forall₂
      (RepeatsOneOf ((module.kept names).functionDefs.map fun definition => definition.1.name))
      ((module.rejected names).filter fun definition =>
        !(definition.1.name.value == names.entry))
      (((module.faults names).map LoweringFault.diagnostic).filter
        (Diagnostic.isOf .redefinition)) := by
  have none : ((module.reservedFaults names).map LoweringFault.diagnostic).filter
      (Diagnostic.isOf .redefinition) = [] := by
    refine List.filter_eq_nil_iff.2 (List.forall_mem_map.2 (List.forall_mem_map.2 ?_))
    intro definition _
    exact Bool.false_ne_true
  have others : ∀ name, name ∈ [names.entry] ↔ name = names.entry ∨ name ∈ [] := by simp
  rw [filter_isOf_faults module names (.inl rfl), none, List.nil_append, rejected,
    filter_rejectedDefinitions module.functionDefs others, functionDefs_kept_eq_firstDefinitions]
  exact repeats_definitions [] (module.userDefinitions names) {} {}

/-- A module is lowered to the target that it is lowered to without the definitions that are
left out, and all other findings are those made without them. Each definition of the name of
the entry function is reported once, and so is each repeated one, at its own name and at that
of the definition that counts. -/
theorem rejected_definitions_leave_no_trace :
    ∃ generator other, module.lower names = .ok generator ∧
      (module.kept names).lower names = .ok other ∧
      generator.builder.target = other.builder.target ∧
      (generator.faults.map LoweringFault.diagnostic).filter
          (fun finding => !finding.rejectsDefinition) =
        other.faults.map LoweringFault.diagnostic ∧
      (generator.faults.map LoweringFault.diagnostic).filter (Diagnostic.isOf .reservedName) =
        ((module.rejected names).filter fun definition =>
          definition.1.name.value == names.entry).map
            (fun definition => (LoweringFault.reservedName definition.1.name).diagnostic) ∧
      List.Forall₂
        (fun definition finding => ∃ kept ∈ (module.kept names).functionDefs,
          kept.1.name.value = definition.1.name.value ∧
          finding = (LoweringFault.redefinition definition.1.name kept.1.name.span).diagnostic ∧
          finding.labels = [.primary definition.1.name.span "defined again here",
            .secondary kept.1.name.span "first defined here"])
        ((module.rejected names).filter fun definition =>
          !(definition.1.name.value == names.entry))
        ((generator.faults.map LoweringFault.diagnostic).filter
          (Diagnostic.isOf .redefinition)) ∧
      module.functionDefs.Perm ((module.kept names).functionDefs ++ module.rejected names) ∧
      ((module.kept names).functionDefs.map fun definition => definition.1.name.value).Nodup := by
  refine ⟨_, _, module.lower_eq names, (module.kept names).lower_eq names,
    (target_kept module names).symm, ?_, filter_reservedName_faults module names, ?_, ?_, ?_⟩
  · dsimp only
    rw [faults_kept, List.filter_map]
    rfl
  · refine (repeats_faults module names).imp ?_
    rintro definition finding ⟨first, member, same, rfl⟩
    obtain ⟨kept, isKept, rfl⟩ := List.mem_map.1 member
    exact ⟨kept, isKept, same, rfl, rfl⟩
  · rw [functionDefs_kept]
    exact perm_firstDefinitions [names.entry] module.functionDefs
  · rw [functionDefs_kept]
    exact nodup_firstDefinitions [names.entry] module.functionDefs

end Module

end Lisplet
