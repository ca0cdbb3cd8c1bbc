import Lisplet.Proofs.ScopeLaws
import Mathlib.Data.Finset.Card

/-!
# Scopes and their history

Scopes keep values, owners, parameters and the function at hand in step, under every order
of entering functions, leaving them and binding globals. `Scopes.History` forgets the
bookkeeping: what a name stands for is told by the latest function that was entered and the
latest binding of the name. Scopes that reflect a history go on to reflect it with every
operation, so they agree with it after all of them.
-/

namespace Lisplet

namespace Scopes

/-- What can be done to scopes. -/
inductive Operation where
  | enterFunction (function : String) (params : List String)
  | leaveFunction
  | bindGlobal (name : String) (value : Value)
deriving DecidableEq, Repr

/-- The name of the global that an operation binds. -/
def Operation.boundName? : Operation → Option String
  | bindGlobal name _ => some name
  | _ => none

/-- The scopes once an operation is done. -/
def perform (scopes : Scopes) : Operation → Scopes
  | .enterFunction function params => scopes.enterFunction function params
  | .leaveFunction => scopes.leaveFunction
  | .bindGlobal name value => scopes.bindGlobal name value

/-- The scopes after operations on new ones, in order. -/
def run (operations : List Operation) : Scopes :=
  operations.foldl perform {}

/-- Operations on new scopes, the latest first. -/
abbrev History := List Operation

/-- A value that a global was bound to, and the function that was at hand then. -/
structure Binding where
  value : Value
  function? : Option String

/-- The only function that may use the value, if there is such a function. -/
def Binding.owner? (binding : Binding) : Option String :=
  if binding.value.isConstant then none else binding.function?

namespace History

/-- The function at hand and its parameters: the one entered last, if none was left since. -/
def atHand? : History → Option (String × List String)
  | [] => none
  | .enterFunction function params :: _ => some (function, params)
  | .leaveFunction :: _ => none
  | .bindGlobal _ _ :: earlier => atHand? earlier

/-- The function at hand. -/
def current? (history : History) : Option String :=
  history.atHand?.map Prod.fst

/-- The parameters of the function at hand. -/
def params (history : History) : List String :=
  (history.atHand?.map Prod.snd).getD []

/-- The latest binding of a global. -/
def latest? (name : String) : History → Option Binding
  | [] => none
  | .bindGlobal bound value :: earlier =>
    if bound = name then some ⟨value, current? earlier⟩ else latest? name earlier
  | .enterFunction _ _ :: earlier => latest? name earlier
  | .leaveFunction :: earlier => latest? name earlier

/-- What a name stands for after a history: the last parameter of that name, or else the
value of the latest binding, where it can be used. -/
inductive StandsFor (history : History) (name : String) : Resolution → Prop where
  | param {position : Nat} (named : history.params[position]? = some name)
      (last : ∀ later, position < later → history.params[later]? ≠ some name) :
      StandsFor history name (.value (.param position name))
  | unbound (noParam : name ∉ history.params) (never : history.latest? name = none) :
      StandsFor history name .unbound
  | global {binding : Binding} (noParam : name ∉ history.params)
      (latest : history.latest? name = some binding)
      (usable : binding.value.isConstant ∨ binding.function? = none ∨
        binding.function? = history.current?) :
      StandsFor history name (.value binding.value)
  | foreign {binding : Binding} {owner : String} (noParam : name ∉ history.params)
      (latest : history.latest? name = some binding) (computed : ¬ binding.value.isConstant)
      (inside : binding.function? = some owner) (elsewhere : history.current? ≠ some owner) :
      StandsFor history name (.foreign owner)

theorem latest?_bindGlobal_self (name : String) (value : Value) (history : History) :
    latest? name (.bindGlobal name value :: history) = some ⟨value, history.current?⟩ := by
  simp [latest?]

theorem latest?_bindGlobal_of_ne {name other : String} (different : other ≠ name) (value : Value)
    (history : History) :
    latest? other (.bindGlobal name value :: history) = history.latest? other := by
  simp [latest?, different.symm]

/-- A name has no latest binding exactly if no operation binds it. -/
theorem latest?_eq_none_iff {name : String} {history : History} :
    history.latest? name = none ↔ name ∉ history.filterMap Operation.boundName? := by
  induction history with
  | nil => simp [latest?]
  | cons operation earlier inductionHypothesis =>
    cases operation with
    | enterFunction function params =>
      simpa [latest?, Operation.boundName?] using inductionHypothesis
    | leaveFunction => simpa [latest?, Operation.boundName?] using inductionHypothesis
    | bindGlobal bound value =>
      by_cases same : name = bound
      · subst same
        simp [latest?, Operation.boundName?]
      · rw [latest?_bindGlobal_of_ne same, inductionHypothesis]
        simp [Operation.boundName?, same]

end History

section Parameters

/-- A name that is no parameter stays what it was. -/
theorem get?_bindParams_of_not_mem {params : List String} {name : String}
    (absent : name ∉ params) (index : Nat) (locals : Bindings Value) :
    (bindParams index params locals).get? name = locals.get? name := by
  induction params generalizing index locals with
  | nil => rfl
  | cons param rest inductionHypothesis =>
    rw [bindParams, inductionHypothesis (List.not_mem_of_not_mem_cons absent),
      Bindings.get?_bind_of_ne _ _ (List.ne_of_not_mem_cons absent)]

/-- A name stands for the last parameter that bears it. -/
theorem get?_bindParams_of_last {params : List String} {name : String} {position : Nat}
    (named : params[position]? = some name)
    (last : ∀ later, position < later → params[later]? ≠ some name) (index : Nat)
    (locals : Bindings Value) :
    (bindParams index params locals).get? name = some (.param (index + position) name) := by
  induction params generalizing position index locals with
  | nil => cases named
  | cons param rest inductionHypothesis =>
    have lastInRest : ∀ later, position < later + 1 → rest[later]? ≠ some name :=
      fun later after => last (later + 1) after
    cases position with
    | zero =>
      have absent : name ∉ rest := by
        intro member
        obtain ⟨later, found⟩ := List.mem_iff_getElem?.1 member
        exact lastInRest later (Nat.succ_pos later) found
      have same : param = name := by simpa using named
      rw [bindParams, get?_bindParams_of_not_mem absent, same, Bindings.get?_bind_self]
      rfl
    | succ before =>
      have namedInRest : rest[before]? = some name := by simpa using named
      rw [bindParams, inductionHypothesis namedInRest fun later after =>
        lastInRest later (Nat.succ_lt_succ after), Nat.add_right_comm, Nat.add_assoc]

/-- Every parameter has a last position. -/
theorem exists_last_position {params : List String} {name : String} (member : name ∈ params) :
    ∃ position : Nat, params[position]? = some name ∧
      ∀ later, position < later → params[later]? ≠ some name := by
  induction params with
  | nil => cases member
  | cons param rest inductionHypothesis =>
    by_cases again : name ∈ rest
    · obtain ⟨position, named, last⟩ := inductionHypothesis again
      refine ⟨position + 1, by simpa using named, ?_⟩
      intro later after
      cases later with
      | zero => omega
      | succ later => exact last later (by omega)
    · have first : param = name := by simpa [again, eq_comm] using member
      refine ⟨0, by simp [first], ?_⟩
      intro later after found
      cases later with
      | zero => omega
      | succ later => exact again (List.mem_of_getElem? found)

end Parameters

/-- A computed value belongs to the function in which it is bound, a constant to nobody. -/
theorem get?_ownersAfter_self (scopes : Scopes) (name : String) (value : Value) :
    (scopes.ownersAfter name value).get? name = Binding.owner? ⟨value, scopes.current⟩ := by
  cases value <;> cases current : scopes.current <;>
    simp [ownersAfter, current, Binding.owner?, Value.isConstant]

/-- Whether scopes hold what their history tells. -/
structure Reflects (scopes : Scopes) (history : History) : Prop where
  current : scopes.current = history.current?
  locals : scopes.locals = bindParams 0 history.params .empty
  globals : ∀ name, scopes.globals.get? name = (history.latest? name).map Binding.value
  owners : ∀ name, scopes.owners.get? name = (history.latest? name).bind Binding.owner?

theorem reflects_new : ({} : Scopes).Reflects [] :=
  ⟨rfl, rfl, fun _ => rfl, fun _ => rfl⟩

variable {scopes : Scopes} {history : History}

/-- A binding becomes the latest one of its name. -/
theorem Reflects.bindGlobal (reflects : scopes.Reflects history) (name : String) (value : Value) :
    (scopes.bindGlobal name value).Reflects (.bindGlobal name value :: history) where
  current := reflects.current
  locals := reflects.locals
  globals other := by
    by_cases same : other = name
    · rw [same, History.latest?_bindGlobal_self]
      exact Bindings.get?_bind_self _ _ _
    · rw [History.latest?_bindGlobal_of_ne same, ← reflects.globals]
      exact Bindings.get?_bind_of_ne _ _ same
  owners other := by
    by_cases same : other = name
    · rw [same, History.latest?_bindGlobal_self, ← reflects.current]
      exact scopes.get?_ownersAfter_self name value
    · rw [History.latest?_bindGlobal_of_ne same, ← reflects.owners]
      exact scopes.ownersAfter_get?_of_ne value same

/-- Scopes that reflect a history reflect it with every further operation. -/
theorem Reflects.perform (reflects : scopes.Reflects history) (operation : Operation) :
    (scopes.perform operation).Reflects (operation :: history) := by
  cases operation with
  | enterFunction function params => exact ⟨rfl, rfl, reflects.globals, reflects.owners⟩
  | leaveFunction => exact ⟨rfl, rfl, reflects.globals, reflects.owners⟩
  | bindGlobal name value => exact reflects.bindGlobal name value

theorem Reflects.foldl_perform (reflects : scopes.Reflects history)
    (operations : List Operation) :
    (operations.foldl Scopes.perform scopes).Reflects (operations.reverse ++ history) := by
  induction operations generalizing scopes history with
  | nil => exact reflects
  | cons operation rest inductionHypothesis =>
    rw [List.reverse_cons, List.append_assoc]
    exact inductionHypothesis (reflects.perform operation)

/-- Scopes reflect all that was done to them. -/
theorem reflects_run (operations : List Operation) :
    (run operations).Reflects operations.reverse := by
  have reflects := reflects_new.foldl_perform operations
  rwa [List.append_nil] at reflects

/-- A name that is no parameter stands for its latest binding, where that can be used. -/
theorem Reflects.resolve_of_no_param (reflects : scopes.Reflects history) {name : String}
    (noParam : name ∉ history.params) :
    scopes.resolve name =
      match history.latest? name with
      | none => .unbound
      | some binding =>
        match binding.owner? with
        | none => .value binding.value
        | some owner =>
          if history.current? = some owner then .value binding.value else .foreign owner := by
  have notLocal : scopes.locals.get? name = none := by
    rw [reflects.locals, get?_bindParams_of_not_mem noParam, Bindings.get?_empty]
  simp only [resolve, notLocal, reflects.globals name, reflects.owners name, reflects.current]
  cases history.latest? name <;> rfl

/-- What the history says a name stands for is what it is resolved to. -/
theorem Reflects.resolve_of_standsFor (reflects : scopes.Reflects history) {name : String}
    {resolution : Resolution} (standsFor : history.StandsFor name resolution) :
    scopes.resolve name = resolution := by
  cases standsFor with
  | param named last =>
    have isLocal := get?_bindParams_of_last named last 0 .empty
    rw [← reflects.locals, Nat.zero_add] at isLocal
    exact resolve_of_local isLocal
  | unbound noParam never =>
    rw [reflects.resolve_of_no_param noParam, never]
  | @global binding noParam latest usable =>
    rw [reflects.resolve_of_no_param noParam, latest]
    by_cases constant : binding.value.isConstant
    · simp [Binding.owner?, constant]
    · rcases usable with isConstant | outside | own
      · exact absurd isConstant constant
      · simp [Binding.owner?, outside]
      · cases function : binding.function? <;> simp [Binding.owner?, constant, ← own, function]
  | foreign noParam latest computed inside elsewhere =>
    rw [reflects.resolve_of_no_param noParam, latest]
    simp [Binding.owner?, computed, inside, elsewhere]

end Scopes

/-- A name stands for something after every history. -/
theorem Scopes.History.exists_standsFor (history : History) (name : String) :
    ∃ resolution, history.StandsFor name resolution := by
  by_cases isParam : name ∈ history.params
  · obtain ⟨position, named, last⟩ := exists_last_position isParam
    exact ⟨_, .param named last⟩
  · cases latest : history.latest? name with
    | none => exact ⟨_, .unbound isParam latest⟩
    | some binding =>
      by_cases usable : binding.value.isConstant ∨ binding.function? = none ∨
          binding.function? = history.current?
      · exact ⟨_, .global isParam latest usable⟩
      · obtain ⟨computed, notOutside, elsewhere⟩ : ¬ binding.value.isConstant ∧
            binding.function? ≠ none ∧ binding.function? ≠ history.current? := by
          simpa only [not_or] using usable
        obtain ⟨owner, inside⟩ := Option.ne_none_iff_exists'.1 notOutside
        exact ⟨_, .foreign isParam latest computed inside
          fun same => elsewhere (inside.trans same.symm)⟩

namespace Bindings

/-- A name has no value exactly if no entry binds it. -/
theorem get?_eq_none_iff {α : Type} {bindings : Bindings α} {name : String} :
    bindings.get? name = none ↔ name ∉ bindings.entries.map Prod.fst := by
  rw [get?, List.lookup_eq_none_iff, List.mem_map]
  constructor
  · rintro passed ⟨entry, member, rfl⟩
    simpa using passed entry member
  · intro absent entry member
    exact bne_iff_ne.2 fun same => absent ⟨entry, member, same.symm⟩

/-- The number of bindings is the number of names that have a value. -/
theorem size_eq_card {α : Type} {bindings : Bindings α} {names : List String}
    (bound : ∀ name, bindings.get? name = none ↔ name ∉ names) :
    bindings.size = names.toFinset.card := by
  have sameNames : (bindings.entries.map Prod.fst).toFinset = names.toFinset := by
    ext name
    rw [List.mem_toFinset, List.mem_toFinset, ← not_iff_not, ← bound, get?_eq_none_iff]
  rw [← sameNames, List.toFinset_card_of_nodup bindings.distinct, List.length_map, size]

end Bindings

namespace Scopes

/-- The value that can be used is the value that the name stands for. -/
theorem lookup?_eq_some_iff {scopes : Scopes} {name : String} {value : Value} :
    scopes.lookup? name = some value ↔ scopes.resolve name = .value value := by
  rw [lookup?]
  cases scopes.resolve name <;> simp

/-- Scopes refine their history. After any operations, a name is resolved to what the history
says it stands for, `lookup?` finds it exactly if that is a value, `global?` finds the value
of the latest binding, and as many globals are kept as names were bound. -/
theorem run_refines_history (operations : List Operation) (name : String) :
    let scopes := run operations
    let history : History := operations.reverse
    (∀ resolution, scopes.resolve name = resolution ↔ history.StandsFor name resolution) ∧
    (∀ value, scopes.lookup? name = some value ↔ scopes.resolve name = .value value) ∧
    scopes.global? name = (history.latest? name).map Binding.value ∧
    scopes.globals.size = (operations.filterMap Operation.boundName?).toFinset.card := by
  intro scopes history
  have reflects : scopes.Reflects history := reflects_run operations
  refine ⟨?_, fun _ => lookup?_eq_some_iff, reflects.globals name, ?_⟩
  · intro resolution
    constructor
    · intro resolved
      obtain ⟨meaning, standsFor⟩ := history.exists_standsFor name
      have same : meaning = resolution :=
        (reflects.resolve_of_standsFor standsFor).symm.trans resolved
      exact same ▸ standsFor
    · exact reflects.resolve_of_standsFor
  · apply Bindings.size_eq_card
    intro other
    rw [reflects.globals, Option.map_eq_none_iff, History.latest?_eq_none_iff]
    simp [history]

end Scopes

end Lisplet
