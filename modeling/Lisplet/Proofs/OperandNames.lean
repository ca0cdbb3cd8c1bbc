import Lisplet.Proofs.DiagnosticOrder
import Lisplet.Proofs.ResultNumbers
import Lisplet.Proofs.TreeNesting
import Mathlib.Data.List.Duplicate
import Mathlib.Data.List.NodupEquivFin

/-!
# What the names of a listing refer to

In a listing a parameter and a result are told by their names only, both behind a percent sign.
Every name that an operand shows is introduced somewhere in its function. The results have names
of their own, so it can be introduced twice in two ways only: two parameters share it, or the
program gives a parameter the very name that the count of results comes to in that function. A
program that repeats no parameter, and gives none a name that could be counted, is safe.
-/

namespace Lisplet

namespace Text

theorem percent_not_mem_toDigits (number : Nat) : '%' ∉ Nat.toDigits 10 number := by
  intro member
  have isDigit := Nat.isDigit_of_mem_toDigits (by decide) (by decide) member
  exact absurd isDigit (by decide)

theorem percent_not_mem_integer (number : Int) : '%' ∉ (integer number).toList := by
  cases number <;> simp [integer, percent_not_mem_toDigits]

end Text

namespace Decimal

theorem percent_not_mem_significantDigits (decimal : Decimal) :
    '%' ∉ decimal.significantDigits := by
  intro member
  have kept := List.dropWhile_subset _ (List.mem_reverse.1 member)
  rw [List.mem_reverse, Nat.toList_repr] at kept
  exact Text.percent_not_mem_toDigits _ kept

theorem percent_not_mem_withPoint (marksWhole : Bool) {digits : List Char}
    (plain : '%' ∉ digits) (position : Int) :
    '%' ∉ (withPoint marksWhole digits position).toList := by
  have taken : '%' ∉ digits.take position.toNat := fun member => plain (List.mem_of_mem_take member)
  have left : '%' ∉ digits.drop position.toNat := fun member => plain (List.mem_of_mem_drop member)
  unfold withPoint
  split
  · simp [plain, Text.toList_replicate]
  split
  · cases marksWhole <;> simp [plain, Text.toList_replicate]
  · simp [taken, left]

theorem percent_not_mem_withExponent {digits : List Char} (plain : '%' ∉ digits)
    (exponent : Int) : '%' ∉ (withExponent digits exponent).toList := by
  have whole : '%' ∉ digits.take 1 := fun member => plain (List.mem_of_mem_take member)
  have fraction : '%' ∉ digits.tail := fun member => plain (List.mem_of_mem_tail member)
  unfold withExponent
  dsimp only
  split
  · simp [whole, Text.percent_not_mem_integer]
  · simp [whole, fraction, Text.percent_not_mem_integer]

end Decimal

/-- There is no percent sign in the text of a number. -/
theorem NumberLayout.percent_not_mem_format (layout : NumberLayout) (value : Float) :
    '%' ∉ (layout.format value).toList := by
  have magnitude (value : Dyadic) : '%' ∉ (layout.magnitude value).toList := by
    unfold magnitude
    split
    · split <;> decide
    · have plain := (Decimal.shortest value).percent_not_mem_significantDigits
      unfold Decimal.layOut
      dsimp only
      split
      · exact Decimal.percent_not_mem_withPoint _ plain _
      · exact Decimal.percent_not_mem_withExponent plain _
  unfold format
  cases Binary64.ofFloat value with
  | nan => simp
  | infinite negative => cases negative <;> simp
  | finite negative value => cases negative <;> simp [magnitude]

/-- An operand that shows a name is the parameter or the result of that name. -/
theorem Value.text_eq_name_iff {operand : Value} {name : String} :
    operand.text = "%" ++ name ↔ (∃ index, operand = .param index name) ∨ operand = .temp name := by
  cases operand with
  | constant value =>
    have unnamed : NumberLayout.listing.format value ≠ "%" ++ name := by
      intro same
      have absent := NumberLayout.listing.percent_not_mem_format value
      simp [same] at absent
    simpa [text] using unnamed
  | param index other => simp [text, String.append_right_inj]
  | temp other => simp [text, String.append_right_inj]

/-- Whether a name is one that a result can come to: the word for an operation, and a numeral of
at least two digits. -/
def IsResultName (name : String) : Prop :=
  ∃ stem ∈ ["sum", "mul", "call"], ∃ numeral : String, name = stem ++ numeral ∧
    2 ≤ numeral.toList.length ∧ ∀ char ∈ numeral.toList, char.isDigit

/-- Results are named after one of three words. -/
theorem stem_of_mem_namedResults {code : List Instruction} {result : NamedResult}
    (member : result ∈ namedResults code) : result.stem ∈ ["sum", "mul", "call"] := by
  obtain ⟨instruction, -, computes⟩ := List.mem_filterMap.1 member
  cases instruction with
  | arithmetic opcode =>
    cases opcode with
    | fadd =>
      cases computes
      simp
    | fmul =>
      cases computes
      simp
  | call =>
    cases computes
    simp
  | ret => cases computes

/-- Where a function introduces a name: as a parameter, or as the result of an instruction. -/
inductive NameSite where
  | param (position : Nat)
  | result (position : Nat)
deriving DecidableEq, Repr

namespace Function

/-- Whether a function introduces a name at a site. -/
def Introduces (function : Function) (name : String) : NameSite → Prop
  | .param position => function.params[position]? = some name
  | .result position => function.code[position]?.bind Instruction.dest? = some name

/-- The names that the results of a function come to if so many results stand before it in the
module: each is named after its operation and numbered. -/
def countedNames (function : Function) (earlier : Nat) : List String :=
  ((namedResults function.code).zipIdx earlier).map fun numbered =>
    numbered.1.stem ++ Text.twoDigits numbered.2

variable {function : Function} {name : String}

/-- A name that the count of results comes to is a word with a numeral. -/
theorem isResultName_of_mem_countedNames {earlier : Nat}
    (member : name ∈ function.countedNames earlier) : IsResultName name := by
  obtain ⟨⟨result, number⟩, numbered, rfl⟩ := List.mem_map.1 member
  refine ⟨result.stem, stem_of_mem_namedResults (List.fst_mem_of_mem_zipIdx numbered),
    Text.twoDigits number, rfl, ?_, ?_⟩
  · rw [← Text.zeroPadded_two, Text.zeroPadded, String.toList_append, Text.toList_replicate,
      List.length_append, List.length_replicate, String.length_toList]
    omega
  · intro char isChar
    rw [← Text.zeroPadded_two] at isChar
    exact Text.isDigit_of_mem_zeroPadded isChar

theorem exists_param_site_iff :
    (∃ position, function.Introduces name (.param position)) ↔ name ∈ function.params :=
  List.mem_iff_getElem?.symm

theorem exists_result_site_iff :
    (∃ position, function.Introduces name (.result position)) ↔ name ∈ resultsOf function.code := by
  simp only [Introduces, Option.bind_eq_some_iff, resultsOf, List.mem_filterMap]
  constructor
  · rintro ⟨position, instruction, found, computes⟩
    exact ⟨instruction, List.mem_of_getElem? found, computes⟩
  · rintro ⟨instruction, member, computes⟩
    obtain ⟨position, found⟩ := List.mem_iff_getElem?.1 member
    exact ⟨position, instruction, found, computes⟩

/-- Two parameters share a name exactly if it is counted twice among the parameters. -/
theorem exists_two_param_sites_iff :
    (∃ first second, first ≠ second ∧ function.Introduces name (.param first) ∧
      function.Introduces name (.param second)) ↔ 1 < function.params.count name := by
  rw [Nat.lt_iff_add_one_le, ← List.duplicate_iff_two_le_count,
    List.duplicate_iff_exists_distinct_get]
  constructor
  · rintro ⟨first, second, different, isFirst, isSecond⟩
    obtain ⟨firstWithin, isFirst⟩ := List.getElem?_eq_some_iff.1 isFirst
    obtain ⟨secondWithin, isSecond⟩ := List.getElem?_eq_some_iff.1 isSecond
    rcases Nat.lt_or_gt_of_ne different with before | after
    · exact ⟨⟨first, firstWithin⟩, ⟨second, secondWithin⟩, before, isFirst.symm, isSecond.symm⟩
    · exact ⟨⟨second, secondWithin⟩, ⟨first, firstWithin⟩, after, isSecond.symm, isFirst.symm⟩
  · rintro ⟨first, second, before, isFirst, isSecond⟩
    exact ⟨first, second, Nat.ne_of_lt before, List.getElem?_eq_some_iff.2 ⟨first.2, isFirst.symm⟩,
      List.getElem?_eq_some_iff.2 ⟨second.2, isSecond.symm⟩⟩

/-- If the results have names of their own, a name belongs to one of them at most. -/
theorem result_site_unique (distinct : (resultsOf function.code).Nodup) {first second : Nat}
    (isFirst : function.Introduces name (.result first))
    (isSecond : function.Introduces name (.result second)) : first = second := by
  rw [List.Nodup, resultsOf, List.pairwise_filterMap, List.pairwise_iff_getElem] at distinct
  obtain ⟨firstInstruction, isFirst, firstComputes⟩ := Option.bind_eq_some_iff.1 isFirst
  obtain ⟨secondInstruction, isSecond, secondComputes⟩ := Option.bind_eq_some_iff.1 isSecond
  obtain ⟨firstWithin, rfl⟩ := List.getElem?_eq_some_iff.1 isFirst
  obtain ⟨secondWithin, rfl⟩ := List.getElem?_eq_some_iff.1 isSecond
  by_contra different
  rcases Nat.lt_or_gt_of_ne different with before | after
  · exact distinct _ _ firstWithin secondWithin before name firstComputes name secondComputes rfl
  · exact distinct _ _ secondWithin firstWithin after name secondComputes name firstComputes rfl

/-- A name that is introduced is introduced once, unless parameters share it with each other or
with a result. -/
theorem existsUnique_site_iff (distinct : (resultsOf function.code).Nodup)
    (introduced : ∃ site, function.Introduces name site) :
    (∃! site, function.Introduces name site) ↔
      function.params.count name ≤ 1 ∧
        (name ∈ function.params → name ∉ resultsOf function.code) := by
  rw [← not_lt, ← exists_two_param_sites_iff, ← exists_param_site_iff, ← exists_result_site_iff]
  constructor
  · intro once
    constructor
    · rintro ⟨first, second, different, isFirst, isSecond⟩
      exact different (NameSite.param.inj (once.unique isFirst isSecond))
    · rintro ⟨first, isFirst⟩ ⟨second, isSecond⟩
      cases once.unique isFirst isSecond
  · rintro ⟨noTwoParams, apart⟩
    obtain ⟨site, isSite⟩ := introduced
    refine ⟨site, isSite, ?_⟩
    intro other isOther
    cases other with
    | param first =>
      cases site with
      | param second =>
        by_contra different
        exact noTwoParams ⟨first, second, fun same => different (congrArg _ same), isOther, isSite⟩
      | result second => exact absurd ⟨second, isSite⟩ (apart ⟨first, isOther⟩)
    | result first =>
      cases site with
      | param second => exact absurd ⟨first, isOther⟩ (apart ⟨second, isSite⟩)
      | result second => exact congrArg _ (result_site_unique distinct isOther isSite)

/-- In well formed code a name that an operand shows is introduced. -/
theorem WellFormed.exists_site {target : Target} (wellFormed : function.WellFormed target)
    {instruction : Instruction} (member : instruction ∈ function.code) {operand : Value}
    (used : operand ∈ instruction.operands) (shown : operand.text = "%" ++ name) :
    ∃ site, function.Introduces name site := by
  rcases Value.text_eq_name_iff.1 shown with ⟨index, rfl⟩ | rfl
  · exact ⟨.param index, (wellFormed.paramsOwn instruction member index name used).2⟩
  · obtain ⟨before, after, split⟩ := List.append_of_mem member
    obtain ⟨earlier, isEarlier, computes⟩ :=
      wellFormed.tempsComputed before instruction after split name used
    have isResult : name ∈ resultsOf function.code := by
      rw [split, resultsOf_append]
      exact List.mem_append_left _ (List.mem_filterMap.2 ⟨earlier, isEarlier, computes⟩)
    obtain ⟨position, isSite⟩ := exists_result_site_iff.2 isResult
    exact ⟨.result position, isSite⟩

/-- The results of a function that goes on counting bear the names that the count comes to. -/
theorem resultsOf_eq_countedNames {earlier next : Nat}
    (numbered : Numbered earlier function.code next) :
    resultsOf function.code = function.countedNames earlier := by
  rw [resultsOf_eq_map_namedResults, numbered.names, countedNames]
  simp only [TempNames.nameOf, Text.zeroPadded_two]

end Function

namespace Module

variable {module : Module} {names : TargetNames} {function : Function}

/-- All functions of a module are well formed, the entry function included. -/
theorem wellFormed_of_listed
    (member : function ∈ (module.target names).functions ++ (module.target names).entry.toList) :
    function.WellFormed (module.target names) := by
  rcases List.mem_append.1 member with isUser | isEntry
  · exact (isRunnable_of_mem_target isUser).wellFormed
  · cases List.mem_singleton.1 isEntry
    exact (module.isRunnable_entry names).wellFormed

/-- A function goes on counting where the functions listed before it have stopped. -/
theorem numbered_of_listed {before after : List Function}
    (listed : (module.target names).functions ++ (module.target names).entry.toList =
      before ++ function :: after) :
    ∃ next, Numbered (namedResults (before.flatMap Function.code)).length function.code next := by
  have numbered := module.numbered_target names
  rw [Target.code, listed, List.flatMap_append, List.flatMap_cons] at numbered
  have rest := numbered.of_append.2.of_append.1
  rw [Nat.zero_add] at rest
  exact ⟨_, rest⟩

/-- The results of a function bear the names that the count of results comes to. -/
theorem resultsOf_of_listed {before after : List Function}
    (listed : (module.target names).functions ++ (module.target names).entry.toList =
      before ++ function :: after) :
    resultsOf function.code =
      function.countedNames (namedResults (before.flatMap Function.code)).length := by
  obtain ⟨next, numbered⟩ := numbered_of_listed listed
  exact Function.resultsOf_eq_countedNames numbered

/-- A name that an operand shows is introduced once, unless parameters share it with each other
or with the count of results. -/
theorem existsUnique_site_iff_of_listed {before after : List Function}
    (listed : (module.target names).functions ++ (module.target names).entry.toList =
      before ++ function :: after)
    {instruction : Instruction} (member : instruction ∈ function.code) {operand : Value}
    (used : operand ∈ instruction.operands) {name : String} (shown : operand.text = "%" ++ name) :
    (∃! site, function.Introduces name site) ↔
      function.params.count name ≤ 1 ∧ (name ∈ function.params →
        name ∉ function.countedNames (namedResults (before.flatMap Function.code)).length) := by
  obtain ⟨next, numbered⟩ := numbered_of_listed listed
  have isListed : function ∈ (module.target names).functions ++
      (module.target names).entry.toList := by
    rw [listed]
    exact List.mem_append_right _ List.mem_cons_self
  have wellFormed := wellFormed_of_listed isListed
  rw [← resultsOf_of_listed listed]
  exact Function.existsUnique_site_iff numbered.nodup (wellFormed.exists_site member used shown)

/-- The parameters of a function are those of a definition; the entry function has none. -/
theorem params_of_listed
    (member : function ∈ (module.target names).functions ++ (module.target names).entry.toList) :
    function.params = [] ∨ ∃ definition ∈ module.functionDefs,
      function.params = definition.1.params.map Located.value := by
  rcases List.mem_append.1 member with isUser | isEntry
  · right
    have signature : function.signature ∈
        (module.target names).functions.map Function.signature := List.mem_map_of_mem isUser
    rw [target, definitions, signature_definitions] at signature
    obtain ⟨definition, counts, same⟩ := List.mem_map.1 signature
    have kept := List.mem_of_mem_filter (firstDefinitions_subset counts)
    exact ⟨definition, kept, (congrArg Prod.snd same).symm⟩
  · left
    cases List.mem_singleton.1 isEntry
    rfl

end Module

/-- In every function of a target that was built, the names of results and parameters differ
exactly if the program gives no parameter a name that the count of results comes to in that
function. A name that an operand shows is introduced once exactly if it is no such name of a
parameter and no two parameters share it. -/
theorem build_introduces_names_once {config : Config} {source : String} {target : Target}
    (built : build config source = .ok target) {before after : List Function}
    {function : Function}
    (listed : target.functions ++ target.entry.toList = before ++ function :: after) :
    let counted := function.countedNames (namedResults (before.flatMap Function.code)).length
    ((∀ dest ∈ resultsOf function.code, dest ∉ function.params) ↔
      ∀ param ∈ function.params, param ∉ counted) ∧
    ∀ instruction ∈ function.code, ∀ operand ∈ instruction.operands, ∀ name,
      operand.text = "%" ++ name →
        ((∃! site, function.Introduces name site) ↔
          function.params.count name ≤ 1 ∧ (name ∈ function.params → name ∉ counted)) := by
  intro counted
  obtain ⟨module, -, -, rfl⟩ := build_eq_ok_iff.1 built
  constructor
  · rw [Module.resultsOf_of_listed listed]
    exact ⟨fun apart param member counts => apart param counts member,
      fun apart dest counts member => apart dest member counts⟩
  · intro instruction member operand used name shown
    exact Module.existsUnique_site_iff_of_listed listed member used shown

/-- If no definition of a program repeats a parameter, and none gives a parameter a name that a
result can come to, then every name that an operand shows is introduced once. -/
theorem existsUnique_site_of_build {config : Config} {source : String} {target : Target}
    {module : Module} (built : build config source = .ok target)
    (analysed : (Module.ofSource source).result = .ok module)
    (plain : ∀ definition ∈ module.functionDefs,
      (definition.1.params.map Located.value).Nodup ∧
        ∀ param ∈ definition.1.params, ¬ IsResultName param.value)
    {function : Function} (isListed : function ∈ target.functions ++ target.entry.toList)
    {instruction : Instruction} (member : instruction ∈ function.code) {operand : Value}
    (used : operand ∈ instruction.operands) {name : String} (shown : operand.text = "%" ++ name) :
    ∃! site, function.Introduces name site := by
  obtain ⟨same, isSame, -, rfl⟩ := build_eq_ok_iff.1 built
  cases analysed.symm.trans isSame
  obtain ⟨before, after, listed⟩ := List.append_of_mem isListed
  refine (Module.existsUnique_site_iff_of_listed listed member used shown).2 ?_
  rcases Module.params_of_listed isListed with none | ⟨definition, isDefinition, params⟩
  · simp [none]
  · obtain ⟨distinct, unlike⟩ := plain definition isDefinition
    rw [params]
    refine ⟨List.nodup_iff_count_le_one.1 distinct name, ?_⟩
    intro isParam isCounted
    obtain ⟨param, declared, rfl⟩ := List.mem_map.1 isParam
    exact unlike param declared (Function.isResultName_of_mem_countedNames isCounted)

/-- Three functions with parameters of awkward names: the first bears the name of a result, two
share a name, and the last bears the name of a result in another function. -/
def homonymSource : String :=
  "(defun (f sum00) (sum sum00 sum00)) (defun (g x x) x) (defun (h sum00) (mul sum00 sum00))"

def homonymTokens : List (Located Token) :=
  [⟨.openParen, .ofBounds 0 1⟩, ⟨.identifier "defun", .ofBounds 1 6⟩, ⟨.openParen, .ofBounds 7 8⟩,
    ⟨.identifier "f", .ofBounds 8 9⟩, ⟨.identifier "sum00", .ofBounds 10 15⟩,
    ⟨.closeParen, .ofBounds 15 16⟩, ⟨.openParen, .ofBounds 17 18⟩,
    ⟨.identifier "sum", .ofBounds 18 21⟩, ⟨.identifier "sum00", .ofBounds 22 27⟩,
    ⟨.identifier "sum00", .ofBounds 28 33⟩, ⟨.closeParen, .ofBounds 33 34⟩,
    ⟨.closeParen, .ofBounds 34 35⟩, ⟨.openParen, .ofBounds 36 37⟩,
    ⟨.identifier "defun", .ofBounds 37 42⟩, ⟨.openParen, .ofBounds 43 44⟩,
    ⟨.identifier "g", .ofBounds 44 45⟩, ⟨.identifier "x", .ofBounds 46 47⟩,
    ⟨.identifier "x", .ofBounds 48 49⟩, ⟨.closeParen, .ofBounds 49 50⟩,
    ⟨.identifier "x", .ofBounds 51 52⟩, ⟨.closeParen, .ofBounds 52 53⟩,
    ⟨.openParen, .ofBounds 54 55⟩, ⟨.identifier "defun", .ofBounds 55 60⟩,
    ⟨.openParen, .ofBounds 61 62⟩, ⟨.identifier "h", .ofBounds 62 63⟩,
    ⟨.identifier "sum00", .ofBounds 64 69⟩, ⟨.closeParen, .ofBounds 69 70⟩,
    ⟨.openParen, .ofBounds 71 72⟩, ⟨.identifier "mul", .ofBounds 72 75⟩,
    ⟨.identifier "sum00", .ofBounds 76 81⟩, ⟨.identifier "sum00", .ofBounds 82 87⟩,
    ⟨.closeParen, .ofBounds 87 88⟩, ⟨.closeParen, .ofBounds 88 89⟩, ⟨.endOfFile, .point 89⟩]

def homonymTree : Module :=
  ⟨[.list (.ofBounds 0 35) [.identifier (.ofBounds 1 6) "defun",
      .list (.ofBounds 7 16)
        [.identifier (.ofBounds 8 9) "f", .identifier (.ofBounds 10 15) "sum00"],
      .list (.ofBounds 17 34) [.identifier (.ofBounds 18 21) "sum",
        .identifier (.ofBounds 22 27) "sum00", .identifier (.ofBounds 28 33) "sum00"]],
    .list (.ofBounds 36 53) [.identifier (.ofBounds 37 42) "defun",
      .list (.ofBounds 43 50) [.identifier (.ofBounds 44 45) "g",
        .identifier (.ofBounds 46 47) "x", .identifier (.ofBounds 48 49) "x"],
      .identifier (.ofBounds 51 52) "x"],
    .list (.ofBounds 54 89) [.identifier (.ofBounds 55 60) "defun",
      .list (.ofBounds 61 70)
        [.identifier (.ofBounds 62 63) "h", .identifier (.ofBounds 64 69) "sum00"],
      .list (.ofBounds 71 88) [.identifier (.ofBounds 72 75) "mul",
        .identifier (.ofBounds 76 81) "sum00", .identifier (.ofBounds 82 87) "sum00"]]]⟩

def homonymModule : Module :=
  ⟨[.functionDef (.ofBounds 0 35)
      ⟨⟨"f", .ofBounds 8 9⟩, [⟨"sum00", .ofBounds 10 15⟩], .ofBounds 7 16⟩
      (.arithmetic (.ofBounds 17 34) .sum (.identifier (.ofBounds 22 27) "sum00")
        (.identifier (.ofBounds 28 33) "sum00")),
    .functionDef (.ofBounds 36 53)
      ⟨⟨"g", .ofBounds 44 45⟩, [⟨"x", .ofBounds 46 47⟩, ⟨"x", .ofBounds 48 49⟩], .ofBounds 43 50⟩
      (.identifier (.ofBounds 51 52) "x"),
    .functionDef (.ofBounds 54 89)
      ⟨⟨"h", .ofBounds 62 63⟩, [⟨"sum00", .ofBounds 64 69⟩], .ofBounds 61 70⟩
      (.arithmetic (.ofBounds 71 88) .mul (.identifier (.ofBounds 76 81) "sum00")
        (.identifier (.ofBounds 82 87) "sum00"))]⟩

/-- A function that combines its only parameter with itself. -/
def selfCombining (name param : String) (opcode : Opcode) (dest : String) : Function :=
  ⟨name, [param], [⟨"entry",
    [.arithmetic opcode dest (.param 0 param) (.param 0 param), .ret (.temp dest)]⟩]⟩

/-- A function of two parameters of one name. -/
def homonymous (name param : String) : Function :=
  ⟨name, [param, param], [⟨"entry", [.ret (.param 1 param)]⟩]⟩

def homonymTarget : Target where
  name := "lisp compiler"
  functions := [selfCombining "f" "sum00" .fadd "sum00", homonymous "g" "x",
    selfCombining "h" "sum00" .fmul "mul01"]
  entry := some ⟨"main", [], [⟨"entry", [.ret Generator.noValue]⟩]⟩

theorem build_homonymSource : build {} homonymSource = .ok homonymTarget := by
  have scanned : (PaddedText.ofSource homonymSource).tokens = .ok homonymTokens := by
    decide +kernel
  have balanced : balance homonymTokens = .ok 0 := rfl
  have read : Module.ofTokens homonymTokens = .ok homonymTree :=
    (Module.ofTokens_eq_ok_iff _ _).2 rfl
  have arrived : homonymTree.desugar.result = .ok homonymModule := by
    rw [Module.desugar_eq_sweep]
    rfl
  have analysed : (Module.ofSource homonymSource).result = .ok homonymModule :=
    Module.result_ofSource_eq_ok_iff.2 ⟨_, _, _, scanned, balanced, read, arrived⟩
  have clean : homonymModule.faults {} = [] := by decide +kernel
  have lowered : homonymModule.target {} = homonymTarget := by decide +kernel
  exact build_eq_ok_iff.2 ⟨_, analysed, clean, lowered⟩

/-- A parameter can bear the name of a result, and two parameters can share a name. The name that
the operands of the function show is then introduced twice. -/
theorem build_introduces_names_twice :
    build {} homonymSource = .ok homonymTarget ∧
      (∃ function ∈ homonymTarget.functions, ∃ instruction ∈ function.code,
        (∃ dest ∈ function.params, instruction.dest? = some dest) ∧
        (∃ operand ∈ instruction.operands, operand.text = "%sum00") ∧
        ¬ ∃! site, function.Introduces "sum00" site) ∧
      ∃ function ∈ homonymTarget.functions, resultsOf function.code = [] ∧
        (∃ instruction ∈ function.code, ∃ operand ∈ instruction.operands, operand.text = "%x") ∧
        ¬ ∃! site, function.Introduces "x" site := by
  refine ⟨build_homonymSource, ⟨selfCombining "f" "sum00" .fadd "sum00", by decide, ?_⟩,
    ⟨homonymous "g" "x", by decide, rfl, ?_, ?_⟩⟩
  · refine ⟨.arithmetic .fadd "sum00" (.param 0 "sum00") (.param 0 "sum00"), by decide,
      ⟨"sum00", by decide, rfl⟩, ⟨.param 0 "sum00", by decide, by decide⟩, ?_⟩
    intro once
    have isParam : (selfCombining "f" "sum00" .fadd "sum00").Introduces "sum00" (.param 0) := rfl
    have isResult : (selfCombining "f" "sum00" .fadd "sum00").Introduces "sum00" (.result 0) := rfl
    cases once.unique isParam isResult
  · exact ⟨.ret (.param 1 "x"), by decide, .param 1 "x", by decide, by decide⟩
  · intro once
    have isFirst : (homonymous "g" "x").Introduces "x" (.param 0) := rfl
    have isSecond : (homonymous "g" "x").Introduces "x" (.param 1) := rfl
    cases once.unique isFirst isSecond

/-- The parameter of the last function bears the name of the first result, but the count has gone
on by then. -/
theorem build_introduces_names_once_behind_homonyms :
    build {} homonymSource = .ok homonymTarget ∧
      (∀ dest ∈ resultsOf (selfCombining "h" "sum00" .fmul "mul01").code, dest ∉ ["sum00"]) ∧
      ∃! site, (selfCombining "h" "sum00" .fmul "mul01").Introduces "sum00" site := by
  have listed : homonymTarget.functions ++ homonymTarget.entry.toList =
      [selfCombining "f" "sum00" .fadd "sum00", homonymous "g" "x"] ++
        selfCombining "h" "sum00" .fmul "mul01" :: homonymTarget.entry.toList := rfl
  obtain ⟨apart, once⟩ := build_introduces_names_once build_homonymSource listed
  have uncounted : "sum00" ∉ (selfCombining "h" "sum00" .fmul "mul01").countedNames 1 := by decide
  refine ⟨build_homonymSource, apart.2 ?_, ?_⟩
  · intro param member
    cases List.mem_singleton.1 member
    exact uncounted
  · refine (once (.arithmetic .fmul "mul01" (.param 0 "sum00") (.param 0 "sum00")) (by decide)
      (.param 0 "sum00") (by decide) "sum00" (by decide)).2 ⟨by decide, ?_⟩
    exact fun _ => uncounted

end Lisplet
