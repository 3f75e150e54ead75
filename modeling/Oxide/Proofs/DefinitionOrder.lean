/-
This file proves that it makes no difference in which order a module defines its functions. They
are all bound before any of them is lowered, so what a name stands for hangs on the definitions of
that name alone, the last of which counts. A module whose statements are put into another order, in
which neither the functions of one name nor the statements that define no function change places
with each other, is lowered with a table that binds the same names to the same symbols. Every
function is then written as it was before, only in another place, and so is the main function.
-/

import Mathlib.Data.List.Induction
import Oxide.Proofs.ModuleEmission
import Oxide.Proofs.TableView

namespace Oxide

/-! ### Tables with the same bindings -/

/-- Two scopes that bind the same names to the same symbols. -/
structure Scope.SameBindings (first second : Scope) : Prop where
  kind : first.kind = second.kind
  name : first.name = second.name
  find (name : String) : Bindings.find? name first.bindings = Bindings.find? name second.bindings

/-- Two tables that bind the same names to the same symbols, scope by scope. -/
def Table.SameBindings (first second : Table) : Prop :=
  List.Forall₂ Scope.SameBindings first.scopes second.scopes

namespace Table.SameBindings

variable {first second : Table}

theorem refl (table : Table) : table.SameBindings table :=
  List.forall₂_same.mpr fun _ _ => ⟨rfl, rfl, fun _ => rfl⟩

theorem parts (same : first.SameBindings second) :
    Scope.SameBindings first.parts.1 second.parts.1 ∧
      List.Forall₂ Scope.SameBindings first.parts.2 second.parts.2 := by
  obtain ⟨scopes⟩ := first
  obtain ⟨others⟩ := second
  cases same with
  | nil => exact ⟨⟨rfl, rfl, fun _ => rfl⟩, .nil⟩
  | cons inner outer => exact ⟨inner, outer⟩

theorem insert (same : first.SameBindings second) (name : String) (symbol : Symbol) :
    (first.insert name symbol).SameBindings (second.insert name symbol) := by
  obtain ⟨inner, outer⟩ := same.parts
  refine .cons ⟨inner.kind, inner.name, fun other => ?_⟩ outer
  by_cases isName : other = name
  · subst isName
    rw [Bindings.find?_insert_self, Bindings.find?_insert_self]
  · rw [Bindings.find?_insert_of_ne isName, Bindings.find?_insert_of_ne isName]
    exact inner.find other

theorem lookupLocal_eq (same : first.SameBindings second) (name : String) :
    first.lookupLocal name = second.lookupLocal name :=
  same.parts.1.find name

/-- The names have the same symbols when they are looked up through all scopes. -/
theorem related (same : first.SameBindings second) : first.Related Eq second := by
  intro name
  obtain ⟨scopes⟩ := first
  obtain ⟨others⟩ := second
  have sameLookup : lookup ⟨scopes⟩ name = lookup ⟨others⟩ name := by
    change List.Forall₂ _ scopes others at same
    unfold lookup
    induction same with
    | nil => rfl
    | cons inner _ inductionHypothesis =>
      simp only [List.findSome?_cons, inner.find name] at inductionHypothesis ⊢
      rw [inductionHypothesis]
  rw [sameLookup]
  cases lookup ⟨others⟩ name with
  | none => exact .none
  | some symbol => exact .some rfl

end Table.SameBindings

namespace Lower

/-! ### The functions of a module are bound -/

/-- The last of the definitions of a name is the one that is bound. -/
theorem find?_foldl_insert (name : String) (definitions : List FunctionDef)
    (bindings : Bindings) :
    Bindings.find? name (definitions.foldl (fun bound definition =>
        Bindings.insert definition.name (.function definition) bound) bindings) =
      ((definitions.filter fun definition => definition.name = name).getLast?.map
        Symbol.function).or (Bindings.find? name bindings) := by
  induction definitions using List.reverseRecOn with
  | nil => rfl
  | append_singleton earlier last inductionHypothesis =>
    rw [List.foldl_concat, List.filter_append]
    by_cases isName : last.name = name
    · subst isName
      rw [Bindings.find?_insert_self]
      simp
    · rw [Bindings.find?_insert_of_ne (Ne.symm isName), inductionHypothesis]
      simp [isName]

theorem foldl_register (definitions : List FunctionDef) (table : Table)
    (nonempty : definitions ≠ []) :
    definitions.foldl register table =
      ⟨{ table.parts.1 with
          bindings := definitions.foldl (fun bound definition =>
            Bindings.insert definition.name (.function definition) bound)
              table.parts.1.bindings } :: table.parts.2⟩ := by
  induction definitions using List.reverseRecOn with
  | nil => exact absurd rfl nonempty
  | append_singleton earlier last inductionHypothesis =>
    rw [List.foldl_concat, List.foldl_concat]
    by_cases none : earlier = []
    · subst none
      rfl
    · rw [inductionHypothesis none]
      rfl

/-- Whether a statement defines a function of the given name. -/
def defines (name : String) (value : Stmt) : Bool :=
  value.function?.any fun definition => definition.name = name

/-- The same statements in another order, in which the functions of one name keep their order, and
so do the statements that define no function. -/
structure Rearranged (first second : List Stmt) : Prop where
  perm : first.Perm second
  definitions (name : String) : first.filter (defines name) = second.filter (defines name)
  statements : first.filter (fun value => !isDefinition value) =
    second.filter (fun value => !isDefinition value)

theorem filter_filterMap_function? (name : String) (body : List Stmt) :
    (body.filterMap Stmt.function?).filter (fun definition => definition.name = name) =
      (body.filter (defines name)).filterMap Stmt.function? := by
  induction body with
  | nil => rfl
  | cons value rest inductionHypothesis =>
    cases found : value.function? with
    | none =>
      have other : defines name value = false := by rw [defines, found, Option.any_none]
      rw [List.filterMap_cons_none found, List.filter_cons_of_neg (by simp [other]),
        inductionHypothesis]
    | some definition =>
      have same : defines name value = decide (definition.name = name) := by
        rw [defines, found, Option.any_some]
      rw [List.filterMap_cons_some found]
      by_cases isName : definition.name = name
      · rw [List.filter_cons_of_pos (by simp [isName]),
          List.filter_cons_of_pos (by simp [same, isName]), List.filterMap_cons_some found,
          inductionHypothesis]
      · rw [List.filter_cons_of_neg (by simp [isName]),
          List.filter_cons_of_neg (by simp [same, isName]), inductionHypothesis]

theorem flatMap_mainPart (body : List Stmt) :
    body.flatMap mainPart = (body.filter fun value => !isDefinition value).flatMap mainPart := by
  induction body with
  | nil => rfl
  | cons value rest inductionHypothesis =>
    cases value with
    | functionDef definition => exact inductionHypothesis
    | asyncFunctionDef definition => exact inductionHypothesis
    | _ =>
      rw [List.filter_cons_of_pos rfl, List.flatMap_cons, List.flatMap_cons, inductionHypothesis]

/-! ### Segments -/

variable {options : Options} {table : Table}

/-- Lowers what a statement writes at the outermost level, which is a function or nothing. -/
def top (options : Options) (table : Table) (value : Stmt) : Lowering Stream :=
  match topItem? table value with
  | some item => function options item.definition item.context item.table
  | none => .ok []

/-- What a statement writes at the outermost level, if it can be lowered. -/
def written (options : Options) (table : Table) (value : Stmt) : Stream :=
  (top options table value).toOption.getD []

theorem written_of_ok {value : Stmt} {stream : Stream}
    (lowered : top options table value = .ok stream) : written options table value = stream := by
  rw [written, lowered]
  rfl

theorem written_of_not_isDefinition {value : Stmt} (other : ¬ isDefinition value) :
    written options table value = [] := by
  cases value with
  | functionDef definition => exact absurd rfl other
  | asyncFunctionDef definition => exact absurd rfl other
  | _ => rfl

theorem functions_cons (number : Nat) (value : Stmt) (rest : List Stmt) :
    functions options table number (value :: rest) = do
      let stream ← Attempt.inside ("stmt " ++ toString number) (top options table value)
      let later ← functions options table (number + 1) rest
      return stream ++ later := by
  cases value <;> rfl

/-- The functions of a module are lowered if each of them is, and are written one after another. -/
theorem functions_eq_ok_iff {number : Nat} {body : List Stmt} {stream : Stream} :
    functions options table number body = .ok stream ↔
      (∀ value ∈ body, top options table value = .ok (written options table value)) ∧
        stream = body.flatMap (written options table) := by
  induction body generalizing number stream with
  | nil => simp [functions, eq_comm]
  | cons value rest inductionHypothesis =>
    simp only [functions_cons, Attempt.bind_eq_ok, Attempt.inside_eq_ok, Attempt.pure_eq_ok,
      inductionHypothesis, List.forall_mem_cons, List.flatMap_cons]
    constructor
    · rintro ⟨single, lowered, later, ⟨restLowered, rfl⟩, rfl⟩
      obtain rfl := written_of_ok lowered
      exact ⟨⟨lowered, restLowered⟩, rfl⟩
    · rintro ⟨⟨lowered, restLowered⟩, rfl⟩
      exact ⟨_, lowered, _, ⟨restLowered, rfl⟩, rfl⟩

/-- A stream for a module, in segments: the line for the runtime library, a segment for each
function in the order of the definitions, and last the segment of the main function, which is empty
if the module has no statements for it. -/
structure Segmented (options : Options) (table : Table) (source : Module)
    (segment : Stmt → Stream) (main stream : Stream) : Prop where
  function_lowered : ∀ value ∈ source.body, ∀ item,
    topItem? (registerAll table source.body) value = some item →
      item.Lowered options (segment value)
  main_lowered : if source.body.flatMap mainPart = [] then main = []
    else (mainItem table source).Lowered options main
  stream_eq : stream = runtimeLine options ++
    ((source.body.filter isDefinition).flatMap segment ++ main)

theorem exists_item_of_isDefinition {value : Stmt} (definition : isDefinition value) :
    ∃ item, topItem? table value = some item := by
  cases value with
  | functionDef => exact ⟨_, rfl⟩
  | asyncFunctionDef => exact ⟨_, rfl⟩
  | _ => cases definition

theorem flatMap_written (body : List Stmt) :
    body.flatMap (written options table) =
      (body.filter isDefinition).flatMap (written options table) := by
  induction body with
  | nil => rfl
  | cons value rest inductionHypothesis =>
    by_cases definition : isDefinition value
    · rw [List.filter_cons_of_pos definition, List.flatMap_cons, List.flatMap_cons,
        inductionHypothesis]
    · rw [List.filter_cons_of_neg definition, List.flatMap_cons,
        written_of_not_isDefinition definition, List.nil_append, inductionHypothesis]

/-- The segments of the functions are what the functions of the module are lowered to. -/
theorem functions_eq_ok_iff_segments {body : List Stmt} {stream : Stream} :
    functions options table 0 body = .ok stream ↔
      ∃ segment : Stmt → Stream,
        (∀ value ∈ body, ∀ item, topItem? table value = some item →
          item.Lowered options (segment value)) ∧
        stream = (body.filter isDefinition).flatMap segment := by
  rw [functions_eq_ok_iff]
  constructor
  · rintro ⟨lowered, rfl⟩
    refine ⟨written options table, fun value member item isItem => ?_, flatMap_written body⟩
    have single := lowered value member
    rwa [top, isItem] at single
  · rintro ⟨segment, lowered, rfl⟩
    have ofItem (value : Stmt) (member : value ∈ body) (item : Item)
        (isItem : topItem? table value = some item) :
        top options table value = .ok (segment value) := by
      rw [top, isItem]
      exact lowered value member item isItem
    refine ⟨fun value member => ?_, ?_⟩
    · cases isItem : topItem? table value with
      | none => rw [written, top, isItem]; rfl
      | some item =>
        have single := ofItem value member item isItem
        rw [written_of_ok single, single]
    · rw [flatMap_written, List.flatMap_def, List.flatMap_def]
      congr 1
      refine List.map_congr_left fun value member => ?_
      obtain ⟨inBody, definition⟩ := List.mem_filter.mp member
      obtain ⟨item, isItem⟩ := exists_item_of_isDefinition definition
      exact (written_of_ok (ofItem value inBody item isItem)).symm

/-- A module is lowered if all its segments are and the name of the main function is free, where it
has one. -/
theorem module_eq_ok_iff {source : Module} {stream : Stream} :
    (module options table source).2 = .ok stream ↔
      (source.body.flatMap mainPart = [] ∨
        (registerAll table source.body).lookupLocal mainName = none) ∧
      ∃ segment main, Segmented options table source segment main stream := by
  constructor
  · intro lowered
    simp only [module] at lowered
    cases functionsLowered : functions options (registerAll table source.body) 0 source.body with
    | error failure =>
      rw [functionsLowered] at lowered
      cases lowered
    | ok functionStream =>
      simp only [functionsLowered, List.isEmpty_iff] at lowered
      obtain ⟨segment, segments, rfl⟩ := functions_eq_ok_iff_segments.mp functionsLowered
      by_cases empty : source.body.flatMap mainPart = []
      · rw [if_pos empty] at lowered
        cases lowered
        refine ⟨.inl empty, segment, [], segments, ?_, ?_⟩
        · rw [if_pos empty]
        · rw [List.append_nil]
      rw [if_neg empty] at lowered
      by_cases taken : ((registerAll table source.body).lookupLocal mainName).isSome
      · rw [if_pos taken] at lowered
        exact absurd lowered Attempt.fail_ne_ok
      simp only [if_neg taken, Attempt.bind_eq_ok, Attempt.inside_eq_ok, Attempt.pure_eq_ok]
        at lowered
      obtain ⟨later, mainLowered, rfl⟩ := lowered
      refine ⟨.inr (by simpa using taken), segment, later, segments, ?_, ?_⟩
      · rw [if_neg empty]
        exact mainLowered
      · rw [List.append_assoc]
  · rintro ⟨free, segment, main, segmented⟩
    have functionsLowered := functions_eq_ok_iff_segments.mpr
      ⟨segment, segmented.function_lowered, rfl⟩
    have mainLowered := segmented.main_lowered
    simp only [module, functionsLowered, List.isEmpty_iff]
    by_cases empty : source.body.flatMap mainPart = []
    · rw [if_pos empty] at mainLowered ⊢
      rw [segmented.stream_eq, mainLowered, List.append_nil]
    · rw [if_neg empty] at mainLowered ⊢
      have untaken : (registerAll table source.body).lookupLocal mainName = none :=
        free.resolve_left empty
      rw [if_neg (by simp [untaken]), segmented.stream_eq]
      simp only [Attempt.bind_eq_ok, Attempt.inside_eq_ok, Attempt.pure_eq_ok]
      exact ⟨main, mainLowered, List.append_assoc _ _ _⟩

/-- Whether the lowering of a module comes to its main function. -/
def ReachesMain (options : Options) (table : Table) (source : Module) : Prop :=
  (∃ stream, functions options (registerAll table source.body) 0 source.body = .ok stream) ∧
    source.body.flatMap mainPart ≠ [] ∧
      (registerAll table source.body).lookupLocal mainName = none

theorem module_fst_of_reachesMain {source : Module}
    (reached : ReachesMain options table source) :
    (module options table source).1 =
      register (registerAll table source.body) (mainFunction (source.body.flatMap mainPart)) := by
  obtain ⟨⟨stream, lowered⟩, nonempty, untaken⟩ := reached
  simp only [module, lowered]
  rw [if_neg fun none => nonempty (List.isEmpty_iff.mp none), if_neg (by simp [untaken])]

theorem module_fst_of_not_reachesMain {source : Module}
    (unreached : ¬ ReachesMain options table source) :
    (module options table source).1 = registerAll table source.body := by
  simp only [module, List.isEmpty_iff]
  cases lowered : functions options (registerAll table source.body) 0 source.body with
  | error failure => rfl
  | ok stream =>
    by_cases empty : source.body.flatMap mainPart = []
    · simp only [if_pos empty]
    by_cases taken : ((registerAll table source.body).lookupLocal mainName).isSome
    · simp only [if_neg empty, if_pos taken]
    exact absurd ⟨⟨stream, lowered⟩, empty, by simpa using taken⟩ unreached

/-! ### Rearranged modules -/

namespace Rearranged

variable {first second : List Stmt}

theorem symm (rearranged : Rearranged first second) : Rearranged second first :=
  ⟨rearranged.perm.symm, fun name => (rearranged.definitions name).symm,
    rearranged.statements.symm⟩

/-- All functions of a module are bound to the same symbols, whatever their order. -/
theorem sameBindings (rearranged : Rearranged first second) (table : Table) :
    (registerAll table first).SameBindings (registerAll table second) := by
  have permuted := rearranged.perm.filterMap Stmt.function?
  unfold registerAll
  by_cases none : first.filterMap Stmt.function? = []
  · rw [none] at permuted ⊢
    rw [permuted.nil_eq.symm]
    exact .refl table
  · have alsoSome : second.filterMap Stmt.function? ≠ [] := fun empty =>
      none (List.perm_nil.mp (empty ▸ permuted))
    rw [foldl_register _ table none, foldl_register _ table alsoSome]
    refine .cons ⟨rfl, rfl, fun name => ?_⟩ (Table.SameBindings.refl table).parts.2
    rw [find?_foldl_insert, find?_foldl_insert, filter_filterMap_function?,
      filter_filterMap_function?, rearranged.definitions name]

theorem flatMap_mainPart_eq (rearranged : Rearranged first second) :
    first.flatMap mainPart = second.flatMap mainPart := by
  rw [flatMap_mainPart first, flatMap_mainPart second, rearranged.statements]

/-- A function is lowered alike with the functions of either module. -/
theorem function_eq (rearranged : Rearranged first second) (definition : FunctionDef)
    (context : Context) :
    function options definition context (registerAll table first) =
      function options definition context (registerAll table second) :=
  function_eq_of_related discerning_eq (rearranged.sameBindings table).related definition context

theorem top_eq (rearranged : Rearranged first second) (value : Stmt) :
    top options (registerAll table first) value = top options (registerAll table second) value := by
  cases value with
  | functionDef definition => exact rearranged.function_eq definition _
  | asyncFunctionDef definition => exact rearranged.function_eq definition _
  | _ => rfl

theorem mainItem_lowered {first second : Module} (rearranged : Rearranged first.body second.body)
    {main : Stream} (lowered : (mainItem table first).Lowered options main) :
    (mainItem table second).Lowered options main := by
  have related := (rearranged.sameBindings table).related
  simp only [mainItem, Item.Lowered] at lowered ⊢
  rw [← rearranged.flatMap_mainPart_eq,
    ← function_eq_of_related discerning_eq (related_register discerning_eq related _)]
  exact lowered

/-- The segments of a module are those of the rearranged module. -/
theorem segmented {first second : Module} (rearranged : Rearranged first.body second.body)
    {segment : Stmt → Stream} {main stream : Stream}
    (segmented : Segmented options table first segment main stream) :
    Segmented options table second segment main
      (runtimeLine options ++ ((second.body.filter isDefinition).flatMap segment ++ main)) where
  function_lowered value member item isItem := by
    have lowered := segmented.function_lowered value (rearranged.perm.mem_iff.mpr member)
    cases value with
    | functionDef definition =>
      cases isItem
      exact (rearranged.function_eq definition _).symm.trans (lowered _ rfl)
    | asyncFunctionDef definition =>
      cases isItem
      exact (rearranged.function_eq definition _).symm.trans (lowered _ rfl)
    | _ => cases isItem
  main_lowered := by
    have lowered := segmented.main_lowered
    rw [rearranged.flatMap_mainPart_eq] at lowered
    by_cases empty : second.body.flatMap mainPart = []
    · rw [if_pos empty] at lowered ⊢
      exact lowered
    · rw [if_neg empty] at lowered ⊢
      exact rearranged.mainItem_lowered lowered
  stream_eq := rfl

/-- A rearranged module is lowered if the module is, and into the same segments. -/
theorem exists_segmented {first second : Module} (rearranged : Rearranged first.body second.body)
    {stream : Stream} (lowered : (module options table first).2 = .ok stream) :
    ∃ other segment main, (module options table second).2 = .ok other ∧
      Segmented options table first segment main stream ∧
      Segmented options table second segment main other := by
  obtain ⟨free, segment, main, segmented⟩ := module_eq_ok_iff.mp lowered
  have others := rearranged.segmented segmented
  rw [rearranged.flatMap_mainPart_eq, (rearranged.sameBindings table).lookupLocal_eq] at free
  exact ⟨_, segment, main, module_eq_ok_iff.mpr ⟨free, segment, main, others⟩, segmented, others⟩

theorem reachesMain {first second : Module} (rearranged : Rearranged first.body second.body)
    (reached : ReachesMain options table first) : ReachesMain options table second := by
  obtain ⟨⟨stream, lowered⟩, nonempty, untaken⟩ := reached
  obtain ⟨all, _⟩ := functions_eq_ok_iff.mp lowered
  refine ⟨⟨_, functions_eq_ok_iff.mpr ⟨fun value member => ?_, rfl⟩⟩, ?_, ?_⟩
  · have single := all value (rearranged.perm.mem_iff.mpr member)
    rw [rearranged.top_eq] at single
    rw [single, written_of_ok single]
  · rwa [← rearranged.flatMap_mainPart_eq]
  · rwa [← (rearranged.sameBindings table).lookupLocal_eq]

/-- The table that comes with a rearranged module has the same bindings. -/
theorem sameBindings_module {first second : Module}
    (rearranged : Rearranged first.body second.body) :
    (module options table first).1.SameBindings (module options table second).1 := by
  have same := rearranged.sameBindings table
  by_cases reached : ReachesMain options table first
  · rw [module_fst_of_reachesMain reached,
      module_fst_of_reachesMain (rearranged.reachesMain reached), rearranged.flatMap_mainPart_eq]
    exact same.insert _ _
  · rw [module_fst_of_not_reachesMain reached,
      module_fst_of_not_reachesMain fun other => reached (rearranged.symm.reachesMain other)]
    exact same

end Rearranged

/-- The order of the definitions in a module makes no difference. A rearranged module comes with a
table of the same bindings, it is lowered exactly if the module is, and the two streams have the
same segments: the line for the runtime library, each function in its place, and the main
function. -/
theorem module_of_rearranged {first second : Module}
    (rearranged : Rearranged first.body second.body) (options : Options) (table : Table) :
    (module options table first).1.SameBindings (module options table second).1 ∧
    ((∃ stream, (module options table first).2 = .ok stream) ↔
      ∃ stream, (module options table second).2 = .ok stream) ∧
    ∀ stream other, (module options table first).2 = .ok stream →
      (module options table second).2 = .ok other →
        ∃ segment main, Segmented options table first segment main stream ∧
          Segmented options table second segment main other := by
  refine ⟨rearranged.sameBindings_module, ⟨?_, ?_⟩, fun stream other lowered otherLowered => ?_⟩
  · rintro ⟨stream, lowered⟩
    obtain ⟨other, _, _, otherLowered, _⟩ := rearranged.exists_segmented lowered
    exact ⟨other, otherLowered⟩
  · rintro ⟨stream, lowered⟩
    obtain ⟨other, _, _, otherLowered, _⟩ := rearranged.symm.exists_segmented lowered
    exact ⟨other, otherLowered⟩
  · obtain ⟨same, segment, main, sameLowered, segmented, others⟩ :=
      rearranged.exists_segmented lowered
    obtain rfl := Except.ok.inj (sameLowered.symm.trans otherLowered)
    exact ⟨segment, main, segmented, others⟩

/-- A function moves in front of one that calls it, and the second of two functions of one name in
front of a statement. -/
theorem module_of_rearranged_forward_call :
    let caller : Stmt :=
      .functionDef { FunctionOf.empty "f" with body := [.ret (.call (.name "g") [] [])] }
    let called : Stmt := .asyncFunctionDef { FunctionOf.empty "g" with body := [.pass] }
    let again : Stmt := .functionDef { FunctionOf.empty "f" with body := [.pass] }
    let statement : Stmt := .assign [.name "x"] (.constant (.int "1"))
    let first : Module := ⟨[caller, statement, called, again]⟩
    let second : Module := ⟨[called, caller, again, statement]⟩
    Rearranged first.body second.body ∧
      (module {} Table.new first).1.SameBindings (module {} Table.new second).1 ∧
      ∃ stream other, (module {} Table.new first).2 = .ok stream ∧
        (module {} Table.new second).2 = .ok other ∧
        ∃ segment main, Segmented {} Table.new first segment main stream ∧
          Segmented {} Table.new second segment main other := by
  intro caller called again statement first second
  have rearranged : Rearranged first.body second.body := by
    refine ⟨?_, fun name => ?_, rfl⟩
    · change ([caller, statement] ++ called :: [again]).Perm _
      exact List.perm_middle.trans (.cons called (.cons caller (.swap again statement [])))
    · by_cases isF : "f" = name
      · subst isF
        rfl
      by_cases isG : "g" = name
      · subst isG
        rfl
      simp [first, second, caller, called, again, statement, defines, Stmt.function?,
        FunctionOf.empty, isF, isG]
  obtain ⟨same, succeeds, segments⟩ := module_of_rearranged rearranged {} Table.new
  obtain ⟨stream, lowered⟩ : ∃ stream, (module {} Table.new first).2 = .ok stream := ⟨_, rfl⟩
  obtain ⟨other, otherLowered⟩ := succeeds.mp ⟨stream, lowered⟩
  exact ⟨rearranged, same, stream, other, lowered, otherLowered,
    segments stream other lowered otherLowered⟩

end Lower

end Oxide
