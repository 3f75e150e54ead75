/-
This file says what the lowering of a module emits: the line for the runtime library, then one item
for each function at the outermost level, and last the item for the statements of the module, if
there are any.
-/

import Oxide.Lower.Module
import Oxide.Proofs.StmtEmission

namespace Oxide.Lower

open Attempt

/-- A function with the context and the table that it is lowered with. -/
structure Item where
  definition : FunctionDef
  context : Context
  table : Table

/-- Whether a stream is what an item is lowered to. -/
def Item.Lowered (options : Options) (item : Item) (stream : Stream) : Prop :=
  function options item.definition item.context item.table = .ok stream

/-- The item of a statement at the outermost level. -/
def topItem? (table : Table) : Stmt → Option Item
  | .functionDef definition => some ⟨definition, .module, table⟩
  | .asyncFunctionDef definition => some ⟨definition, .async definition.name, table⟩
  | _ => none

/-- The item that holds the statements of a module. -/
def mainItem (table : Table) (source : Module) : Item :=
  let definition := mainFunction (source.body.flatMap mainPart)
  ⟨definition, .sync mainName, register (registerAll table source.body) definition⟩

/-- The items of a module in the order in which they are written. -/
def items (table : Table) (source : Module) : List Item :=
  source.body.filterMap (topItem? (registerAll table source.body)) ++
    if (source.body.flatMap mainPart).isEmpty then [] else [mainItem table source]

variable {options : Options}

theorem exists_left_of_mem {First Second : Type} {Related : First → Second → Prop}
    {firsts : List First} {seconds : List Second} (all : List.Forall₂ Related firsts seconds)
    {second : Second} (member : second ∈ seconds) : ∃ first ∈ firsts, Related first second := by
  induction all with
  | nil => cases member
  | @cons first _ _ _ related _ inductionHypothesis =>
    rcases List.mem_cons.mp member with rfl | later
    · exact ⟨first, List.mem_cons_self, related⟩
    · obtain ⟨other, otherMember, otherRelated⟩ := inductionHypothesis later
      exact ⟨other, List.mem_cons_of_mem _ otherMember, otherRelated⟩

/-- Every stream of a module that is lowered comes from one of its items. -/
theorem exists_item_of_mem {items : List Item} {streams : List Stream}
    (all : List.Forall₂ (Item.Lowered options) items streams) {stream : Stream}
    (member : stream ∈ streams) : ∃ item ∈ items, item.Lowered options stream :=
  exists_left_of_mem all member

/-- Every item of a module that is lowered gives one of its streams. -/
theorem exists_stream_of_mem {items : List Item} {streams : List Stream}
    (all : List.Forall₂ (Item.Lowered options) items streams) {item : Item}
    (member : item ∈ items) : ∃ stream ∈ streams, item.Lowered options stream :=
  exists_left_of_mem (List.Forall₂.flip all) member

theorem functions_of_ok {table : Table} {number : Nat} {body : List Stmt} {stream : Stream}
    (lowered : functions options table number body = .ok stream) :
    ∃ streams, List.Forall₂ (Item.Lowered options) (body.filterMap (topItem? table)) streams ∧
      stream = streams.flatten := by
  induction body generalizing number stream with
  | nil =>
    cases lowered
    exact ⟨[], .nil, rfl⟩
  | cons first rest inductionHypothesis =>
    simp only [functions, bind_eq_ok, inside_eq_ok, pure_eq_ok] at lowered
    obtain ⟨single, firstLowered, later, restLowered, rfl⟩ := lowered
    obtain ⟨streams, restItems, rfl⟩ := inductionHypothesis restLowered
    split at firstLowered
    · exact ⟨single :: streams, .cons firstLowered restItems, rfl⟩
    · exact ⟨single :: streams, .cons firstLowered restItems, rfl⟩
    case h_3 notSync notAsync =>
      cases firstLowered
      refine ⟨streams, ?_, rfl⟩
      have noItem : topItem? table first = none := by
        unfold topItem?
        split
        · exact absurd rfl (notSync _)
        · exact absurd rfl (notAsync _)
        · rfl
      rwa [List.filterMap_cons_none noItem]

/-- A module that is lowered is written as its items behind the line for the runtime library. -/
theorem module_of_ok {table : Table} {source : Module} {stream : Stream}
    (lowered : (module options table source).2 = .ok stream) :
    ∃ streams, List.Forall₂ (Item.Lowered options) (items table source) streams ∧
      stream = runtimeLine options ++ streams.flatten := by
  simp only [module] at lowered
  cases functionsLowered : functions options (registerAll table source.body) 0 source.body with
  | error failure =>
    rw [functionsLowered] at lowered
    cases lowered
  | ok written =>
    simp only [functionsLowered] at lowered
    obtain ⟨streams, topItems, rfl⟩ := functions_of_ok functionsLowered
    unfold items
    by_cases empty : (source.body.flatMap mainPart).isEmpty
    · rw [if_pos empty] at lowered
      cases lowered
      refine ⟨streams, ?_, rfl⟩
      rwa [if_pos empty, List.append_nil]
    · rw [if_neg empty] at lowered
      by_cases taken : ((registerAll table source.body).lookupLocal mainName).isSome
      · rw [if_pos taken] at lowered
        exact absurd lowered fail_ne_ok
      · simp only [if_neg taken, bind_eq_ok, inside_eq_ok, pure_eq_ok] at lowered
        obtain ⟨later, mainLowered, rfl⟩ := lowered
        refine ⟨streams ++ [later], ?_, ?_⟩
        · rw [if_neg empty]
          exact List.rel_append topItems (.cons mainLowered .nil)
        · rw [List.flatten_concat, List.append_assoc]

end Oxide.Lower
