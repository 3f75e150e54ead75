/-
This file keeps track of what names stand for. A table is a chain of scopes, the innermost first,
and a scope binds names in the order of their spelling. Tables are values: inserting, entering and
leaving give new tables. A table without any scope gets an outermost one as soon as something is
put into it, and the outermost scope is never left.
-/

import Oxide.Tree.Dump
import Oxide.Text.Quoted

namespace Oxide

/-! ### Symbols -/

/-- What a name stands for; `unknown` is a binding that says nothing about it. -/
inductive Symbol where
  | function (definition : FunctionDef)
  | variable (name : String) (hint : Expr)
  | param (parameter : Param)
  | unknown
  deriving Inhabited

namespace Symbol

/-- Whether the name holds a value that can be assigned again. -/
def isValue : Symbol → Bool
  | .variable .. => true
  | .param .. => true
  | _ => false

/-- A short description. -/
def describe : Symbol → String
  | .function definition => "func " ++ Param.dumpClause definition.params
  | .variable _ hint =>
    if hint.isAbsent then "var" else "var " ++ hint.dump
  | .param parameter => "param " ++ parameter.kind.label
  | .unknown => "unknown"

end Symbol

/-! ### Scopes -/

/-- The kinds of scopes; `unknown` is any kind beyond the three in use. -/
inductive ScopeKind where
  | module
  | function
  | block
  | unknown
  deriving DecidableEq, Inhabited

namespace ScopeKind

/-- The name of a kind. -/
def label : ScopeKind → String
  | .module => "module"
  | .function => "function"
  | .block => "block"
  | .unknown => "invalid"

/-- The kind with the given number. -/
def ofNumber : Int → ScopeKind
  | 0 => .module
  | 1 => .function
  | 2 => .block
  | _ => .unknown

end ScopeKind

/-- The bindings of a scope, in the order of the names and with every name once. -/
abbrev Bindings := List (String × Symbol)

namespace Bindings

/-- Binds a name, in place of what it stood for before. -/
def insert (name : String) (symbol : Symbol) : Bindings → Bindings
  | [] => [(name, symbol)]
  | (other, old) :: rest =>
    if name < other then (name, symbol) :: (other, old) :: rest
    else if name = other then (name, symbol) :: rest
    else (other, old) :: insert name symbol rest

/-- What a name stands for. -/
def find? (name : String) : Bindings → Option Symbol
  | [] => none
  | (other, symbol) :: rest => if name = other then some symbol else find? name rest

end Bindings

/-- A scope. -/
structure Scope where
  kind : ScopeKind
  name : String
  bindings : Bindings

/-- The scope around everything else. -/
def Scope.outermost : Scope :=
  { kind := .module, name := "", bindings := [] }

/-! ### Tables -/

/-- A chain of scopes, the innermost first. -/
structure Table where
  scopes : List Scope

namespace Table

/-- A table with an empty outermost scope. -/
def new : Table := ⟨[Scope.outermost]⟩

/-- A table without any scope. -/
def empty : Table := ⟨[]⟩

instance : Inhabited Table := ⟨empty⟩

/-- The innermost scope and those around it. -/
def parts (table : Table) : Scope × List Scope :=
  match table.scopes with
  | inner :: outer => (inner, outer)
  | [] => (Scope.outermost, [])

/-- Binds a name in the innermost scope. -/
def insert (table : Table) (name : String) (symbol : Symbol) : Table :=
  let (inner, outer) := table.parts
  ⟨{ inner with bindings := Bindings.insert name symbol inner.bindings } :: outer⟩

/-- What a name stands for, looked up from the innermost scope outwards. -/
def lookup (table : Table) (name : String) : Option Symbol :=
  table.scopes.findSome? fun scope => Bindings.find? name scope.bindings

/-- What a name stands for in the innermost scope. -/
def lookupLocal (table : Table) (name : String) : Option Symbol :=
  Bindings.find? name table.parts.1.bindings

/-- Enters a new scope. -/
def push (table : Table) (kind : ScopeKind) (name : String) : Table :=
  let (inner, outer) := table.parts
  ⟨{ kind, name, bindings := [] } :: inner :: outer⟩

/-- Leaves the innermost scope, unless it is the outermost one. -/
def pop (table : Table) : Table :=
  match table.scopes with
  | _ :: outer :: rest => ⟨outer :: rest⟩
  | _ => table

/-- How many scopes there are. -/
def depth (table : Table) : Nat :=
  table.scopes.length

/-- The kind and the name of the innermost scope. -/
def scope (table : Table) : ScopeKind × String :=
  (table.parts.1.kind, table.parts.1.name)

/-- The names of the innermost scope in order. -/
def names (table : Table) : List String :=
  table.parts.1.bindings.map Prod.fst

/-! ### Listings -/

/-- So many spaces. -/
def spaces (count : Nat) : String :=
  String.ofList (List.replicate count ' ')

/-- A text with spaces behind it up to the given count of characters. -/
def padded (width : Nat) (text : String) : String :=
  text ++ spaces (width - text.length)

/-- The line of a name inside a scope at the given depth. -/
def symbolLine (depth : Nat) : String × Symbol → String
  | (name, symbol) =>
    spaces (2 * depth + 2) ++ padded 20 name ++ " " ++ symbol.describe ++ "\n"

/-- What is said about the place where a scope is made, if that is known. -/
def originNote (origin? : Option String) : String :=
  match origin? with
  | some origin => "  (created at " ++ origin ++ ")"
  | none => ""

/-- The lines of a scope at the given depth. -/
def scopeLines (origin? : Option String) (depth : Nat) (scope : Scope) : String :=
  spaces (2 * depth) ++ "scope " ++ scope.kind.label ++ " " ++ Text.quote scope.name ++
    originNote origin? ++ "\n" ++ String.join (scope.bindings.map (symbolLine depth))

/-- All scopes with their names, the outermost first. -/
def listing (table : Table) (origin? : Scope → Option String := fun _ => none) : String :=
  String.join (table.scopes.reverse.zipIdx.map fun (scope, depth) =>
    scopeLines (origin? scope) depth scope)

end Table

end Oxide
