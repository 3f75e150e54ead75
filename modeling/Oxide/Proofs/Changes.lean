/-
This file describes how a document can be changed without a change to what is read: the entries of
an object whose keys differ can be put in another order, and an entry that nobody reads can be added
or taken away, in the document as a whole and in every part that is read. A field of a changed
object is then what it was, or it has been changed in the same way. An alias may point to something
that has been changed, in whatever role, since the role of a node with an anchor says nothing about
the places that point to it.
-/

import Mathlib.Data.List.Nodup
import Oxide.Proofs.ReadResults

namespace Oxide

open Document
open Document.Node (field field?)

/-! ### Fields -/

namespace Document.Node

variable {entries others before after : List (Node × Node)} {name value other : Node}
  {key : String}

theorem field?_append :
    field? (before ++ after) key = (field? after key).or (field? before key) := by
  simp only [field?, List.findRev?_eq_find?_reverse, List.reverse_append, List.find?_append,
    Option.map_or]

theorem field?_cons : field? ((name, value) :: after) key =
    (field? after key).or (if name.text = key then some value else none) := by
  have single : field? [(name, value)] key = if name.text = key then some value else none := by
    by_cases same : name.text = key <;> simp [field?, List.findRev?, same]
  rw [← single, ← field?_append, List.singleton_append]

/-- An entry with another key makes no difference to a field. -/
theorem field?_insert_of_ne (different : name.text ≠ key) :
    field? (before ++ (name, value) :: after) key = field? (before ++ after) key := by
  rw [field?_append, field?_append, field?_cons, if_neg different, Option.or_none]

/-- The order of entries with distinct keys makes no difference to a field. -/
theorem field?_perm (perm : entries.Perm others) :
    (entries.map fun entry => entry.1.text).Nodup → field? entries key = field? others key := by
  induction perm with
  | nil => exact fun _ => rfl
  | cons entry _ inductionHypothesis =>
    intro distinct
    rw [field?_cons, field?_cons, inductionHypothesis (List.nodup_cons.mp distinct).2]
  | swap first second rest =>
    intro distinct
    have different : second.1.text ≠ first.1.text := by
      simp only [List.map_cons, List.nodup_cons, List.mem_cons, not_or] at distinct
      exact distinct.1.1
    rw [field?_cons, field?_cons, field?_cons, field?_cons, Option.or_assoc, Option.or_assoc]
    congr 1
    by_cases atFirst : first.1.text = key
    · rw [if_pos atFirst, if_neg fun atSecond => different (atSecond.trans atFirst.symm),
        Option.none_or, Option.or_none]
    · rw [if_neg atFirst, Option.none_or, Option.or_none]
  | trans first _ firstHypothesis secondHypothesis =>
    intro distinct
    exact (firstHypothesis distinct).trans
      (secondHypothesis ((first.map _).nodup_iff.mp distinct))

/-- A field behind a change to the value of one entry is what it was, or it is that value. -/
theorem field?_replace (before after : List (Node × Node)) (name value other : Node)
    (key : String) :
    field? (before ++ (name, value) :: after) key =
        field? (before ++ (name, other) :: after) key ∨
      name.text = key ∧ field? (before ++ (name, value) :: after) key = some value ∧
        field? (before ++ (name, other) :: after) key = some other := by
  simp only [field?_append, field?_cons]
  cases field? after key with
  | some found => exact .inl rfl
  | none =>
    by_cases same : name.text = key
    · exact .inr ⟨same, by simp [same], by simp [same]⟩
    · exact .inl (by simp [same])

end Document.Node

/-! ### Nodes without texts -/

namespace Document.Node

/-- Nodes that cannot be told apart by the texts in them, whatever is in their objects. -/
structure LooksLike (first second : Node) : Prop where
  isNull : first.isNull = second.isNull
  text : first.text = second.text
  string? : ∀ aliased visits,
    (first.string? aliased visits).toOption = (second.string? aliased visits).toOption
  stringsFrom : ∀ aliased visits,
    (first.stringsFrom aliased visits).toOption = (second.stringsFrom aliased visits).toOption

namespace LooksLike

theorem refl (node : Node) : node.LooksLike node :=
  ⟨rfl, rfl, fun _ _ => rfl, fun _ _ => rfl⟩

theorem object (line other : Nat) (entries others : List (Node × Node)) :
    (Node.object line entries).LooksLike (.object other others) :=
  ⟨rfl, rfl, fun _ _ => rfl, fun _ _ => rfl⟩

variable {first second : Node}

theorem list (line : Nat) (before after : List Node) (looks : first.LooksLike second) :
    (Node.list line (before ++ first :: after)).LooksLike
      (.list line (before ++ second :: after)) := by
  have strings (aliased : Bool) (visits : Visits) :
      (stringsOf aliased visits (before ++ first :: after)).toOption =
        (stringsOf aliased visits (before ++ second :: after)).toOption := by
    induction before generalizing visits with
    | nil => simp only [List.nil_append, stringsOf, toOption_bind, looks.string?]
    | cons item rest inductionHypothesis =>
      simp only [List.cons_append, stringsOf, toOption_bind, inductionHypothesis]
  refine ⟨rfl, rfl, fun _ _ => rfl, fun aliased visits => ?_⟩
  simp only [Node.stringsFrom, toOption_bind, strings]

theorem reference (line : Nat) (anchor : String) (looks : first.LooksLike second) :
    (Node.reference line anchor first).LooksLike (.reference line anchor second) where
  isNull := rfl
  text := rfl
  string? aliased visits := by simp only [Node.string?, toOption_bind, looks.string?]
  stringsFrom aliased visits := by simp only [Node.stringsFrom, toOption_bind, looks.stringsFrom]

end LooksLike

end Document.Node

/-! ### Changes -/

namespace Role

/-- A change to one node that is read in a role, or to a part of it. -/
inductive Change : Role → Node → Node → Prop where
  | permute (role : Role) (line : Nat) {entries others : List (Node × Node)}
      (distinct : (entries.map fun entry => entry.1.text).Nodup) (perm : entries.Perm others) :
      Change role (.object line entries) (.object line others)
  | add (role : Role) (line : Nat) (before after : List (Node × Node)) (name value : Node)
      (unread : name.text ∉ (role.fieldsOf (before ++ after)).map Prod.fst) :
      Change role (.object line (before ++ after)) (.object line (before ++ (name, value) :: after))
  | remove (role : Role) (line : Nat) (before after : List (Node × Node)) (name value : Node)
      (unread : name.text ∉ (role.fieldsOf (before ++ after)).map Prod.fst) :
      Change role (.object line (before ++ (name, value) :: after)) (.object line (before ++ after))
  | field (role : Role) (line : Nat) (before after : List (Node × Node)) {part : Role}
      {name value other : Node}
      (read : (name.text, part) ∈ role.fieldsOf (before ++ (name, value) :: after))
      (inner : Change part value other) :
      Change role (.object line (before ++ (name, value) :: after))
        (.object line (before ++ (name, other) :: after))
  | item (role : Role) (line : Nat) (before after : List Node) {value other : Node}
      (inner : Change role.item value other) :
      Change role (.list line (before ++ value :: after)) (.list line (before ++ other :: after))
  | target (role : Role) (line : Nat) (anchor : String) {any : Role} {value other : Node}
      (inner : Change any value other) :
      Change role (.reference line anchor value) (.reference line anchor other)

/-- The labels of the fields of an object are distinct. -/
theorem nodup_fields (role : Role) (type : String) :
    (((typeKey, Role.text) :: role.fields type).map Prod.fst).Nodup := by
  have ofStmt : (((typeKey, Role.text) :: stmtFields type).map Prod.fst).Nodup := by
    unfold stmtFields
    split <;> decide
  have ofExpr : (((typeKey, Role.text) :: exprFields type).map Prod.fst).Nodup := by
    unfold exprFields
    split <;> decide
  cases role with
  | stmt => exact ofStmt
  | expr => exact ofExpr
  | document =>
    by_cases isModule : type = "Module"
    · simp only [fields, if_pos isModule]
      decide
    · simpa only [fields, if_neg isModule] using ofStmt
  | _ => simp [fields, typeKey]

theorem nodup_fieldsOf (role : Role) (entries : List (Node × Node)) :
    ((role.fieldsOf entries).map Prod.fst).Nodup := by
  unfold fieldsOf
  cases field? entries typeKey with
  | none => exact List.nodup_singleton _
  | some type => exact nodup_fields role type.text

theorem fieldsOf_eq {role : Role} {entries others : List (Node × Node)}
    (types : (field? entries typeKey).map Node.text = (field? others typeKey).map Node.text) :
    role.fieldsOf entries = role.fieldsOf others := by
  unfold fieldsOf
  cases found : field? entries typeKey <;> cases otherFound : field? others typeKey <;>
    simp_all

namespace Change

variable {role : Role} {line : Nat} {node other : Node}

/-- A change is seen by nobody who only looks for texts. -/
theorem looksLike (change : Change role node other) : node.LooksLike other := by
  induction change with
  | permute | add | remove | field => exact .object _ _ _ _
  | item _ line before after _ inductionHypothesis =>
    exact .list line before after inductionHypothesis
  | target _ line anchor _ inductionHypothesis => exact .reference line anchor inductionHypothesis

/-- The fields that are read from a changed object are what they were, or they have been changed. -/
theorem of_object {entries : List (Node × Node)}
    (change : Change role (.object line entries) other) :
    ∃ others, other = .object line others ∧ role.fieldsOf entries = role.fieldsOf others ∧
      ∀ key part, (key, part) ∈ role.fieldsOf entries → field? entries key = field? others key ∨
        ∃ value changed, field? entries key = some value ∧ field? others key = some changed ∧
          Change part value changed := by
  cases change with
  | permute _ _ distinct perm =>
    have same (key : String) := @Node.field?_perm _ _ key perm distinct
    exact ⟨_, rfl, fieldsOf_eq (by rw [same]), fun key part _ => .inl (same key)⟩
  | add _ _ before after name value unread =>
    have same {key : String} {part : Role} (read : (key, part) ∈ role.fieldsOf (before ++ after)) :
        field? (before ++ after) key = field? (before ++ (name, value) :: after) key :=
      (Node.field?_insert_of_ne fun atName =>
        unread (atName ▸ List.mem_map_of_mem read)).symm
    exact ⟨_, rfl, fieldsOf_eq (by rw [same List.mem_cons_self]),
      fun key part read => .inl (same read)⟩
  | remove _ _ before after name value unread =>
    have same {key : String} {part : Role} (read : (key, part) ∈ role.fieldsOf (before ++ after)) :
        field? (before ++ (name, value) :: after) key = field? (before ++ after) key :=
      Node.field?_insert_of_ne fun atName => unread (atName ▸ List.mem_map_of_mem read)
    have fields := @fieldsOf_eq role (before ++ (name, value) :: after) (before ++ after)
      (by rw [same List.mem_cons_self])
    exact ⟨_, rfl, fields, fun key part read => .inl (same (fields ▸ read))⟩
  | @field _ _ before after part name value changed read inner =>
    refine ⟨_, rfl, fieldsOf_eq ?_, fun key otherPart otherRead => ?_⟩
    · obtain same | ⟨_, found, otherFound⟩ :=
        Node.field?_replace before after name value changed typeKey
      · rw [same]
      · rw [found, otherFound, Option.map_some, Option.map_some, inner.looksLike.text]
    · obtain same | ⟨rfl, found, otherFound⟩ :=
        Node.field?_replace before after name value changed key
      · exact .inl same
      · have parts := List.inj_on_of_nodup_map (nodup_fieldsOf _ _) read otherRead rfl
        cases parts
        exact .inr ⟨value, changed, found, otherFound, inner⟩

end Change

end Role

end Oxide
