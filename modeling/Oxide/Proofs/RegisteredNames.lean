/-
This file compares two ways in which an assignment can introduce a name. The table counts the names
of every target as bound behind the assignment, and the stream declares those that are new to it
with `let`. The two agree for every assignment except one with an operator: that one declares
nothing, but its target counts as bound from there on. So in a run of assignments the names that
become bound are those that are declared, and those that an operator has met first.
-/

import Oxide.Proofs.Scoping

namespace Oxide

/-- The identifiers that a stream declares, in whatever block. -/
def Stream.declared (stream : Stream) : List String :=
  (Lower.declaredIn (Spot.events ⟨[], []⟩ stream.bare)).flatten

namespace Lower

/-! ### Assignments and the names that they bind -/

/-- Whether a statement is an assignment. A hint can only be given to a single place. -/
def isAssignment : Stmt → Bool
  | .assign .. => true
  | .augAssign .. => true
  | .annAssign place hint value => hintsOnePlace (.annAssign place hint value)
  | _ => false

/-- The names in the target of an assignment with an operator. -/
def operatedOn : Stmt → List String
  | .augAssign place _ _ => targetNames place
  | _ => []

/-- Whether a name is bound in one table and was not in another one. -/
def IsNew (before after : Table) (x : String) : Prop :=
  isBound after x ∧ ¬ isBound before x

/-- Whether a name is not bound yet at one of the statements that have it among the given names. -/
def FirstBound (names : Stmt → List String) (table : Table) (body : List Stmt) (x : String) :
    Prop :=
  ∃ earlier value later, body = earlier ++ value :: later ∧ x ∈ names value ∧
    ¬ isBound (earlier.foldl bindStmt table) x

variable {table : Table} {value : Stmt} {body : List Stmt} {x : String}

theorem mem_boundBy_iff : x ∈ boundBy value ↔ x ∈ assignedBy value ∨ x ∈ operatedOn value := by
  cases value <;> simp [boundBy, assignedBy, operatedOn]

theorem not_isDefinition_of_isAssignment (assigns : isAssignment value) :
    ¬ isDefinition value := by
  cases value with
  | functionDef _ => cases assigns
  | asyncFunctionDef _ => cases assigns
  | _ => exact Bool.false_ne_true

theorem not_isSilent_of_isAssignment (assigns : isAssignment value) : ¬ isSilent value := by
  intro silent
  cases value with
  | annAssign place hint given => exact not_hintsOnePlace silent assigns
  | _ => cases silent

theorem isNew_bindStmt_iff (assigns : isAssignment value) :
    IsNew table (bindStmt table value) x ↔
      (x ∈ assignedBy value ∨ x ∈ operatedOn value) ∧ ¬ isBound table x := by
  rw [IsNew, isBound_bindStmt (not_isDefinition_of_isAssignment assigns), mem_boundBy_iff,
    and_congr_left fun free => or_iff_left free]

/-! ### One assignment -/

theorem declaredIn_eq_nil {events : List Event}
    (plain : ∀ event ∈ events, ∃ around texts, event = .assigns around texts) :
    declaredIn events = [] := by
  refine List.eq_nil_iff_forall_not_mem.mpr fun texts member => ?_
  obtain ⟨inner, declares⟩ := mem_declaredIn.mp member
  obtain ⟨_, _, impossible⟩ := plain _ declares
  cases impossible

/-- An assignment declares the names that it assigns to without an operator and that are new. -/
theorem mem_declaredIn_assignment {around : List Stream} {events : List Event} {text : String}
    (assigns : isAssignment value) (traced : Traces (.stmt value) table around events) :
    text ∈ (declaredIn events).flatten ↔
      ∃ x ∈ assignedBy value, ¬ isBound table x ∧ identName x = text := by
  cases traced with
  | settled known plain =>
    have none : declaredIn events = [] := declaredIn_eq_nil fun event member => by
      obtain ⟨texts, equal, _⟩ := plain event member
      exact ⟨around, texts, equal⟩
    rw [none]
    constructor
    · intro member
      cases member
    · rintro ⟨x, assigned, free, _⟩
      exact absurd (known x assigned) free
  | @fresh _ _ _ later _ _ new plain =>
    have none : declaredIn later = [] :=
      declaredIn_eq_nil fun event member => ⟨around, [], plain event member⟩
    have declared : declaredIn (.declares around ((assignedBy value).map identName) :: later) =
        [(assignedBy value).map identName] := congrArg _ none
    rw [declared, List.flatten_singleton, List.mem_map]
    refine exists_congr fun x => and_congr_right fun assigned => ?_
    exact (and_iff_right (new x assigned)).symm
  | silent silent => exact absurd silent (not_isSilent_of_isAssignment assigns)
  | _ => cases assigns

theorem assignedBy_eq_nil_of_mem_operatedOn (operated : x ∈ operatedOn value) :
    assignedBy value = [] := by
  cases value with
  | augAssign _ _ _ => rfl
  | _ => cases operated

/-- What an assignment declares is what the table newly counts as bound, unless an operator meets a
name that is not bound. -/
theorem declares_new_iff (assigns : isAssignment value) {texts : List String}
    (declared : ∀ text, text ∈ texts ↔
      ∃ x ∈ assignedBy value, ¬ isBound table x ∧ identName x = text) :
    (∀ text, text ∈ texts ↔ ∃ x, IsNew table (bindStmt table value) x ∧ identName x = text) ↔
      ∀ x ∈ operatedOn value, isBound table x := by
  constructor
  · intro agree x operated
    by_contra free
    have new : IsNew table (bindStmt table value) x :=
      (isNew_bindStmt_iff assigns).mpr ⟨.inr operated, free⟩
    obtain ⟨y, assigned, _⟩ := (declared _).mp ((agree _).mpr ⟨x, new, rfl⟩)
    rw [assignedBy_eq_nil_of_mem_operatedOn operated] at assigned
    cases assigned
  · intro known text
    rw [declared]
    refine exists_congr fun x => ?_
    rw [isNew_bindStmt_iff assigns, ← and_assoc, or_and_right]
    refine and_congr_left' (or_iff_left ?_).symm
    rintro ⟨operated, free⟩
    exact free (known x operated)

/-! ### Runs of assignments -/

theorem isBound_run (assigns : ∀ value ∈ body, isAssignment value) (bound : isBound table x) :
    isBound (body.foldl bindStmt table) x := by
  induction body generalizing table with
  | nil => exact bound
  | cons first rest inductionHypothesis =>
    rw [List.forall_mem_cons] at assigns
    have simple := not_isDefinition_of_isAssignment assigns.1
    exact inductionHypothesis assigns.2 ((isBound_bindStmt simple).mpr (.inr bound))

namespace FirstBound

variable {names : Stmt → List String}

theorem cons_iff {first : Stmt} {rest : List Stmt} :
    FirstBound names table (first :: rest) x ↔
      (x ∈ names first ∧ ¬ isBound table x) ∨
        FirstBound names (bindStmt table first) rest x := by
  constructor
  · rintro ⟨earlier, value, later, split, named, free⟩
    cases earlier with
    | nil =>
      cases split
      exact .inl ⟨named, free⟩
    | cons head earlier =>
      cases split
      exact .inr ⟨earlier, value, later, rfl, named, free⟩
  · rintro (⟨named, free⟩ | ⟨earlier, value, later, rfl, named, free⟩)
    · exact ⟨[], first, rest, rfl, named, free⟩
    · exact ⟨first :: earlier, value, later, rfl, named, free⟩

theorem not_nil : ¬ FirstBound names table [] x := by
  rintro ⟨earlier, value, later, split, _⟩
  exact List.append_ne_nil_of_right_ne_nil earlier (List.cons_ne_nil value later) split.symm

theorem not_isBound (first : FirstBound names table body x)
    (assigns : ∀ value ∈ body, isAssignment value) : ¬ isBound table x := by
  obtain ⟨earlier, value, later, rfl, _, free⟩ := first
  rw [List.forall_mem_append] at assigns
  exact fun bound => free (isBound_run assigns.1 bound)

end FirstBound

/-- A run of assignments declares the names that one of them assigns to without an operator while
they are new. -/
theorem mem_declaredIn_run {around : List Stream} {events : List Event} {text : String}
    (assigns : ∀ value ∈ body, isAssignment value)
    (traced : Traces (.block body) table around events) :
    text ∈ (declaredIn events).flatten ↔
      ∃ x, FirstBound assignedBy table body x ∧ identName x = text := by
  induction body generalizing table events with
  | nil =>
    cases traced
    simp [declaredIn, FirstBound.not_nil]
  | cons first rest inductionHypothesis =>
    rw [List.forall_mem_cons] at assigns
    cases traced with
    | blockCons firstTraced restTraced =>
    rw [declaredIn_append, List.flatten_append, List.mem_append,
      mem_declaredIn_assignment assigns.1 firstTraced, inductionHypothesis assigns.2 restTraced,
      ← exists_or]
    refine exists_congr fun x => ?_
    rw [FirstBound.cons_iff, or_and_right, and_assoc]

/-- A name is bound by a run of assignments if one of them assigns to it while it is new, with an
operator or without one. -/
theorem isNew_run_iff (assigns : ∀ value ∈ body, isAssignment value) :
    IsNew table (body.foldl bindStmt table) x ↔
      FirstBound assignedBy table body x ∨ FirstBound operatedOn table body x := by
  induction body generalizing table with
  | nil => simp [IsNew, FirstBound.not_nil]
  | cons first rest inductionHypothesis =>
    rw [List.forall_mem_cons] at assigns
    have split : IsNew table ((first :: rest).foldl bindStmt table) x ↔
        IsNew table (bindStmt table first) x ∨
          IsNew (bindStmt table first) (rest.foldl bindStmt (bindStmt table first)) x := by
      have simple := not_isDefinition_of_isAssignment assigns.1
      have kept : isBound table x → isBound (bindStmt table first) x := fun bound =>
        (isBound_bindStmt simple).mpr (.inr bound)
      have later := @isBound_run (bindStmt table first) rest x assigns.2
      rw [List.foldl_cons]
      unfold IsNew
      tauto
    rw [split, isNew_bindStmt_iff assigns.1, inductionHypothesis assigns.2, FirstBound.cons_iff,
      FirstBound.cons_iff, or_and_right, or_or_or_comm]

/-- A name that an operator meets first is not declared by an assignment to it behind that. -/
theorem not_firstBound_of_operatedOn (assigns : ∀ value ∈ body, isAssignment value)
    (operated : FirstBound operatedOn table body x) : ¬ FirstBound assignedBy table body x := by
  induction body generalizing table with
  | nil => exact FirstBound.not_nil
  | cons first rest inductionHypothesis =>
    rw [List.forall_mem_cons] at assigns
    have binds (names : x ∈ boundBy first) : isBound (bindStmt table first) x :=
      (isBound_bindStmt (not_isDefinition_of_isAssignment assigns.1)).mpr (.inl names)
    rw [FirstBound.cons_iff] at operated ⊢
    rintro (⟨assigned, _⟩ | assignedLater)
    · rcases operated with ⟨operated, _⟩ | operatedLater
      · rw [assignedBy_eq_nil_of_mem_operatedOn operated] at assigned
        cases assigned
      · exact operatedLater.not_isBound assigns.2 (binds (mem_boundBy_iff.mpr (.inl assigned)))
    · rcases operated with ⟨operated, _⟩ | operatedLater
      · exact assignedLater.not_isBound assigns.2 (binds (mem_boundBy_iff.mpr (.inr operated)))
      · exact inductionHypothesis assigns.2 operatedLater assignedLater

/-! ### Declaring and registering -/

/-- An assignment declares exactly the names that become bound by it if and only if it uses no
operator on a name that is not bound yet. A run of assignments declares the names that one of them
assigns to without an operator while they are new; the names that an operator meets first become
bound too, and no assignment behind it declares them. -/
theorem declared_iff_new_unless_operated (options : Options) :
    (∀ value context table stream, isAssignment value →
      stmt options value context table = .ok stream →
      (∀ text, text ∈ stream.declared ↔
        ∃ x ∈ assignedBy value, ¬ isBound table x ∧ identName x = text) ∧
      ((∀ text, text ∈ stream.declared ↔
          ∃ x, IsNew table (bindStmt table value) x ∧ identName x = text) ↔
        ∀ x ∈ operatedOn value, isBound table x)) ∧
    ∀ number body context table stream, (∀ value ∈ body, isAssignment value) →
      block options number body context table = .ok stream →
      (∀ text, text ∈ stream.declared ↔
        ∃ x, FirstBound assignedBy table body x ∧ identName x = text) ∧
      ∀ x, (IsNew table (body.foldl bindStmt table) x ↔
          FirstBound assignedBy table body x ∨ FirstBound operatedOn table body x) ∧
        (FirstBound operatedOn table body x → ¬ FirstBound assignedBy table body x) := by
  constructor
  · intro value context table stream assigns lowered
    have traced := traces_of_emits (emits_of_stmt value context table stream lowered) ⟨[], []⟩
      (starts_of_current_eq_nil rfl _)
    have declared := fun text => @mem_declaredIn_assignment table value _ _ text assigns traced
    exact ⟨declared, declares_new_iff assigns declared⟩
  · intro number body context table stream assigns lowered
    have traced := traces_of_emits (emits_of_block number body context table stream lowered)
      ⟨[], []⟩ rfl
    exact ⟨fun text => mem_declaredIn_run assigns traced,
      fun x => ⟨isNew_run_iff assigns, not_firstBound_of_operatedOn assigns⟩⟩

/-- An operator meets `x` first, so the assignment behind it is one without a declaration, while `y`
is declared. -/
theorem declared_iff_new_behind_operator :
    let number (text : String) : Expr := .constant (.int text)
    let operated : Stmt := .augAssign (.name "x") "Add" (number "1")
    let body := [operated, .assign [.name "x"] (number "2"),
      .annAssign (.name "y") (.name "int") (.name "x")]
    (∃ stream, isAssignment operated ∧ stmt {} operated .module Table.new = .ok stream ∧
      ¬ ∀ text, text ∈ stream.declared ↔
        ∃ x, IsNew Table.new (bindStmt Table.new operated) x ∧ identName x = text) ∧
    ∃ stream, (∀ value ∈ body, isAssignment value) ∧
      block {} 0 body .module Table.new = .ok stream ∧
      "y" ∈ stream.declared ∧ IsNew Table.new (body.foldl bindStmt Table.new) "x" ∧
      ¬ FirstBound assignedBy Table.new body "x" := by
  intro number operated body
  obtain ⟨single, run⟩ := declared_iff_new_unless_operated {}
  have operates : FirstBound operatedOn Table.new body "x" :=
    ⟨[], _, _, rfl, by decide, by decide⟩
  refine ⟨⟨_, rfl, rfl, ?_⟩, _, by decide, rfl, ?_⟩
  · rw [(single operated .module Table.new _ rfl rfl).2]
    decide
  · obtain ⟨declared, names⟩ := run 0 body .module Table.new _ (by decide) rfl
    refine ⟨(declared "y").mpr ⟨"y", ⟨body.take 2, _, [], rfl, by decide, by decide⟩, by decide⟩,
      (names "x").1.mpr (.inr operates), (names "x").2 operates⟩

end Lower

end Oxide
