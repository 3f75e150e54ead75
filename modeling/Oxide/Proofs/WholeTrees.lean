/-
This file says which trees are whole, so that they can be lowered without coming upon a part that is
not there. A part that a tree cannot do without is there, comparisons have as many operators as
right operands, and parameters come in the order of a signature. What a whole tree may lack are the
optional parts, and items of lists of expressions where `gaps` allows it.
-/

import Oxide.Proofs.TreeDocuments

namespace Oxide

/-! ### Whole trees -/

/-- A list of parameters in the order of their kinds, where those that collect other arguments have
no default values. -/
@[mk_iff] structure Arranged (params : List Param) : Prop where
  known : ∀ param ∈ params, param.kind ≠ .unknown
  sorted : params.Pairwise fun first second => first.kind.rank ≤ second.kind.rank
  bare : ∀ param ∈ params, param.kind = .varArgs ∨ param.kind = .keywordArgs → param.isBare

instance (params : List Param) : Decidable (Arranged params) :=
  decidable_of_iff' _ (arranged_iff params)

/-- Whether a truth value is one of the two words for it. The type of constants leaves no third one,
so that reading a word as a constant is what makes it one of the two. -/
def Constant.isPlainTruth : Constant → Bool
  | .bool truth => ["True", "False"].contains (Constant.bool truth).text
  | _ => true

mutual

/-- Whether an expression is there, and so is everything that it needs. -/
def Expr.isWhole (gaps : Bool) : Expr → Bool
  | .absent => false
  | .constant value => value.isPlainTruth
  | .name _ => true
  | .binOp left _ right => left.isWhole gaps && right.isWhole gaps
  | .unaryOp _ operand => operand.isWhole gaps
  | .boolOp _ values => Expr.allWhole gaps values
  | .compare left ops comparators =>
    left.isWhole gaps && ops.length = comparators.length && Expr.allWhole gaps comparators
  | .call function arguments keywords =>
    function.isWhole gaps && Expr.allWhole gaps arguments && Expr.keywordsWhole gaps keywords
  | .attribute value _ => value.isWhole gaps
  | .subscript value slice => value.isWhole gaps && slice.isWhole gaps
  | .list items => Expr.allWhole gaps items
  | .tuple items => Expr.allWhole gaps items
  | .await value => value.isWhole gaps
  | .lambda params body =>
    decide (Arranged params) && Expr.paramsWhole gaps params && body.isWhole gaps
  | .dict keys values => Expr.allWhole gaps keys && Expr.allWhole gaps values
  | .joinedStr values => Expr.allWhole gaps values

/-- Whether the expressions of a list are whole, where some may be left out. -/
def Expr.allWhole (gaps : Bool) : List Expr → Bool
  | [] => true
  | first :: rest => (first.isWhole gaps || (gaps && first.isAbsent)) && Expr.allWhole gaps rest

/-- Whether the values of keyword arguments are whole. -/
def Expr.keywordsWhole (gaps : Bool) : List (String × Expr) → Bool
  | [] => true
  | (_, value) :: rest => value.isWhole gaps && Expr.keywordsWhole gaps rest

/-- Whether the hints and default values of parameters are whole, as far as they are there. -/
def Expr.paramsWhole (gaps : Bool) : List (ParamOf Expr) → Bool
  | [] => true
  | ⟨_, _, hint, defaultValue⟩ :: rest =>
    (hint.isAbsent || hint.isWhole gaps) && (defaultValue.isAbsent || defaultValue.isWhole gaps) &&
      Expr.paramsWhole gaps rest

end

/-- Whether an expression is whole if it is there. -/
def Expr.isWholeOrAbsent (gaps : Bool) (value : Expr) : Bool :=
  value.isAbsent || value.isWhole gaps

mutual

/-- Whether a statement is there, and so is everything that it needs. -/
def Stmt.isWhole (gaps : Bool) : Stmt → Bool
  | .absent => false
  | .functionDef definition => FunctionDef.isWhole gaps definition
  | .asyncFunctionDef definition => FunctionDef.isWhole gaps definition
  | .expr value => value.isWhole gaps
  | .assign targets value => Expr.allWhole gaps targets && value.isWhole gaps
  | .augAssign target _ value => target.isWhole gaps && value.isWhole gaps
  | .annAssign target hint value =>
    target.isWhole gaps && hint.isWhole gaps && value.isWholeOrAbsent gaps
  | .ret value => value.isWholeOrAbsent gaps
  | .ifElse test body orelse =>
    test.isWhole gaps && Stmt.allWhole gaps body && Stmt.allWhole gaps orelse
  | .whileLoop test body orelse =>
    test.isWhole gaps && Stmt.allWhole gaps body && Stmt.allWhole gaps orelse
  | .forLoop target iter body orelse =>
    target.isWhole gaps && iter.isWhole gaps && Stmt.allWhole gaps body &&
      Stmt.allWhole gaps orelse
  | .raise exc => exc.isWholeOrAbsent gaps
  | .assert test msg => test.isWhole gaps && msg.isWholeOrAbsent gaps
  | .classDef _ body => Stmt.allWhole gaps body
  | .delete targets => Expr.allWhole gaps targets
  | .tryBlock body orelse finalbody =>
    Stmt.allWhole gaps body && Stmt.allWhole gaps orelse && Stmt.allWhole gaps finalbody
  | .withBlock items body => items.all (Expr.isWhole gaps) && Stmt.allWhole gaps body
  | .pass | .breakLoop | .continueLoop => true
  | .importNames _ | .importFrom _ _ | .globalNames _ | .nonlocalNames _ => true

/-- Whether all statements of a list are whole. -/
def Stmt.allWhole (gaps : Bool) : List Stmt → Bool
  | [] => true
  | first :: rest => first.isWhole gaps && Stmt.allWhole gaps rest

/-- Whether the parameters, the body and the result of a function are whole. -/
def FunctionDef.isWhole (gaps : Bool) : FunctionOf Stmt → Bool
  | ⟨_, params, body, _, returns⟩ =>
    decide (Arranged params) && Expr.paramsWhole gaps params && Stmt.allWhole gaps body &&
      returns.isWholeOrAbsent gaps

end

/-- Whether all statements of a module are whole. -/
def Module.isWhole (gaps : Bool) (source : Module) : Bool :=
  Stmt.allWhole gaps source.body

variable {gaps : Bool}

/-- The type alone sees to it that a truth value is one of the two words. -/
theorem isPlainTruth_all (value : Constant) : value.isPlainTruth := by
  cases value with
  | bool truth => cases truth <;> decide
  | _ => rfl

/-- A list of expressions is whole if each of them is, or is a gap where gaps are allowed. -/
theorem allWhole_iff {values : List Expr} : Expr.allWhole gaps values ↔
    ∀ value ∈ values, value.isWhole gaps ∨ gaps ∧ value.isAbsent := by
  induction values with
  | nil => simp [Expr.allWhole]
  | cons first rest inductionHypothesis =>
    rw [Expr.allWhole, List.forall_mem_cons, ← inductionHypothesis]
    simp only [Bool.and_eq_true, Bool.or_eq_true]

theorem keywordsWhole_iff {keywords : List (String × Expr)} :
    Expr.keywordsWhole gaps keywords ↔ ∀ keyword ∈ keywords, keyword.2.isWhole gaps := by
  induction keywords with
  | nil => simp [Expr.keywordsWhole]
  | cons first rest inductionHypothesis =>
    rw [Expr.keywordsWhole, List.forall_mem_cons, ← inductionHypothesis, Bool.and_eq_true]

/-- Parameters are whole if their hints and default values are, where they are there. -/
theorem paramsWhole_iff {params : List Param} : Expr.paramsWhole gaps params ↔
    ∀ param ∈ params,
      param.hint.isWholeOrAbsent gaps ∧ param.defaultValue.isWholeOrAbsent gaps := by
  induction params with
  | nil => simp [Expr.paramsWhole]
  | cons first rest inductionHypothesis =>
    rw [Expr.paramsWhole, List.forall_mem_cons, ← inductionHypothesis, Bool.and_eq_true,
      Bool.and_eq_true]
    rfl

/-- A block is whole if its statements are. -/
theorem stmts_allWhole_iff {statements : List Stmt} :
    Stmt.allWhole gaps statements ↔ ∀ statement ∈ statements, statement.isWhole gaps := by
  induction statements with
  | nil => simp [Stmt.allWhole]
  | cons first rest inductionHypothesis =>
    rw [Stmt.allWhole, List.forall_mem_cons, ← inductionHypothesis, Bool.and_eq_true]

/-- What may be left out and is there is whole. -/
theorem whole_of_present {value : Expr} (whole : value.isWholeOrAbsent gaps)
    (present : ¬ value.isAbsent) : value.isWhole gaps :=
  (Bool.or_eq_true_iff.mp whole).resolve_left present

theorem isWholeOrAbsent_of_allWhole {values : List Expr} (whole : Expr.allWhole gaps values)
    {value : Expr} (member : value ∈ values) : value.isWholeOrAbsent gaps := by
  rw [Expr.isWholeOrAbsent, Bool.or_eq_true]
  exact (allWhole_iff.mp whole value member).symm.imp_left And.right

end Oxide
