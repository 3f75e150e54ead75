/-
This file ties a table to the changes that it was made by. A history is a sequence of changes:
binding a name, entering a scope, leaving one. It is divided into stretches, each of which begins
and ends in one scope, and what is bound on the way in scopes that are left again does not count.
The scopes that are still open behind a history, with the bindings made in each of them in order,
decide whatever a table can be asked.

Names are listed in the order of their spelling, which is also the order of their bytes.
-/

import Mathlib.Data.List.Induction
import Mathlib.Data.String.Basic
import Oxide.Proofs.BoundNames

namespace Oxide

/-! ### The order of bytes -/

namespace Text

theorem toNat_ofNat_of_lt {number : Nat} (small : number < 256) :
    (UInt8.ofNat number).toNat = number := by
  rw [UInt8.toNat_ofNat']
  omega

/-- Of two characters the smaller one has the smaller bytes, and the difference shows before either
of them ends. -/
theorem utf8EncodeChar_append_lt {first second : Char} (less : first < second)
    (rest others : Bytes) :
    String.utf8EncodeChar first ++ rest < String.utf8EncodeChar second ++ others := by
  have less : first.val.toNat < second.val.toNat := less
  have bound : second.val.toNat < 1114112 := by
    have := second.valid
    unfold UInt32.isValidChar Nat.isValidChar at this
    omega
  unfold String.utf8EncodeChar
  generalize first.val.toNat = low, second.val.toNat = high at *
  -- The last digits in base 64 matter only if all digits before them agree.
  have last : low / 64 < high / 64 ∨ low / 64 = high / 64 ∧ low % 64 < high % 64 := by omega
  have third : low / 64 < high / 64 →
      low / 4096 < high / 4096 ∨ low / 4096 = high / 4096 ∧ low / 64 % 64 < high / 64 % 64 := by
    omega
  have second : low / 4096 < high / 4096 →
      low / 262144 < high / 262144 ∨
        low / 262144 = high / 262144 ∧ low / 4096 % 64 < high / 4096 % 64 := by
    omega
  have leading : low / 262144 % 8 = low / 262144 ∧ high / 262144 % 8 = high / 262144 := by omega
  dsimp only
  split_ifs <;>
    simp (disch := omega) only [List.cons_append, List.nil_append, List.cons_lt_cons_iff,
      UInt8.lt_iff_toNat_lt, ← UInt8.toNat_inj, toNat_ofNat_of_lt] <;>
    omega

/-- The order of texts is the order of their bytes. -/
theorem utf8_lt_utf8_of_lt {first second : String} (less : first < second) :
    utf8 first < utf8 second := by
  rw [String.lt_iff_toList_lt] at less
  unfold utf8
  generalize first.toList = characters, second.toList = others at *
  induction less with
  | @nil character rest =>
    cases encoded : String.utf8EncodeChar character with
    | nil => exact absurd encoded String.utf8EncodeChar_ne_nil
    | cons byte bytes =>
      rw [List.flatMap_cons, encoded]
      exact List.nil_lt_cons _ _
  | rel less =>
    rw [List.flatMap_cons, List.flatMap_cons]
    exact utf8EncodeChar_append_lt less _ _
  | cons _ inductionHypothesis =>
    rw [List.flatMap_cons, List.flatMap_cons]
    exact List.append_left_lt inductionHypothesis

end Text

/-! ### Bindings made one after another -/

namespace Bindings

/-- The bindings of a scope in which the given ones are made in order. -/
def insertAll (inserts : List (String × Symbol)) (bindings : Bindings) : Bindings :=
  inserts.foldl (fun bindings (name, symbol) => insert name symbol bindings) bindings

/-- Whether the names are in order. -/
def Sorted (bindings : Bindings) : Prop :=
  (bindings.map Prod.fst).Pairwise (· < ·)

/-- An insertion adds its name and keeps all others. -/
theorem mem_map_fst_insert {name other : String} {symbol : Symbol} {bindings : Bindings} :
    other ∈ (insert name symbol bindings).map Prod.fst ↔
      other = name ∨ other ∈ bindings.map Prod.fst := by
  fun_induction insert name symbol bindings with
  | case1 => simp
  | case2 => simp
  | case3 => simp
  | case4 _ _ _ _ _ inductionHypothesis =>
    rw [List.map_cons, List.mem_cons, inductionHypothesis, List.map_cons, List.mem_cons]
    exact or_left_comm

/-- An insertion keeps bindings in the order of their names. -/
theorem Sorted.insert {bindings : Bindings} (sorted : bindings.Sorted) (name : String)
    (symbol : Symbol) : (Bindings.insert name symbol bindings).Sorted := by
  fun_induction Bindings.insert name symbol bindings with
  | case1 => exact List.pairwise_singleton _ _
  | case2 other old rest less =>
    obtain ⟨above, _⟩ := List.pairwise_cons.mp sorted
    refine List.pairwise_cons.mpr ⟨fun later member => ?_, sorted⟩
    rcases List.mem_cons.mp member with rfl | inRest
    · exact less
    · exact less.trans (above later inRest)
  | case3 => exact sorted
  | case4 other old rest notLess different inductionHypothesis =>
    obtain ⟨above, restSorted⟩ := List.pairwise_cons.mp sorted
    refine List.pairwise_cons.mpr ⟨fun later member => ?_, inductionHypothesis restSorted⟩
    rcases mem_map_fst_insert.mp member with rfl | inRest
    · exact lt_of_le_of_ne (not_lt.mp notLess) (Ne.symm different)
    · exact above later inRest

theorem sorted_insertAll (inserts : List (String × Symbol)) {bindings : Bindings}
    (sorted : bindings.Sorted) : (insertAll inserts bindings).Sorted := by
  induction inserts generalizing bindings with
  | nil => exact sorted
  | cons first rest inductionHypothesis =>
    exact inductionHypothesis (sorted.insert first.1 first.2)

theorem mem_map_fst_insertAll (name : String) (inserts : List (String × Symbol))
    (bindings : Bindings) :
    name ∈ (insertAll inserts bindings).map Prod.fst ↔
      name ∈ inserts.map Prod.fst ∨ name ∈ bindings.map Prod.fst := by
  induction inserts generalizing bindings with
  | nil => simp [insertAll]
  | cons first rest inductionHypothesis =>
    have step := inductionHypothesis (insert first.1 first.2 bindings)
    rw [mem_map_fst_insert] at step
    rw [List.map_cons, List.mem_cons, or_assoc, or_left_comm]
    exact step

/-- The last one of the bindings of a name that are made in order. -/
def latest? (name : String) (inserts : List (String × Symbol)) : Option Symbol :=
  (inserts.findRev? fun (other, _) => other = name).map Prod.snd

/-- A name has no latest symbol if it was never inserted. -/
theorem latest?_eq_none_iff {name : String} {inserts : List (String × Symbol)} :
    latest? name inserts = none ↔ ∀ symbol, (name, symbol) ∉ inserts := by
  rw [latest?, List.findRev?_eq_find?_reverse, Option.map_eq_none_iff, List.find?_eq_none]
  constructor
  · intro none symbol member
    exact none (name, symbol) (List.mem_reverse.mpr member) (by simp)
  · rintro none ⟨other, symbol⟩ member same
    obtain rfl : other = name := by simpa using same
    exact none symbol (List.mem_reverse.mp member)

/-- A later insertion of a name wins over an earlier one. -/
theorem latest?_cons (name : String) (first : String × Symbol) (rest : List (String × Symbol)) :
    latest? name (first :: rest) =
      (latest? name rest).or (if first.1 = name then some first.2 else none) := by
  simp only [latest?, List.findRev?_eq_find?_reverse, List.reverse_cons, List.find?_append,
    Option.map_or]
  by_cases same : first.1 = name <;> simp [same]

/-- The latest symbol of a name is found, or what was there before. -/
theorem find?_insertAll (name : String) (inserts : List (String × Symbol)) (bindings : Bindings) :
    find? name (insertAll inserts bindings) =
      (latest? name inserts).or (find? name bindings) := by
  induction inserts generalizing bindings with
  | nil => rfl
  | cons first rest inductionHypothesis =>
    have step := inductionHypothesis (insert first.1 first.2 bindings)
    rw [latest?_cons, Option.or_assoc]
    refine step.trans (congrArg _ ?_)
    by_cases same : first.1 = name
    · subst same
      rw [find?_insert_self, if_pos rfl, Option.some_or]
    · rw [find?_insert_of_ne (Ne.symm same), if_neg same, Option.none_or]

end Bindings

/-! ### Histories -/

namespace Table

/-- A change of a table. -/
inductive Change where
  | insert (name : String) (symbol : Symbol)
  | push (kind : ScopeKind) (name : String)
  | pop

/-- The table behind a change. -/
def change (table : Table) : Change → Table
  | .insert name symbol => table.insert name symbol
  | .push kind name => table.push kind name
  | .pop => table.pop

/-- The table behind a history. -/
def after (table : Table) (history : List Change) : Table :=
  history.foldl change table

theorem after_cons (table : Table) (first : Change) (rest : List Change) :
    table.after (first :: rest) = (table.change first).after rest := rfl

theorem after_append (table : Table) (first second : List Change) :
    table.after (first ++ second) = (table.after first).after second :=
  List.foldl_append

/-- A stretch of a history that begins and ends in one scope, with the bindings that are made in
this scope itself. A scope that is entered on the way is left again. The outermost scope is never
left, so there it changes nothing to leave. -/
inductive Stretch : (outermost : Bool) → List Change → List (String × Symbol) → Prop where
  | nil {outermost : Bool} : Stretch outermost [] []
  | insert {outermost : Bool} {rest : List Change} {inserts : List (String × Symbol)}
      (name : String) (symbol : Symbol) (later : Stretch outermost rest inserts) :
      Stretch outermost (.insert name symbol :: rest) ((name, symbol) :: inserts)
  | visit {outermost : Bool} {inner rest : List Change} {others inserts : List (String × Symbol)}
      (kind : ScopeKind) (name : String) (within : Stretch false inner others)
      (later : Stretch outermost rest inserts) :
      Stretch outermost (.push kind name :: inner ++ .pop :: rest) inserts
  | stay {rest : List Change} {inserts : List (String × Symbol)}
      (later : Stretch true rest inserts) : Stretch true (.pop :: rest) inserts

/-- A scope that is open, with the bindings that were made in it in order. -/
structure OpenScope where
  kind : ScopeKind
  name : String
  inserts : List (String × Symbol)

/-- The scopes that a history leaves open around its end, the innermost first. -/
inductive Leaves : List Change → List OpenScope → Prop where
  | outermost {history : List Change} {inserts : List (String × Symbol)}
      (stretch : Stretch true history inserts) : Leaves history [⟨.module, "", inserts⟩]
  | enter {history later : List Change} {scopes : List OpenScope}
      {inserts : List (String × Symbol)} (kind : ScopeKind) (name : String)
      (before : Leaves history scopes) (stretch : Stretch false later inserts) :
      Leaves (history ++ .push kind name :: later) (⟨kind, name, inserts⟩ :: scopes)

/-- The scopes that are open behind a history of a new table, or of one without any scope, which
gets its outermost scope as soon as something is put into it. -/
inductive OpenBehind : Table → List Change → List OpenScope → Prop where
  | new {history : List Change} {scopes : List OpenScope} (leaves : Leaves history scopes) :
      OpenBehind Table.new history scopes
  | unused {history : List Change} (idle : ∀ change ∈ history, change = .pop) :
      OpenBehind Table.empty history []
  | used {history : List Change} {scopes : List OpenScope}
      (busy : ∃ change ∈ history, change ≠ .pop) (leaves : Leaves history scopes) :
      OpenBehind Table.empty history scopes

/-! ### Every history can be divided -/

namespace Stretch

variable {outermost : Bool} {first second : List Change} {inserts others : List (String × Symbol)}

theorem append (stretch : Stretch outermost first inserts)
    (following : Stretch outermost second others) :
    Stretch outermost (first ++ second) (inserts ++ others) := by
  induction stretch with
  | nil => exact following
  | insert name symbol _ inductionHypothesis =>
    exact .insert name symbol (inductionHypothesis following)
  | visit kind name within _ _ inductionHypothesis =>
    have joined := visit kind name within (inductionHypothesis following)
    simpa only [List.append_assoc, List.cons_append] using joined
  | stay _ inductionHypothesis => exact .stay (inductionHypothesis following)

theorem of_false (stretch : Stretch false first inserts) : Stretch outermost first inserts := by
  generalize inside : false = flag at stretch
  induction stretch with
  | nil => exact .nil
  | insert name symbol _ inductionHypothesis =>
    exact .insert name symbol (inductionHypothesis inside)
  | visit kind name within _ _ inductionHypothesis =>
    exact .visit kind name within (inductionHypothesis inside)
  | stay => cases inside

end Stretch

/-- A history goes on in the innermost scope that it leaves open. -/
theorem Leaves.extend {history more : List Change} {scope : OpenScope} {scopes : List OpenScope}
    {inserts : List (String × Symbol)} (leaves : Leaves history (scope :: scopes))
    (stretch : Stretch false more inserts) :
    Leaves (history ++ more) ({ scope with inserts := scope.inserts ++ inserts } :: scopes) := by
  cases leaves with
  | outermost before => exact .outermost (before.append stretch.of_false)
  | enter kind name before inner =>
    rw [List.append_assoc, List.cons_append]
    exact .enter kind name before (inner.append stretch)

/-- Every change leaves scopes open, whatever was open before it. -/
theorem Leaves.exists_concat {history : List Change} {scopes : List OpenScope}
    (leaves : Leaves history scopes) (change : Change) :
    ∃ others, Leaves (history ++ [change]) others := by
  cases change with
  | insert name symbol =>
    cases scopes with
    | nil => cases leaves
    | cons scope outer => exact ⟨_, leaves.extend (.insert name symbol .nil)⟩
  | push kind name => exact ⟨_, .enter kind name leaves .nil⟩
  | pop =>
    cases leaves with
    | outermost stretch => exact ⟨_, .outermost (stretch.append (.stay .nil))⟩
    | @enter before later outer inserts kind name leaves stretch =>
      cases outer with
      | nil => cases leaves
      | cons scope outer =>
        -- The scope that was entered last is now one that was visited.
        have visited := leaves.extend (.visit kind name stretch .nil)
        rw [List.append_assoc]
        exact ⟨_, visited⟩

/-- Every history leaves some scopes open, by induction over its changes. -/
theorem exists_leaves (history : List Change) : ∃ scopes, Leaves history scopes := by
  induction history using List.reverseRecOn with
  | nil => exact ⟨_, .outermost .nil⟩
  | append_singleton history change inductionHypothesis =>
    obtain ⟨scopes, leaves⟩ := inductionHypothesis
    exact leaves.exists_concat change

/-! ### Tables behind histories -/

/-- A scope with the bindings that were made in it. -/
def OpenScope.toScope (scope : OpenScope) : Scope :=
  { kind := scope.kind
    name := scope.name
    bindings := Bindings.insertAll scope.inserts [] }

/-- A stretch changes the innermost scope by its insertions and nothing else. -/
theorem after_stretch {outermost : Bool} {history : List Change}
    {inserts : List (String × Symbol)} (stretch : Stretch outermost history inserts)
    (inner : Scope) (outer : List Scope) (alone : outermost → outer = []) :
    after ⟨inner :: outer⟩ history =
      ⟨{ inner with bindings := Bindings.insertAll inserts inner.bindings } :: outer⟩ := by
  induction stretch generalizing inner outer with
  | nil => rfl
  | insert name symbol _ inductionHypothesis =>
    exact inductionHypothesis
      { inner with bindings := Bindings.insert name symbol inner.bindings } outer alone
  | visit kind name within _ insideHypothesis inductionHypothesis =>
    rw [List.cons_append, after_cons, after_append, after_cons]
    have inside := insideHypothesis ⟨kind, name, []⟩ (inner :: outer) nofun
    exact (congrArg (fun table => after (pop table) _) inside).trans
      (inductionHypothesis inner outer alone)
  | stay _ inductionHypothesis =>
    cases alone rfl
    exact inductionHypothesis inner [] alone

/-- The table behind a history holds the scopes that the history leaves open. -/
theorem after_of_leaves {history : List Change} {scopes : List OpenScope}
    (leaves : Leaves history scopes) :
    Table.new.after history = ⟨scopes.map OpenScope.toScope⟩ := by
  induction leaves with
  | outermost stretch => exact after_stretch stretch Scope.outermost [] fun _ => rfl
  | @enter before later scopes inserts kind name leaves stretch inductionHypothesis =>
    rw [after_append, inductionHypothesis, after_cons]
    cases scopes with
    | nil => cases leaves
    | cons scope outer => exact after_stretch stretch ⟨kind, name, []⟩ _ nofun

theorem after_empty_of_idle {history : List Change} (idle : ∀ change ∈ history, change = .pop) :
    Table.empty.after history = Table.empty := by
  induction history with
  | nil => rfl
  | cons first rest inductionHypothesis =>
    obtain rfl := idle first List.mem_cons_self
    exact inductionHypothesis fun change member => idle change (List.mem_cons_of_mem _ member)

/-- The first change other than a pop makes an empty table as good as a new one. -/
theorem after_empty_of_busy {history : List Change} (busy : ∃ change ∈ history, change ≠ .pop) :
    Table.empty.after history = Table.new.after history := by
  induction history with
  | nil => simp at busy
  | cons first rest inductionHypothesis =>
    cases first with
    | pop => exact inductionHypothesis (by simpa using busy)
    | insert name symbol => rfl
    | push kind name => rfl

theorem after_of_openBehind {start : Table} {history : List Change} {scopes : List OpenScope}
    (behind : OpenBehind start history scopes) :
    start.after history = ⟨scopes.map OpenScope.toScope⟩ := by
  cases behind with
  | new leaves => exact after_of_leaves leaves
  | unused idle => exact after_empty_of_idle idle
  | used busy leaves => rw [after_empty_of_busy busy, after_of_leaves leaves]

/-- Every history from a new or an empty table leaves certain scopes open. -/
theorem exists_openBehind {start : Table} (isStart : start = .new ∨ start = .empty)
    (history : List Change) : ∃ scopes, OpenBehind start history scopes := by
  obtain ⟨scopes, leaves⟩ := exists_leaves history
  rcases isStart with rfl | rfl
  · exact ⟨scopes, .new leaves⟩
  · by_cases idle : ∀ change ∈ history, change = .pop
    · exact ⟨[], .unused idle⟩
    · push Not at idle
      exact ⟨scopes, .used idle leaves⟩

/-! ### What a table shows -/

/-- Whether a table answers every question from the scopes that are open. -/
structure Shows (table : Table) (scopes : List OpenScope) : Prop where
  lookup (name : String) :
    table.lookup name = scopes.findSome? fun scope => Bindings.latest? name scope.inserts
  lookup_eq_none_iff (name : String) :
    table.lookup name = none ↔ ∀ scope ∈ scopes, ∀ symbol, (name, symbol) ∉ scope.inserts
  lookupLocal (name : String) :
    table.lookupLocal name = scopes.head?.bind fun scope => Bindings.latest? name scope.inserts
  increasing : table.names.Pairwise fun first second => Text.utf8 first < Text.utf8 second
  mem_names (name : String) :
    name ∈ table.names ↔ ∃ scope ∈ scopes.head?, ∃ symbol, (name, symbol) ∈ scope.inserts
  scope : table.scope = (scopes.head?.map fun scope => (scope.kind, scope.name)).getD (.module, "")
  depth : table.depth = scopes.length

theorem shows_toScopes (scopes : List OpenScope) :
    Shows ⟨scopes.map OpenScope.toScope⟩ scopes := by
  have found (name : String) :
      lookup ⟨scopes.map OpenScope.toScope⟩ name =
        scopes.findSome? fun scope => Bindings.latest? name scope.inserts := by
    simp [Table.lookup, List.findSome?_map, Function.comp_def, OpenScope.toScope,
      Bindings.find?_insertAll, Bindings.find?]
  refine ⟨found, fun name => ?_, fun name => ?_, ?_, fun name => ?_, ?_, by simp [depth]⟩
  · simp only [found, List.findSome?_eq_none_iff, Bindings.latest?_eq_none_iff]
  · cases scopes with
    | nil => rfl
    | cons inner outer =>
      exact (Bindings.find?_insertAll name inner.inserts []).trans (Option.or_none)
  · have sorted : Bindings.Sorted (parts ⟨scopes.map OpenScope.toScope⟩).1.bindings := by
      cases scopes with
      | nil => exact .nil
      | cons inner outer => exact Bindings.sorted_insertAll inner.inserts .nil
    exact sorted.imp Text.utf8_lt_utf8_of_lt
  · cases scopes with
    | nil => simp [names, parts, Scope.outermost]
    | cons inner outer =>
      have listed := Bindings.mem_map_fst_insertAll name inner.inserts []
      simpa [names, parts, OpenScope.toScope] using listed
  · cases scopes with
    | nil => rfl
    | cons inner outer => rfl

/-- Behind every history of a new table, or of one without any scope, the table shows the scopes
that are open there. With at most one of them open it changes nothing to leave, and a table without
any scope opens the outermost one for the first change that is put into it. -/
theorem after_shows_open_scopes {start : Table} (isStart : start = .new ∨ start = .empty)
    (history : List Change) :
    (∃ scopes, OpenBehind start history scopes) ∧
      ∀ scopes, OpenBehind start history scopes →
        (start.after history).Shows scopes ∧
        (scopes.length ≤ 1 → start.after (history ++ [.pop]) = start.after history) ∧
        (scopes = [] → ∀ change, change ≠ .pop →
          start.after (history ++ [change]) = Table.new.after [change]) := by
  refine ⟨exists_openBehind isStart history, fun scopes behind => ?_⟩
  simp only [after_append, after_of_openBehind behind]
  refine ⟨shows_toScopes scopes, fun few => ?_, fun none change notPop => ?_⟩
  · match scopes with
    | [] => rfl
    | [_] => rfl
  · subst none
    cases change with
    | pop => exact absurd rfl notPop
    | insert name symbol => rfl
    | push kind name => rfl

/-- A table without any scope, in which a function binds a name, enters and leaves a block, and
binds the name again. -/
theorem after_shows_open_scopes_rebound :
    let hint := Expr.name "int"
    let history : List Change :=
      [.pop, .push .function "f", .insert "x" .unknown, .push .block "if",
        .insert "y" .unknown, .pop, .insert "x" (.variable "x" hint)]
    let scopes : List OpenScope :=
      [⟨.function, "f", [("x", .unknown), ("x", .variable "x" hint)]⟩, ⟨.module, "", []⟩]
    OpenBehind Table.empty history scopes ∧
      (Table.empty.after history).lookup "x" = some (.variable "x" hint) ∧
      (Table.empty.after history).lookup "y" = none ∧
      (Table.empty.after history).depth = 2 := by
  intro hint history scopes
  have behind : OpenBehind Table.empty history scopes := by
    refine .used ⟨.push .function "f", by simp [history], nofun⟩ ?_
    refine .enter .function "f" (.outermost (.stay .nil)) (.insert _ _ ?_)
    exact .visit .block "if" (.insert _ _ .nil) (.insert _ _ .nil)
  obtain ⟨shows, -⟩ := (after_shows_open_scopes (.inr rfl) history).2 scopes behind
  exact ⟨behind, shows.lookup "x", shows.lookup "y", shows.depth⟩

end Table

end Oxide
