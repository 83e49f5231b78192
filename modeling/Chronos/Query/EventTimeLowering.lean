import Chronos.Cseg.Pruning
import Chronos.Schema.History

/-!
`src/query/distributed_sql_lowering.cpp`: the event-time predicate of a WHERE clause.

* `SqlExpression`: a node of the parsed statement; `BoundSqlSelect` has the column references that
  the binder found, by the spans of their nodes.
* `lowerEventTimeLeaf`: folds a conjunction into one lower and one upper bound.
* `evaluate`: the evaluator of `evaluator.cpp` on AND, comparisons, BETWEEN, columns and TIMESTAMP
  literals, with the three truth values of SQL; the limit of its recursion is left out.
* `event_time_filtering`: the bounds mean what the clause means, and pruning with them keeps every
  granule that has a row of the result.

The parser of TIMESTAMP literals is a parameter: both the lowering and the evaluator call it.
-/

namespace Chronos.Query

open Schema Cseg Option

/-! ### Expressions -/

/-- `SqlExpressionKind`. -/
inductive SqlExpressionKind where
  | star | literal | column | function | cast | unary | binary | isNull | between | isIn
  deriving DecidableEq, Repr

/-- `SqlLiteralKind`. -/
inductive SqlLiteralKind where
  | null | boolean | integer | float | string | binary | timestamp | date | interval | uuid
  deriving DecidableEq, Repr

/-- `SqlOperator`. -/
inductive SqlOperator where
  | none | or | and | not | equal | notEqual | less | lessEqual | greater | greaterEqual | add
  | subtract | multiply | divide | remainder | positive | negative | isNull | isNotNull | between
  | notBetween | isIn | notIn
  deriving DecidableEq, Repr

/-- `SourceSpan`: byte offset, line and column of its beginning, and its length. -/
structure SourceSpan where
  byteOffset : ℕ
  line : ℕ
  column : ℕ
  byteLength : ℕ
  deriving DecidableEq, Repr

/-- `SqlExpression`, less the names of columns and the types of casts. -/
inductive SqlExpression where
  | node (kind : SqlExpressionKind) (literalKind : SqlLiteralKind) (operation : SqlOperator)
      (text : String) (children : List SqlExpression) (span : SourceSpan)

namespace SqlExpression

/-- `kind()`. -/
def kind : SqlExpression → SqlExpressionKind
  | node kind _ _ _ _ _ => kind

/-- `literal_kind()`. -/
def literalKind : SqlExpression → SqlLiteralKind
  | node _ literalKind _ _ _ _ => literalKind

/-- `text()`. -/
def text : SqlExpression → String
  | node _ _ _ text _ _ => text

/-- `span()`. -/
def span : SqlExpression → SourceSpan
  | node _ _ _ _ _ span => span

end SqlExpression

/-- `BoundColumnReference`, less the table, the type and the nullability. -/
structure BoundColumnReference where
  expressionSpan : SourceSpan
  sourceOrdinal : ℕ
  columnOrdinal : ℕ
  columnId : ColumnId
  deriving DecidableEq

/-- The column references of a `BoundSqlSelect`. -/
structure BoundSqlSelect where
  columnReferences : List BoundColumnReference

/-- `find_column_reference`. -/
def BoundSqlSelect.findColumnReference (select : BoundSqlSelect) (span : SourceSpan) :
    Option BoundColumnReference :=
  select.columnReferences.find? fun reference => reference.expressionSpan = span

/-- `SqlDiagnosticCode`, the codes of the lowering. -/
inductive SqlDiagnosticCode where
  | unsupportedSyntax | executionFailure
  deriving DecidableEq, Repr

/-- `SqlDiagnostic`. -/
structure SqlDiagnostic where
  code : SqlDiagnosticCode
  span : SourceSpan
  status : Status
  deriving DecidableEq, Repr

/-- `unsupported`. -/
def unsupported (span : SourceSpan) (message : String) : SqlDiagnostic :=
  ⟨.unsupportedSyntax, span, .notSupported, message⟩

/-! ### Lowering -/

section Lowering

variable (parseTimestamp : String → Option ℤ) (select : BoundSqlSelect) (schema : TableSchema)

/-- `apply_lower`. -/
def applyLower (predicate : EventTimePredicate) (candidate : EventTimeBound) : EventTimePredicate :=
  match predicate.lower with
  | none => { predicate with lower := some candidate }
  | some lower =>
    if lower.value < candidate.value then { predicate with lower := some candidate }
    else if candidate.value = lower.value then
      { predicate with
        lower := some { lower with inclusive := lower.inclusive && candidate.inclusive } }
    else predicate

/-- `apply_upper`. -/
def applyUpper (predicate : EventTimePredicate) (candidate : EventTimeBound) : EventTimePredicate :=
  match predicate.upper with
  | none => { predicate with upper := some candidate }
  | some upper =>
    if candidate.value < upper.value then { predicate with upper := some candidate }
    else if candidate.value = upper.value then
      { predicate with
        upper := some { upper with inclusive := upper.inclusive && candidate.inclusive } }
    else predicate

/-- `event_time_reference`. -/
def eventTimeReference (reference : BoundColumnReference) : Prop :=
  reference.sourceOrdinal = 0 ∧ reference.columnId = schema.roles.eventTimeColumn

instance (reference : BoundColumnReference) : Decidable (eventTimeReference schema reference) :=
  inferInstanceAs (Decidable (_ ∧ _))

/-- `timestamp_literal`. -/
def timestampLiteral (literal : SqlExpression) : Except SqlDiagnostic ℤ := do
  require (literal.kind = .literal ∧ literal.literalKind = .timestamp)
    (unsupported literal.span "Distributed event-time bounds must be TIMESTAMP literals")
  requireSome ⟨.executionFailure, literal.span, .internal,
    "Bound TIMESTAMP literal could not be lowered"⟩ (parseTimestamp literal.text)

/-- The comparison with its sides exchanged. -/
def SqlOperator.flipped : SqlOperator → SqlOperator
  | .less => .greater
  | .lessEqual => .greaterEqual
  | .greater => .less
  | .greaterEqual => .lessEqual
  | operation => operation

/-- `apply_comparison`. -/
def applyComparison (predicate : EventTimePredicate) (operation : SqlOperator) (value : ℤ)
    (columnOnLeft : Bool) (span : SourceSpan) : Except SqlDiagnostic EventTimePredicate :=
  match if columnOnLeft then operation else operation.flipped with
  | .equal => .ok (applyUpper (applyLower predicate ⟨value, true⟩) ⟨value, true⟩)
  | .greater => .ok (applyLower predicate ⟨value, false⟩)
  | .greaterEqual => .ok (applyLower predicate ⟨value, true⟩)
  | .less => .ok (applyUpper predicate ⟨value, false⟩)
  | .lessEqual => .ok (applyUpper predicate ⟨value, true⟩)
  | _ => .error (unsupported span "Distributed WHERE supports only event-time range comparisons")

/-- The BETWEEN of `lower_event_time_leaf`. -/
def lowerBetween (operation : SqlOperator) (children : List SqlExpression) (span : SourceSpan)
    (predicate : EventTimePredicate) : Except SqlDiagnostic EventTimePredicate :=
  match operation, children with
  | .between, [value, lower, upper] => do
    require (∃ reference ∈ select.findColumnReference value.span,
        eventTimeReference schema reference)
      (unsupported value.span "Distributed WHERE can filter only the source event-time column")
    let least ← timestampLiteral parseTimestamp lower
    let greatest ← timestampLiteral parseTimestamp upper
    .ok (applyUpper (applyLower predicate ⟨least, true⟩) ⟨greatest, true⟩)
  | _, _ => .error
    (unsupported span "Distributed WHERE supports inclusive event-time BETWEEN only")

/-- Whether a node is a TIMESTAMP literal. -/
def SqlExpression.isTimestampLiteral (expression : SqlExpression) : Bool :=
  expression.kind = .literal && expression.literalKind = .timestamp

/-- The comparison of `lower_event_time_leaf`. -/
def lowerComparison (operation : SqlOperator) (left right : SqlExpression) (span : SourceSpan)
    (predicate : EventTimePredicate) : Except SqlDiagnostic EventTimePredicate :=
  let leftReference := select.findColumnReference left.span
  let rightReference := select.findColumnReference right.span
  let columnOnLeft := leftReference.isSome && right.isTimestampLiteral
  let columnOnRight := rightReference.isSome && left.isTimestampLiteral
  if columnOnLeft = columnOnRight then
    .error (unsupported span
      "Distributed WHERE requires one event-time column and one TIMESTAMP literal")
  else do
    require (∃ reference ∈ if columnOnLeft then leftReference else rightReference,
        eventTimeReference schema reference)
      (unsupported span "Distributed WHERE can filter only the source event-time column")
    let value ← timestampLiteral parseTimestamp (if columnOnLeft then right else left)
    applyComparison predicate operation value columnOnLeft span

/-- `lower_event_time_leaf`. -/
def lowerEventTimeLeaf : SqlExpression → EventTimePredicate →
    Except SqlDiagnostic EventTimePredicate
  | .node .binary _ .and _ [left, right] _, predicate => do
    let predicate ← lowerEventTimeLeaf left predicate
    lowerEventTimeLeaf right predicate
  | .node .between _ operation _ children span, predicate =>
    lowerBetween parseTimestamp select schema operation children span predicate
  | .node .binary _ operation _ [left, right] span, predicate =>
    lowerComparison parseTimestamp select schema operation left right span predicate
  | .node _ _ _ _ _ span, _ => .error (unsupported span
      "Distributed WHERE requires event-time comparisons or BETWEEN joined by AND")

/-- The lowering of a WHERE clause: `lower_event_time_leaf` from no bounds; it has to give one. -/
def lowerWhere (clause : SqlExpression) : Except SqlDiagnostic EventTimePredicate := do
  let predicate ← lowerEventTimeLeaf parseTimestamp select schema clause ⟨none, none⟩
  require (predicate.lower.isSome ∨ predicate.upper.isSome)
    ⟨.executionFailure, clause.span, .internal, "Distributed WHERE produced no event-time bound"⟩
  .ok predicate

end Lowering

/-! ### The bounds of a clause -/

/-- A new lower bound adds its condition. -/
lemma matches_applyLower (predicate : EventTimePredicate) (bound : EventTimeBound) (t : ℤ) :
    (applyLower predicate bound).Matches t ↔ predicate.Matches t ∧ bound.AtLeast t := by
  obtain ⟨_ | ⟨_, _⟩, _⟩ := predicate
  · simp [applyLower, EventTimePredicate.Matches, and_comm]
  · simp only [applyLower]
    split_ifs with hlt heq <;>
      simp only [EventTimePredicate.Matches, EventTimeBound.AtLeast, mem_some_iff,
        forall_eq'] <;> grind

/-- A new upper bound adds its condition. -/
lemma matches_applyUpper (predicate : EventTimePredicate) (bound : EventTimeBound) (t : ℤ) :
    (applyUpper predicate bound).Matches t ↔ predicate.Matches t ∧ bound.AtMost t := by
  obtain ⟨_, _ | ⟨_, _⟩⟩ := predicate
  · simp [applyUpper, EventTimePredicate.Matches]
  · simp only [applyUpper]
    split_ifs with hlt heq <;>
      simp only [EventTimePredicate.Matches, EventTimeBound.AtMost, mem_some_iff,
        forall_eq'] <;> grind

/-! ### The meaning of a clause -/

/-- The scalar values of the modelled part of the evaluator. -/
inductive SqlValue where
  | null
  | boolean (value : Bool)
  | timestamp (value : ℤ)
  deriving DecidableEq, Repr

/-- `truth`: unknown is `some none`, and a value that is no truth value fails. -/
def truth : SqlValue → Option (Option Bool)
  | .null => some none
  | .boolean value => some (some value)
  | .timestamp _ => none

/-- `boolean`. -/
def ofTruth : Option Bool → SqlValue
  | none => .null
  | some value => .boolean value

/-- `sql_and`. -/
def sqlAnd : Option Bool → Option Bool → Option Bool
  | some false, _ => some false
  | _, some false => some false
  | some true, some true => some true
  | _, _ => none

/-- `sql_not`. -/
def sqlNot : Option Bool → Option Bool := Option.map (!·)

/-- The answer of a comparison of two times; `none` for other operators. -/
def SqlOperator.compares : SqlOperator → ℤ → ℤ → Option Bool
  | .equal, left, right => some (left = right)
  | .notEqual, left, right => some (left ≠ right)
  | .less, left, right => some (left < right)
  | .lessEqual, left, right => some (left ≤ right)
  | .greater, left, right => some (right < left)
  | .greaterEqual, left, right => some (right ≤ left)
  | _, _, _ => Option.none

/-- `comparison` and `comparison_expression`, on TIMESTAMP values. -/
def comparison (operation : SqlOperator) : SqlValue → SqlValue → Option SqlValue
  | .null, _ => some .null
  | _, .null => some .null
  | .timestamp left, .timestamp right => (operation.compares left right).map .boolean
  | _, _ => none

section Meaning

variable (parseTimestamp : String → Option ℤ) (select : BoundSqlSelect) (schema : TableSchema)

/-- `evaluate`, with the columns of each source of a row. -/
def evaluate (row : ℕ → ℕ → Option SqlValue) : SqlExpression → Option SqlValue
  | .node .literal .timestamp _ text _ _ => (parseTimestamp text).map .timestamp
  | .node .column _ _ _ _ span => do
    let reference ← select.findColumnReference span
    row reference.sourceOrdinal reference.columnOrdinal
  | .node .binary _ .and _ [left, right] _ => do
    let lhs ← truth (← evaluate row left)
    -- a false left side decides
    if lhs = some false then some (.boolean false)
    else
      let rhs ← truth (← evaluate row right)
      some (ofTruth (sqlAnd lhs rhs))
  | .node .binary _ operation _ [left, right] _ => do
    comparison operation (← evaluate row left) (← evaluate row right)
  | .node .between _ operation _ [value, lower, upper] _ => do
    let value ← evaluate row value
    let lower ← evaluate row lower
    let upper ← evaluate row upper
    let low ← truth (← comparison .greaterEqual value lower)
    let high ← truth (← comparison .lessEqual value upper)
    let result := sqlAnd low high
    some (ofTruth (if operation = .notBetween then sqlNot result else result))
  | _ => none

/-- A row satisfies a clause that is true of it, neither false nor unknown. -/
def Satisfies (row : ℕ → ℕ → Option SqlValue) (clause : SqlExpression) : Prop :=
  evaluate parseTimestamp select row clause = some (.boolean true)

/-- The event-time column of a row has a time. -/
def HasEventTime (row : ℕ → ℕ → Option SqlValue) (t : ℤ) : Prop :=
  ∀ reference ∈ select.columnReferences, eventTimeReference schema reference →
    row reference.sourceOrdinal reference.columnOrdinal = some (.timestamp t)

/-- A node is the event-time column. -/
def IsEventTimeColumn (expression : SqlExpression) : Prop :=
  expression.kind = .column ∧ ∃ reference ∈ select.findColumnReference expression.span,
    eventTimeReference schema reference

/-- The operator is one of the six comparisons. -/
def SqlOperator.IsComparison (operation : SqlOperator) : Prop :=
  operation ∈ [.equal, .notEqual, .less, .lessEqual, .greater, .greaterEqual]

/-- The clauses built from AND, comparisons of the event-time column with TIMESTAMP literals and
inclusive BETWEEN. -/
inductive EventTimeClause : SqlExpression → Prop
  | and {literalKind text span left right} (hleft : EventTimeClause left)
      (hright : EventTimeClause right) :
      EventTimeClause (.node .binary literalKind .and text [left, right] span)
  | columnLeft {literalKind operation text span column literal}
      (hoperation : operation.IsComparison)
      (hcolumn : IsEventTimeColumn select schema column)
      (hliteral : literal.isTimestampLiteral = true) :
      EventTimeClause (.node .binary literalKind operation text [column, literal] span)
  | columnRight {literalKind operation text span column literal}
      (hoperation : operation.IsComparison)
      (hcolumn : IsEventTimeColumn select schema column)
      (hliteral : literal.isTimestampLiteral = true) :
      EventTimeClause (.node .binary literalKind operation text [literal, column] span)
  | between {literalKind text span column lower upper}
      (hcolumn : IsEventTimeColumn select schema column)
      (hlower : lower.isTimestampLiteral = true) (hupper : upper.isTimestampLiteral = true) :
      EventTimeClause (.node .between literalKind .between text [column, lower, upper] span)

variable {parseTimestamp select schema}
variable {row : ℕ → ℕ → Option SqlValue} {t : ℤ} {column : SqlExpression}

lemma evaluate_column (hrow : HasEventTime select schema row t)
    (hcolumn : IsEventTimeColumn select schema column) :
    evaluate parseTimestamp select row column = some (.timestamp t) := by
  obtain ⟨⟨⟩, _, _, _, _, span⟩ := column <;>
    obtain ⟨hkind, reference, hfound, htime⟩ := hcolumn <;> cases hkind
  have hvalue := hrow reference (List.mem_of_find?_eq_some hfound) htime
  have hfound : select.findColumnReference span = some reference := hfound
  simp [evaluate, hfound, hvalue]

variable {value : ℤ}

lemma evaluate_literal {literal : SqlExpression} (hliteral : literal.isTimestampLiteral = true)
    (hvalue : timestampLiteral parseTimestamp literal = .ok value) :
    evaluate parseTimestamp select row literal = some (.timestamp value) := by
  simp only [timestampLiteral, except_bind_eq_ok, require_eq_ok, requireSome_eq_ok,
    exists_const] at hvalue
  obtain ⟨⟨hkind, hliteralKind⟩, hparse⟩ := hvalue
  obtain ⟨⟨⟩, ⟨⟩, _, text, _, _⟩ := literal <;> cases hkind <;>
    cases hliteralKind
  have hparse : parseTimestamp text = some value := hparse
  simp [evaluate, hparse]

variable {predicate next : EventTimePredicate} {operation : SqlOperator} {span : SourceSpan}

/-- An accepted comparison adds its condition. -/
lemma applyComparison_matches {columnOnLeft : Bool}
    (h : applyComparison predicate operation value columnOnLeft span = .ok next) (t : ℤ) :
    ∃ holds : Bool, (if columnOnLeft then operation.compares t value
        else operation.compares value t) = some holds ∧
      (next.Matches t ↔ predicate.Matches t ∧ holds = true) := by
  cases columnOnLeft <;> cases operation <;>
    simp only [applyComparison, SqlOperator.flipped, Bool.false_eq_true, if_false, if_true,
      reduceCtorEq, Except.ok.injEq] at h <;>
    subst h <;>
    refine ⟨_, rfl, ?_⟩ <;>
    simp only [matches_applyLower, matches_applyUpper, EventTimeBound.AtLeast,
      EventTimeBound.AtMost, decide_eq_true_eq, and_true, Bool.false_eq_true, and_false,
      or_false] <;> grind

variable {literalKind : SqlLiteralKind} {text : String} {left right : SqlExpression}

/-- The evaluation of a comparison is not that of a conjunction. -/
lemma evaluate_comparison (hoperation : operation.IsComparison) {a b : ℤ}
    (hleft : evaluate parseTimestamp select row left = some (.timestamp a))
    (hright : evaluate parseTimestamp select row right = some (.timestamp b)) :
    evaluate parseTimestamp select row
        (.node .binary literalKind operation text [left, right] span) =
      (operation.compares a b).map .boolean := by
  cases operation <;> simp [SqlOperator.IsComparison] at hoperation <;>
    simp [evaluate, hleft, hright, comparison]

lemma lowerEventTimeLeaf_comparison (hoperation : operation.IsComparison)
    (predicate : EventTimePredicate) :
    lowerEventTimeLeaf parseTimestamp select schema
        (.node .binary literalKind operation text [left, right] span) predicate =
      lowerComparison parseTimestamp select schema operation left right span predicate := by
  cases operation <;> simp [SqlOperator.IsComparison] at hoperation <;> rfl

/-- A column is no literal. -/
lemma IsEventTimeColumn.not_literal (hcolumn : IsEventTimeColumn select schema column) :
    column.isTimestampLiteral = false := by
  simp [SqlExpression.isTimestampLiteral, hcolumn.1]

/-- The bounds after a clause are those before it and the clause. -/
lemma lowerEventTimeLeaf_matches {clause : SqlExpression}
    (hclause : EventTimeClause select schema clause) (hrow : HasEventTime select schema row t)
    (h : lowerEventTimeLeaf parseTimestamp select schema clause predicate = .ok next) :
    ∃ holds : Bool, evaluate parseTimestamp select row clause = some (.boolean holds) ∧
      (next.Matches t ↔ predicate.Matches t ∧ holds = true) := by
  induction hclause generalizing predicate next with
  | and _ _ ihLeft ihRight =>
    rw [lowerEventTimeLeaf, except_bind_eq_ok] at h
    obtain ⟨_, hmiddle, h⟩ := h
    obtain ⟨first, hfirst, hmatchesFirst⟩ := ihLeft hmiddle
    obtain ⟨second, hsecond, hmatchesSecond⟩ := ihRight h
    refine ⟨first && second, ?_, by rw [hmatchesSecond, hmatchesFirst]; simp [and_assoc]⟩
    cases first <;> cases second <;> simp [evaluate, hfirst, hsecond, truth, sqlAnd, ofTruth]
  | @columnLeft _ _ _ _ column _ hoperation hcolumn hliteral =>
    rw [lowerEventTimeLeaf_comparison hoperation] at h
    obtain ⟨reference, hfound, htime⟩ := hcolumn.2
    have hfound : select.findColumnReference column.span = some reference := hfound
    simp only [lowerComparison, hfound, hliteral, hcolumn.not_literal, isSome_some,
      Bool.and_true, Bool.and_false, Bool.true_eq_false, if_false, if_true, except_bind_eq_ok,
      require_eq_ok, exists_const] at h
    obtain ⟨-, value, hvalue, h⟩ := h
    obtain ⟨holds, hcompares, hmatches⟩ := applyComparison_matches h t
    refine ⟨holds, ?_, hmatches⟩
    rw [if_pos rfl] at hcompares
    rw [evaluate_comparison hoperation (evaluate_column hrow hcolumn)
      (evaluate_literal hliteral hvalue), hcompares, map_some]
  | @columnRight _ _ _ _ column _ hoperation hcolumn hliteral =>
    rw [lowerEventTimeLeaf_comparison hoperation] at h
    obtain ⟨reference, hfound, _⟩ := hcolumn.2
    have hfound : select.findColumnReference column.span = some reference := hfound
    simp only [lowerComparison, hfound, hliteral, hcolumn.not_literal, isSome_some,
      Bool.and_true, Bool.and_false, Bool.false_eq_true, if_false, except_bind_eq_ok,
      require_eq_ok, exists_const] at h
    obtain ⟨-, _, hvalue, h⟩ := h
    obtain ⟨holds, hcompares, hmatches⟩ := applyComparison_matches h t
    refine ⟨holds, ?_, hmatches⟩
    rw [if_neg Bool.false_ne_true] at hcompares
    rw [evaluate_comparison hoperation (evaluate_literal hliteral hvalue)
      (evaluate_column hrow hcolumn), hcompares, map_some]
  | between hcolumn hlower hupper =>
    simp only [lowerEventTimeLeaf, lowerBetween, except_bind_eq_ok, require_eq_ok, exists_const]
      at h
    obtain ⟨-, least, hleast, greatest, hgreatest, h⟩ := h
    cases Except.ok.inj h
    refine ⟨decide (least ≤ t) && decide (t ≤ greatest), ?_, ?_⟩
    · simp only [evaluate, evaluate_column hrow hcolumn, evaluate_literal hlower hleast,
        evaluate_literal hupper hgreatest, comparison, SqlOperator.compares, map_some,
        bind_eq_bind, bind_some, truth]
      cases decide (least ≤ t) <;> cases decide (t ≤ greatest) <;> rfl
    · rw [matches_applyUpper, matches_applyLower]
      simp only [EventTimeBound.AtLeast, EventTimeBound.AtMost, Bool.and_eq_true,
        decide_eq_true_eq, and_true, and_assoc]
      rw [← le_iff_lt_or_eq, ← le_iff_lt_or_eq]

end Meaning

/-- **Event-time filtering loses no row.**  For every accepted clause of AND, comparisons of the
event-time column with TIMESTAMP literals on either side and inclusive BETWEEN, a row satisfies it
if and only if the lowered predicate matches its event time.  For every part whose extrema bound its
rows, the plan of this predicate selects in increasing order a superset of the granules with a
matching row, with exact row counts; a plan is returned if the extrema are in order and the limit
admits the granules. -/
theorem event_time_filtering (parseTimestamp : String → Option ℤ) (select : BoundSqlSelect)
    (schema : TableSchema) {clause : SqlExpression}
    (hclause : EventTimeClause select schema clause) {predicate : EventTimePredicate}
    (haccepted : lowerWhere parseTimestamp select schema clause = .ok predicate) :
    (∀ (row : ℕ → ℕ → Option SqlValue) (t : ℤ), HasEventTime select schema row t →
      (Satisfies parseTimestamp select row clause ↔ predicate.matchesTimestamp t = true)) ∧
    ∀ (metadata : CsegMetadata) (times : ℕ → List ℤ), Bounds metadata times →
      ∀ maxGranules : ℕ,
        (∀ plan, planCsegV1EventTimePruning metadata (some predicate) maxGranules = .ok plan →
          Plans metadata (fun t => predicate.matchesTimestamp t = true) times plan) ∧
        (maxGranules ≤ u32Max → metadata.granules.length ≤ maxGranules → Ordered metadata →
          (∀ granule ∈ metadata.granules, granule.rowCount ≤ u32Max) →
          ∃ plan, planCsegV1EventTimePruning metadata (some predicate) maxGranules = .ok plan) := by
  constructor
  · intro row t hrow
    simp only [lowerWhere, except_bind_eq_ok, require_eq_ok, exists_const] at haccepted
    obtain ⟨_, hlowered, -, h⟩ := haccepted
    cases Except.ok.inj h
    obtain ⟨_, hevaluate, hmatches⟩ := lowerEventTimeLeaf_matches hclause hrow hlowered
    have hnone : EventTimePredicate.Matches ⟨none, none⟩ t := by
      simp [EventTimePredicate.Matches]
    rw [Satisfies, hevaluate, EventTimePredicate.matchesTimestamp_iff, hmatches,
      and_iff_right hnone]
    simp
  · intro metadata times hbounds maxGranules
    refine ⟨fun plan hplan => ?_, exists_plan⟩
    have hplans := plans_of_eq_ok hplan hbounds
    refine { hplans with superset := fun ordinal hlt t ht hmatched => ?_ }
    refine hplans.superset ordinal hlt t ht fun p hp => ?_
    rw [← mem_some_iff.1 hp]
    exact (EventTimePredicate.matchesTimestamp_iff _ _).1 hmatched

/-! ### A clause and a part -/

/-- The span of a sample node. -/
def eventsSpan (offset : ℕ) : SourceSpan := ⟨offset, 1, offset + 1, 2⟩

/-- The statement of the sample, with the column at offsets 0 and 30. -/
def eventsSelect : BoundSqlSelect :=
  ⟨[⟨eventsSpan 0, 0, 0, 1⟩, ⟨eventsSpan 30, 0, 0, 1⟩]⟩

/-- The literals of the sample, 10 and 20 nanoseconds after the epoch. -/
def firstText : String := "1970-01-01 00:00:00.00000001Z"

@[inherit_doc firstText]
def secondText : String := "1970-01-01 00:00:00.00000002Z"

/-- The clause `occurred_at >= first AND second > occurred_at`. -/
def eventsClause : SqlExpression :=
  let column (offset : ℕ) : SqlExpression :=
    .node .column .null .none "" [] (eventsSpan offset)
  let literal (text : String) (offset : ℕ) : SqlExpression :=
    .node .literal .timestamp .none text [] (eventsSpan offset)
  .node .binary .null .and "" [
    .node .binary .null .greaterEqual "" [column 0, literal firstText 10] (eventsSpan 5),
    .node .binary .null .greater "" [literal secondText 20, column 30] (eventsSpan 25)]
      (eventsSpan 15)

/-- The parser on the two literals. -/
def eventsParse (text : String) : Option ℤ :=
  if text = firstText then some 10 else if text = secondText then some 20 else none

/-- A part of three granules. -/
def eventsPart : CsegMetadata :=
  ⟨1, 0, 30, [⟨2, 0, 9⟩, ⟨3, 10, 19⟩, ⟨4, 20, 30⟩]⟩

/-- The granule with a matching row is selected, and the rows of the two others are skipped. -/
theorem event_time_filtering_sample :
    ∃ plan, planCsegV1EventTimePruning eventsPart (some ⟨some ⟨10, true⟩, some ⟨20, false⟩⟩) 3 =
        .ok plan ∧
      plan.skippedRows = 6 ∧
      Plans eventsPart (fun t => 10 ≤ t ∧ t < 20) (fun ordinal => [10 * ordinal + 5]) plan := by
  have hclause : EventTimeClause eventsSelect eventsSchema eventsClause :=
    .and (.columnLeft (by simp [SqlOperator.IsComparison]) ⟨rfl, _, rfl, by decide⟩ rfl)
      (.columnRight (by simp [SqlOperator.IsComparison]) ⟨rfl, _, rfl, by decide⟩ rfl)
  have hbounds : Bounds eventsPart (fun ordinal => [10 * (ordinal : ℤ) + 5]) := by
    constructor <;> decide
  have hplan : planCsegV1EventTimePruning eventsPart (some ⟨some ⟨10, true⟩, some ⟨20, false⟩⟩) 3 =
      .ok ⟨⟨1, by decide⟩, [1], 3, 6, 2⟩ := by decide
  obtain ⟨-, hpruning⟩ := event_time_filtering eventsParse eventsSelect eventsSchema hclause
    (show lowerWhere _ _ _ _ = .ok ⟨some ⟨10, true⟩, some ⟨20, false⟩⟩ by decide)
  have hplans := (hpruning eventsPart _ hbounds 3).1 _ hplan
  refine ⟨_, hplan, rfl, { hplans with superset := fun ordinal hlt t ht hmatched => ?_ }⟩
  refine hplans.superset ordinal hlt t ht ?_
  simp [EventTimePredicate.matchesTimestamp, not_lt.2 hmatched.1, hmatched.2]

end Chronos.Query
