import RowMapper.Sql.Tree

/-!
# Outlines of expressions

The text under which a column, an expression, a condition or a table appears in messages. A
condition appears as its operator with a left side, if it has one, and a right side. Of a subquery
only the alias and the projection appear.
-/

namespace RowMapper

namespace Table

/-- The text of a table. -/
def outline (t : Table) : String :=
  Outline.record "Table"
    [("entity", Text.quoted t.entity.path), ("alias", Outline.optionalText t.alias?)]

end Table

namespace Fragment

/-- The text of a fragment. -/
def outline (f : Fragment) : String :=
  Outline.record "RawExpr"
    [("sql", Text.quoted f.sql), ("args", Outline.list (f.args.map Value.outline))]

end Fragment

namespace Comparison

/-- The name of a comparison. -/
def outline : Comparison → String
  | eq => "Eq"
  | ne => "Ne"
  | lt => "Lt"
  | le => "Le"
  | gt => "Gt"
  | ge => "Ge"

end Comparison

namespace Arithmetic

/-- The name of an operation. -/
def outline : Arithmetic → String
  | add => "Add"
  | sub => "Sub"
  | mul => "Multi"

end Arithmetic

namespace AggregateFunction

/-- The name of a function. -/
def name : AggregateFunction → String
  | avg => "AVG"
  | max => "MAX"
  | min => "MIN"
  | count => "COUNT"
  | sum => "SUM"

end AggregateFunction

namespace Quantifier

/-- The name of a quantifier. -/
def name : Quantifier → String
  | any => "ANY"
  | all => "ALL"
  | some => "SOME"

end Quantifier

namespace JoinKind

/-- The name of a kind of join. -/
def outline : JoinKind → String
  | inner => "Inner"
  | left => "Left"
  | right => "Right"

end JoinKind

namespace Aggregate

/-- The text of a combined value. -/
def outline (a : Aggregate) : String :=
  Outline.record "Aggregate" [("func", Text.quoted a.function.name), ("arg", Text.quoted a.field),
    ("alias", Outline.optionalText a.alias?)]

end Aggregate

/-- The fragment that stands for a list of values in messages. -/
def Fragment.ofValues (values : List Value) : Fragment :=
  ⟨"(" ++ ",".intercalate (values.map fun _ => "?") ++ ")", values⟩

/-- The text of a condition with its sides. -/
def outlineCondition (left : Option String) (op right : String) : String :=
  Outline.record "Predicate" [("left", Outline.optional left), ("op", op), ("right", right)]

/-- The text of a join with its sides. -/
def outlineJoin (left right : String) (kind : JoinKind) (on sharedFields : List String) : String :=
  Outline.tagged "Join" (Outline.record "Join" [("left", left), ("right", right),
    ("kind", kind.outline), ("on", Outline.list on), ("using", Outline.list sharedFields)])

mutual

/-- The text of a column. -/
def Column.outline : Column → String
  | .mk q field alias? => Outline.record "Column"
      [("table", Outline.optional q.outline?), ("name", Text.quoted field),
        ("alias", Outline.optionalText alias?)]

/-- The text of what a column belongs to. -/
def Qualifier.outline? : Qualifier → Option String
  | .own => none
  | .table t => some (Outline.tagged "Table" t.outline)
  | .subquery s => some (Outline.tagged "Subquery" s.outline)

/-- The text of an operand. -/
def Expr.outline : Expr → String
  | .column c => Outline.tagged "Column" c.outline
  | .value v => Outline.tagged "Value" v.outline
  | .predicate p => Outline.tagged "Predicate" p.outline
  | .aggregate a => Outline.tagged "Aggregate" a.outline
  | .math op left right => Outline.tagged "Math" (Outline.record "MathExpr"
      [("left", left.outline), ("op", op.outline), ("right", right.outline)])
  | .fragment f => Outline.tagged "Raw" f.outline
  | .subquery s => Outline.tagged "Subquery" s.outline
  | .quantified q s => Outline.tagged "SubqueryExpr" (Outline.record "SubqueryExpr"
      [("sub", s.outline), ("keyword", Text.quoted q.name)])

/-- The text of a condition. -/
def Predicate.outline : Predicate → String
  | .compare op left right => outlineCondition (some left.outline) op.outline right.outline
  | .and p q => outlineCondition (some (Outline.tagged "Predicate" p.outline)) "And"
      (Outline.tagged "Predicate" q.outline)
  | .or p q => outlineCondition (some (Outline.tagged "Predicate" p.outline)) "Or"
      (Outline.tagged "Predicate" q.outline)
  | .not p => outlineCondition none "Not" (Outline.tagged "Predicate" p.outline)
  | .inList c values => outlineCondition (some (Outline.tagged "Column" c.outline)) "In"
      (Outline.tagged "Raw" (Fragment.ofValues values).outline)
  | .inQuery c s => outlineCondition (some (Outline.tagged "Column" c.outline)) "In"
      (Outline.tagged "Subquery" s.outline)
  | .exists s => outlineCondition none "Exists" (Outline.tagged "Subquery" s.outline)
  | .fragment f => outlineCondition none "Raw" (Outline.tagged "Raw" f.outline)

/-- The text of an item of a projection. -/
def Selectable.outline : Selectable → String
  | .column c => Outline.tagged "Column" c.outline
  | .aggregate a => Outline.tagged "Aggregate" a.outline
  | .fragment f => Outline.tagged "Raw" f.outline

/-- The text of a source. -/
def Source.outline : Source → String
  | .table t => Outline.tagged "Table" t.outline
  | .joinOn kind left right on =>
    outlineJoin left.outline right.outline kind (predicateOutlines on) []
  | .joinUsing kind left right fields =>
    outlineJoin left.outline right.outline kind [] (fields.map Text.quoted)
  | .subquery s => Outline.tagged "Subquery" s.outline

/-- The text of a subquery. -/
def Subquery.outline : Subquery → String
  | .mk (.mk _ _ projection _ _ _ _ _ _ _) alias? => Outline.record "Subquery"
      [("alias", Outline.optionalText alias?), ("columns", Outline.list (itemOutlines projection))]

/-- The texts of the items of a projection. -/
def itemOutlines : List Selectable → List String
  | [] => []
  | i :: is => i.outline :: itemOutlines is

/-- The texts of conditions. -/
def predicateOutlines : List Predicate → List String
  | [] => []
  | p :: ps => p.outline :: predicateOutlines ps

end

end RowMapper
