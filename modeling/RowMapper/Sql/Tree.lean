import RowMapper.Entity

/-!
# Expressions, conditions and select statements

The tree that a caller builds before anything is compiled. Columns are named by the fields of
entities, not by their stored names. A select statement carries the name of the session it was made
on, since it may be nested in a statement of another session; its settings are looked up under that
name when it is compiled.
-/

namespace RowMapper

/-- The table of an entity, under an alias or not. -/
structure Table where
  entity : EntityType
  alias? : Option String

/-- A piece of SQL by the caller, with the values for its placeholders. -/
structure Fragment where
  sql : String
  args : List Value

namespace Fragment

/-- The fragment with more values. -/
def bind (f : Fragment) (args : List Value) : Fragment := { f with args := f.args ++ args }

end Fragment

/-- The comparisons of two operands. -/
inductive Comparison where
  | eq
  | ne
  | lt
  | le
  | gt
  | ge
  deriving DecidableEq, Repr

/-- The operations of arithmetic. -/
inductive Arithmetic where
  | add
  | sub
  | mul
  deriving DecidableEq, Repr

/-- How a comparison ranges over the rows of a subquery. -/
inductive Quantifier where
  | any
  | all
  | some
  deriving DecidableEq, Repr

/-- The functions that combine the values of a column. -/
inductive AggregateFunction where
  | avg
  | max
  | min
  | count
  | sum
  deriving DecidableEq, Repr

/-- A combined value of a column. The alias counts in a projection only. -/
structure Aggregate where
  function : AggregateFunction
  field : String
  alias? : Option String

/-- The order of rows by a field. -/
inductive Direction where
  | ascending
  | descending
  deriving DecidableEq, Repr

/-- Which rows without a partner a join keeps. -/
inductive JoinKind where
  | inner
  | left
  | right
  deriving DecidableEq, Repr

mutual

/-- A field, of the statement's own entity or of a table or subquery. The alias counts in a
projection only. -/
inductive Column where
  | mk (qualifier : Qualifier) (field : String) (alias? : Option String)

/-- What a column belongs to. -/
inductive Qualifier where
  | own
  | table (t : Table)
  | subquery (s : Subquery)

/-- An operand. -/
inductive Expr where
  | column (c : Column)
  | value (v : Value)
  | predicate (p : Predicate)
  | aggregate (a : Aggregate)
  | math (op : Arithmetic) (left right : Expr)
  | fragment (f : Fragment)
  | subquery (s : Subquery)
  | quantified (q : Quantifier) (s : Subquery)

/-- A condition. -/
inductive Predicate where
  | compare (op : Comparison) (left right : Expr)
  | and (p q : Predicate)
  | or (p q : Predicate)
  | not (p : Predicate)
  | inList (c : Column) (values : List Value)
  | inQuery (c : Column) (s : Subquery)
  | exists (s : Subquery)
  | fragment (f : Fragment)

/-- An item of a projection. -/
inductive Selectable where
  | column (c : Column)
  | aggregate (a : Aggregate)
  | fragment (f : Fragment)

/-- What rows are selected from. -/
inductive Source where
  | table (t : Table)
  | joinOn (kind : JoinKind) (left right : Source) (on : List Predicate)
  | joinUsing (kind : JoinKind) (left right : Source) (fields : List String)
  | subquery (s : Subquery)

/-- A select statement inside another statement, under an alias or not. -/
inductive Subquery where
  | mk (select : Select) (alias? : Option String)

/-- A select statement. No projection means all columns, no source the entity's own table; the
conditions of each list are combined with `AND`. A limit or offset of zero means none. -/
inductive Select where
  | mk (session : String) (entity : EntityType) (projection : List Selectable)
      (source : Option Source) (filters : List Predicate) (groupBy : List String)
      (having : List Predicate) (orderBy : List (Direction × String)) (limit offset : UInt64)

end

namespace Column

def qualifier : Column → Qualifier
  | mk q _ _ => q

def field : Column → String
  | mk _ f _ => f

def alias? : Column → Option String
  | mk _ _ a => a

/-- A field of the statement's own entity. -/
def own (field : String) : Column := mk .own field none

/-- The column under an alias. -/
def as (c : Column) (a : String) : Column := mk c.qualifier c.field (some a)

end Column

namespace Table

/-- A column of the table. -/
def column (t : Table) (field : String) : Column := .mk (.table t) field none

end Table

namespace Subquery

def select : Subquery → Select
  | mk s _ => s

def alias? : Subquery → Option String
  | mk _ a => a

/-- A column that the subquery exposes. -/
def column (s : Subquery) (field : String) : Column := .mk (.subquery s) field none

end Subquery

namespace Select

def session : Select → String
  | mk s _ _ _ _ _ _ _ _ _ => s

def entity : Select → EntityType
  | mk _ T _ _ _ _ _ _ _ _ => T

def projection : Select → List Selectable
  | mk _ _ p _ _ _ _ _ _ _ => p

/-- The statement that selects every row of an entity's table. -/
def all (session : String) (T : EntityType) : Select := mk session T [] none [] [] [] [] 0 0

/-- The statement with another projection. -/
def withProjection : Select → List Selectable → Select
  | mk s T _ src w g h o l f, p => mk s T p src w g h o l f

/-- The statement with another source. -/
def withSource : Select → Source → Select
  | mk s T p _ w g h o l f, src => mk s T p (some src) w g h o l f

/-- The statement with one more condition on rows. -/
def filteredBy : Select → Predicate → Select
  | mk s T p src w g h o l f, c => mk s T p src (w ++ [c]) g h o l f

/-- The statement with more fields to group by. -/
def groupedBy : Select → List String → Select
  | mk s T p src w g h o l f, fields => mk s T p src w (g ++ fields) h o l f

/-- The statement with one more condition on groups. -/
def havingAlso : Select → Predicate → Select
  | mk s T p src w g h o l f, c => mk s T p src w g (h ++ [c]) o l f

/-- The statement with one more field to order by. -/
def orderedBy : Select → Direction → String → Select
  | mk s T p src w g h o l f, d, field => mk s T p src w g h (o ++ [(d, field)]) l f

/-- The statement with another limit. -/
def limitedTo : Select → UInt64 → Select
  | mk s T p src w g h o _ f, n => mk s T p src w g h o n f

/-- The statement with another offset. -/
def offsetBy : Select → UInt64 → Select
  | mk s T p src w g h o l _, n => mk s T p src w g h o l n

end Select

end RowMapper
