import RowMapper.Compile.Scope
import RowMapper.Proofs.Model.Indexes
import RowMapper.Sql.Statement

/-!
# What a caller writes into a statement

Two things in a statement are the caller's own words: aliases, and fragments of SQL. `UsesOnly I F`
says of a tree that every alias in it has `I` and every fragment `F`, wherever they stand: inside
subqueries, and also inside the subqueries that qualify a column.
-/

namespace RowMapper

/-- Every alias of a table has `I`. -/
def Table.UsesOnly (I : String → Prop) (t : Table) : Prop := ∀ n ∈ t.alias?, I n

/-- Every alias of a combined value has `I`. -/
def Aggregate.UsesOnly (I : String → Prop) (a : Aggregate) : Prop := ∀ n ∈ a.alias?, I n

mutual

/-- A column has an alias, and its qualifier may be a whole subquery. -/
def Column.UsesOnly (I : String → Prop) (F : Fragment → Prop) : Column → Prop
  | .mk q _ alias? => q.UsesOnly I F ∧ ∀ n ∈ alias?, I n

def Qualifier.UsesOnly (I : String → Prop) (F : Fragment → Prop) : Qualifier → Prop
  | .own => True
  | .table t => t.UsesOnly I
  | .subquery s => s.UsesOnly I F

/-- The caller's words in the operands of an expression. Values are bound, so they are no words. -/
def Expr.UsesOnly (I : String → Prop) (F : Fragment → Prop) : Expr → Prop
  | .column c => c.UsesOnly I F
  | .value _ => True
  | .predicate p => p.UsesOnly I F
  | .aggregate a => a.UsesOnly I
  | .math _ left right => left.UsesOnly I F ∧ right.UsesOnly I F
  | .fragment f => F f
  | .subquery s => s.UsesOnly I F
  | .quantified _ s => s.UsesOnly I F

/-- The caller's words on both sides of a condition. The values of a list are bound. -/
def Predicate.UsesOnly (I : String → Prop) (F : Fragment → Prop) : Predicate → Prop
  | .compare _ left right => left.UsesOnly I F ∧ right.UsesOnly I F
  | .and p q => p.UsesOnly I F ∧ q.UsesOnly I F
  | .or p q => p.UsesOnly I F ∧ q.UsesOnly I F
  | .not p => p.UsesOnly I F
  | .inList c _ => c.UsesOnly I F
  | .inQuery c s => c.UsesOnly I F ∧ s.UsesOnly I F
  | .exists s => s.UsesOnly I F
  | .fragment f => F f

def Selectable.UsesOnly (I : String → Prop) (F : Fragment → Prop) : Selectable → Prop
  | .column c => c.UsesOnly I F
  | .aggregate a => a.UsesOnly I
  | .fragment f => F f

/-- The caller's words in joined sources and in their conditions. The fields of `USING` are fields
of models. -/
def Source.UsesOnly (I : String → Prop) (F : Fragment → Prop) : Source → Prop
  | .table t => t.UsesOnly I
  | .joinOn _ left right on => left.UsesOnly I F ∧ right.UsesOnly I F ∧ predicatesUseOnly I F on
  | .joinUsing _ left right _ => left.UsesOnly I F ∧ right.UsesOnly I F
  | .subquery s => s.UsesOnly I F

/-- The caller's words in a nested statement, and its own alias. -/
def Subquery.UsesOnly (I : String → Prop) (F : Fragment → Prop) : Subquery → Prop
  | .mk s alias? => s.UsesOnly I F ∧ ∀ n ∈ alias?, I n

/-- The caller's words in every clause. Groups and orders are given by fields, limits by numbers. -/
def Select.UsesOnly (I : String → Prop) (F : Fragment → Prop) : Select → Prop
  | .mk _ _ projection source filters _ having _ _ _ =>
    selectablesUseOnly I F projection ∧ sourceUsesOnly I F source ∧
      predicatesUseOnly I F filters ∧ predicatesUseOnly I F having

/-- Every condition of a list uses only what it may. -/
def predicatesUseOnly (I : String → Prop) (F : Fragment → Prop) : List Predicate → Prop
  | [] => True
  | p :: ps => p.UsesOnly I F ∧ predicatesUseOnly I F ps

/-- Every item of a projection uses only what it may. -/
def selectablesUseOnly (I : String → Prop) (F : Fragment → Prop) : List Selectable → Prop
  | [] => True
  | i :: is => i.UsesOnly I F ∧ selectablesUseOnly I F is

/-- A source, if there is one, uses only what it may. -/
def sourceUsesOnly (I : String → Prop) (F : Fragment → Prop) : Option Source → Prop
  | none => True
  | some s => s.UsesOnly I F

end

/-- The caller's words in what is set. The field that is set is a field of the model. -/
def Assignment.UsesOnly (I : String → Prop) (F : Fragment → Prop) : Assignment → Prop
  | .column c => c.UsesOnly I F
  | .value _ e => e.UsesOnly I F
  | .fragment f => F f

/-- Every condition, assignment and fragment of a statement uses only what it may. A statement by
the caller is one fragment. -/
def Statement.UsesOnly (I : String → Prop) (F : Fragment → Prop) : Statement → Prop
  | .select s => s.UsesOnly I F
  | .insert s => ∀ u ∈ s.upsert?, ∀ a ∈ u.assignments, a.UsesOnly I F
  | .update s =>
    (∀ t ∈ s.table?, t.UsesOnly I) ∧ (∀ a ∈ s.assignments, a.UsesOnly I F) ∧
      predicatesUseOnly I F s.filters
  | .delete s => (∀ t ∈ s.table?, t.UsesOnly I) ∧ predicatesUseOnly I F s.filters
  | .raw s => F ⟨s.sql, s.args⟩

/-! ## A nested statement -/

/-- The accounts of a ledger. -/
def account : EntityType := .integers "Account" ["id", "owner", "balance"]

/-- The scope of a statement about accounts. -/
def accountScope : Scope :=
  ⟨"db", .ofFields "account" [⟨"id", "id", "i64", .integer, 0⟩,
    ⟨"owner", "owner", "i64", .integer, 1⟩, ⟨"balance", "balance", "i64", .integer, 2⟩] account⟩

/-- The transfers of a ledger. -/
def transfer : EntityType := .integers "Transfer" ["accountId", "amount"]

/-- The amounts over ten, without the greatest one. -/
def largeAmounts : Subquery :=
  .mk (.mk "db" transfer [.column (.own "amount")] none
    [.compare .gt (.column (.own "amount")) (.value (.integer 10))] [] []
    [(.descending, "amount")] 3 1) none

end RowMapper
