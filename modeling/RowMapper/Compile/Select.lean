import RowMapper.Compile.Scope

/-!
# Tokens of select statements

Expressions, conditions, sources and select statements are compiled to tokens by recursion on the
tree. A condition that is an operand of another condition stands in parentheses; no other operand
does. A list of conditions is their conjunction from the left. A subquery is compiled on its own
session, with the model of its own entity, and stands in parentheses without its semicolon.
-/

namespace RowMapper

open Token (word sign bound)

namespace Comparison

/-- The sign of a comparison. -/
def sign : Comparison → Sign
  | eq => .eq
  | ne => .ne
  | lt => .lt
  | le => .le
  | gt => .gt
  | ge => .ge

end Comparison

namespace Arithmetic

/-- The sign of an operation. -/
def sign : Arithmetic → Sign
  | add => .plus
  | sub => .minus
  | mul => .star

end Arithmetic

namespace Quantifier

/-- The word of a quantifier. -/
def word : Quantifier → Word
  | any => .any
  | all => .all
  | some => .some

end Quantifier

namespace AggregateFunction

/-- The word of a function. -/
def word : AggregateFunction → Word
  | avg => .avg
  | max => .max
  | min => .min
  | count => .count
  | sum => .sum

end AggregateFunction

namespace JoinKind

/-- The words of a kind of join. -/
def word : JoinKind → Word
  | inner => .join
  | left => .leftJoin
  | right => .rightJoin

end JoinKind

namespace Direction

/-- The word of a direction. -/
def word : Direction → Word
  | ascending => .asc
  | descending => .desc

end Direction

/-! ## Parts -/

/-- The blank between words. -/
abbrev blank : Token := .sign .blank

/-- Tokens in parentheses. -/
def parenthesized (ts : List Token) : List Token :=
  Token.sign .openParen :: (ts ++ [Token.sign .closeParen])

/-- Lists of tokens with commas between them. -/
def commaSeparated : List (List Token) → List Token
  | [] => []
  | [ts] => ts
  | ts :: rest => ts ++ Token.sign .comma :: commaSeparated rest

/-- A clause: its words and what follows them, or nothing where nothing follows. -/
def clause (w : Word) (ts : List Token) : List Token := blank :: Token.word w :: blank :: ts

namespace Scope

/-- A name in the quotes of the session's dialect. -/
def name (cores : Cores) (scope : Scope) (s : String) : Token :=
  .name (cores scope.session).dialect.quote s

/-- The stored column of a field of the statement's own entity. -/
def column (cores : Cores) (scope : Scope) (field : String) : Compiled Token := do
  let column ← Compiled.ofExcept (scope.model.columnOf field)
  return scope.name cores column

/-- The stored columns of fields in order. -/
def columns (cores : Cores) (scope : Scope) : List String → Compiled (List Token)
  | [] => return []
  | field :: fields => do
    let c ← scope.column cores field
    let cs ← columns cores scope fields
    return c :: cs

/-- What follows an item under an alias. -/
def aliasTokens (cores : Cores) (scope : Scope) : Option String → List Token
  | none => []
  | some s => [blank, .word .as, blank, scope.name cores s]

end Scope

namespace Column

/-- A column with its qualifier and without its alias. -/
def tokens (cores : Cores) (scope : Scope) (c : Column) : Compiled (List Token) := do
  let (alias?, column) ← c.qualifier.resolve cores scope.session scope.model c.field
  return match alias? with
    | none => [scope.name cores column]
    | some a => [scope.name cores a, Token.sign .dot, scope.name cores column]

end Column

namespace Aggregate

/-- A combined value of a column, without its alias. -/
def tokens (cores : Cores) (scope : Scope) (a : Aggregate) : Compiled (List Token) := do
  let c ← scope.column cores a.field
  return Token.word a.function.word :: parenthesized [c]

end Aggregate

namespace Fragment

/-- A fragment as it is. -/
def tokens (f : Fragment) : List Token := [.fragment f.sql f.args]

end Fragment

namespace Table

/-- The table of an entity under its alias. -/
def tokens (cores : Cores) (scope : Scope) (t : Table) : Compiled (List Token) := do
  let m ← Compiled.model cores scope.session t.entity
  return scope.name cores m.tableName :: scope.aliasTokens cores t.alias?

end Table

namespace Selectable

/-- An item of a projection under its alias. -/
def tokens (cores : Cores) (scope : Scope) : Selectable → Compiled (List Token)
  | column c => do
    let ts ← c.tokens cores scope
    return ts ++ scope.aliasTokens cores c.alias?
  | aggregate a => do
    let ts ← a.tokens cores scope
    return ts ++ scope.aliasTokens cores a.alias?
  | fragment f => return f.tokens

/-- The items of a projection, each on its own. -/
def listTokens (cores : Cores) (scope : Scope) : List Selectable → Compiled (List (List Token))
  | [] => return []
  | i :: is => do
    let ts ← i.tokens cores scope
    let rest ← listTokens cores scope is
    return ts :: rest

/-- A projection; an empty one is every column. -/
def projectionTokens (cores : Cores) (scope : Scope) : List Selectable → Compiled (List Token)
  | [] => return [Token.sign .star]
  | is => do return commaSeparated (← listTokens cores scope is)

end Selectable

/-- The clause that orders rows by fields. -/
def orderTokens (cores : Cores) (scope : Scope) :
    List (Direction × String) → Compiled (List (List Token))
  | [] => return []
  | (d, field) :: rest => do
    let c ← scope.column cores field
    let ts ← orderTokens cores scope rest
    return [c, blank, Token.word d.word] :: ts

/-- A number of rows as it is bound: at most the greatest integer of 64 bits. -/
def rowCount (n : UInt64) : Value := .integer (Int64.ofInt (min n.toNat 9223372036854775807))

/-- The clause for a number of rows; none for zero. -/
def countTokens (w : Word) (n : UInt64) : List Token :=
  if n = 0 then [] else clause w [bound (rowCount n)]

/-! ## Expressions, conditions, sources and statements -/

mutual

/-- An operand. -/
def Expr.tokens (cores : Cores) (scope : Scope) : Expr → Compiled (List Token)
  | .column c => c.tokens cores scope
  | .value v => return [bound v]
  | .predicate p => p.tokens cores scope
  | .aggregate a => a.tokens cores scope
  | .math op left right => do
    let l ← left.tokens cores scope
    let r ← right.tokens cores scope
    return l ++ blank :: Token.sign op.sign :: blank :: r
  | .fragment f => return f.tokens
  | .subquery s => s.tokens cores
  | .quantified q s => do
    let ts ← s.tokens cores
    return Token.word q.word :: blank :: ts

/-- A condition. -/
def Predicate.tokens (cores : Cores) (scope : Scope) : Predicate → Compiled (List Token)
  | .compare op left right => do
    let l ← left.sideTokens cores scope
    let r ← right.sideTokens cores scope
    return l ++ blank :: Token.sign op.sign :: blank :: r
  | .and p q => do
    let l ← p.tokens cores scope
    let r ← q.tokens cores scope
    return parenthesized l ++ blank :: Token.word .and :: blank :: parenthesized r
  | .or p q => do
    let l ← p.tokens cores scope
    let r ← q.tokens cores scope
    return parenthesized l ++ blank :: Token.word .or :: blank :: parenthesized r
  | .not p => do
    let ts ← p.tokens cores scope
    return Token.word .not :: blank :: parenthesized ts
  | .inList c [] => Compiled.fail (.unsupportedExpression (Predicate.inList c []).outline)
  | .inList c (v :: vs) => do
    let l ← c.tokens cores scope
    return l ++ blank :: Token.word .in :: blank ::
      parenthesized (commaSeparated ((v :: vs).map fun v => [bound v]))
  | .inQuery c s => do
    let l ← c.tokens cores scope
    let r ← s.tokens cores
    return l ++ blank :: Token.word .in :: blank :: r
  | .exists s => do
    let ts ← s.tokens cores
    return Token.word .exists :: blank :: ts
  | .fragment f => return f.tokens

/-- An operand of a condition: another condition stands in parentheses. -/
def Expr.sideTokens (cores : Cores) (scope : Scope) : Expr → Compiled (List Token)
  | .predicate p => do
    let ts ← p.tokens cores scope
    return parenthesized ts
  | .column c => c.tokens cores scope
  | .value v => return [bound v]
  | .aggregate a => a.tokens cores scope
  | .math op left right => do
    let l ← left.tokens cores scope
    let r ← right.tokens cores scope
    return l ++ blank :: Token.sign op.sign :: blank :: r
  | .fragment f => return f.tokens
  | .subquery s => s.tokens cores
  | .quantified q s => do
    let ts ← s.tokens cores
    return Token.word q.word :: blank :: ts

/-- The conjunction of conditions, from the left. -/
def conjunctionTokens (cores : Cores) (scope : Scope) : List Predicate → Compiled (List Token)
  | [] => return []
  | p :: ps => do
    let ts ← p.tokens cores scope
    conjoinedTokens cores scope ts ps

/-- The conjunction of a compiled condition with more conditions, from the left. -/
def conjoinedTokens (cores : Cores) (scope : Scope) (left : List Token) :
    List Predicate → Compiled (List Token)
  | [] => return left
  | p :: ps => do
    let r ← p.tokens cores scope
    conjoinedTokens cores scope
      (parenthesized left ++ blank :: Token.word .and :: blank :: parenthesized r) ps

/-- What rows are selected from. -/
def Source.tokens (cores : Cores) (scope : Scope) : Source → Compiled (List Token)
  | .table t => t.tokens cores scope
  | .joinOn kind left right on => do
    let l ← left.tokens cores scope
    let r ← right.tokens cores scope
    let condition ← conditionTokens cores scope .on on
    return parenthesized (l ++ blank :: Token.word kind.word :: blank :: (r ++ condition))
  | .joinUsing kind left right fields => do
    let l ← left.tokens cores scope
    let r ← right.tokens cores scope
    let columns ← scope.columns cores fields
    let shared := if fields.isEmpty then []
      else clause .using (parenthesized (commaSeparated (columns.map ([·]))))
    return parenthesized (l ++ blank :: Token.word kind.word :: blank :: (r ++ shared))
  | .subquery (.mk s alias?) => do
    let ts ← s.tokens cores
    return parenthesized ts ++ scope.aliasTokens cores alias?

/-- A subquery without its alias. -/
def Subquery.tokens (cores : Cores) : Subquery → Compiled (List Token)
  | .mk s _ => do
    let ts ← s.tokens cores
    return parenthesized ts

/-- The clause of some conditions; none for no conditions. -/
def conditionTokens (cores : Cores) (scope : Scope) (w : Word) :
    List Predicate → Compiled (List Token)
  | [] => return []
  | p :: ps => do
    let ts ← p.tokens cores scope
    let ts ← conjoinedTokens cores scope ts ps
    return clause w ts

/-- The source of a statement: its own table where there is no other. -/
def sourceTokens (cores : Cores) (scope : Scope) : Option Source → Compiled (List Token)
  | none => return [scope.name cores scope.model.tableName]
  | some s => s.tokens cores scope

/-- A select statement without its semicolon. -/
def Select.tokens (cores : Cores) : Select → Compiled (List Token)
  | .mk session T projection source filters groupBy having orderBy limit offset => do
    let m ← Compiled.model cores session T
    let scope : Scope := ⟨session, m⟩
    let items ← Selectable.projectionTokens cores scope projection
    let rows ← sourceTokens cores scope source
    let filter ← conditionTokens cores scope .where filters
    let groups ← scope.columns cores groupBy
    let group := if groupBy.isEmpty then []
      else clause .groupBy (commaSeparated (groups.map ([·])))
    let groupFilter ← conditionTokens cores scope .having having
    let orders ← orderTokens cores scope orderBy
    let order := if orderBy.isEmpty then [] else clause .orderBy (commaSeparated orders)
    return Token.word .select :: blank :: (items ++ clause .from rows ++ filter ++ group ++
      groupFilter ++ order ++ countTokens .limit limit ++ countTokens .offset offset)

end

end RowMapper
