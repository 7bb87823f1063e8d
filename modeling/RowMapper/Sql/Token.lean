import RowMapper.Value

/-!
# Tokens of SQL

A compiled statement is a list of tokens. The text of a statement and its arguments are two views of
that list, so that placeholders and arguments cannot come apart: a placeholder is the token of its
value, and a fragment by the caller brings its arguments along. Blanks are tokens too, so the text
is the texts of the tokens in a row.
-/

namespace RowMapper

/-- The words that the compiler writes. -/
inductive Word where
  | select
  | from
  | where
  | groupBy
  | having
  | orderBy
  | asc
  | desc
  | limit
  | offset
  | as
  | join
  | leftJoin
  | rightJoin
  | using
  | on
  | and
  | or
  | not
  | in
  | exists
  | any
  | all
  | some
  | avg
  | max
  | min
  | count
  | sum
  | insertInto
  | values
  | update
  | set
  | deleteFrom
  | onConflict
  | doUpdateSet
  | excluded
  | onDuplicateKeyUpdate
  | upsert
  | when
  deriving DecidableEq, Repr

namespace Word

/-- The spelling of a word. -/
def text : Word → String
  | .select => "SELECT"
  | .from => "FROM"
  | .where => "WHERE"
  | .groupBy => "GROUP BY"
  | .having => "HAVING"
  | .orderBy => "ORDER BY"
  | .asc => "ASC"
  | .desc => "DESC"
  | .limit => "LIMIT"
  | .offset => "OFFSET"
  | .as => "AS"
  | .join => "JOIN"
  | .leftJoin => "LEFT JOIN"
  | .rightJoin => "RIGHT JOIN"
  | .using => "USING"
  | .on => "ON"
  | .and => "AND"
  | .or => "OR"
  | .not => "NOT"
  | .in => "IN"
  | .exists => "EXISTS"
  | .any => "ANY"
  | .all => "ALL"
  | .some => "SOME"
  | .avg => "AVG"
  | .max => "MAX"
  | .min => "MIN"
  | .count => "COUNT"
  | .sum => "SUM"
  | .insertInto => "INSERT INTO"
  | .values => "VALUES"
  | .update => "UPDATE"
  | .set => "SET"
  | .deleteFrom => "DELETE FROM"
  | .onConflict => "ON CONFLICT"
  | .doUpdateSet => "DO UPDATE SET"
  | .excluded => "excluded"
  | .onDuplicateKeyUpdate => "ON DUPLICATE KEY UPDATE"
  | .upsert => "UPSERT"
  | .when => "WHEN"

end Word

/-- The signs that the compiler writes. -/
inductive Sign where
  | blank
  | openParen
  | closeParen
  | comma
  | dot
  | semicolon
  | star
  | plus
  | minus
  | eq
  | ne
  | lt
  | le
  | gt
  | ge
  deriving DecidableEq, Repr

namespace Sign

/-- The spelling of a sign. -/
def text : Sign → String
  | .blank => " "
  | .openParen => "("
  | .closeParen => ")"
  | .comma => ","
  | .dot => "."
  | .semicolon => ";"
  | .star => "*"
  | .plus => "+"
  | .minus => "-"
  | .eq => "="
  | .ne => "!="
  | .lt => "<"
  | .le => "<="
  | .gt => ">"
  | .ge => ">="

end Sign

/-- A token: a word or sign of the compiler, a name in quotes, a placeholder with the value bound to
it, or a fragment by the caller with the values for its own placeholders. -/
inductive Token where
  | word (w : Word)
  | sign (s : Sign)
  | name (quote : Char) (s : String)
  | bound (v : Value)
  | fragment (sql : String) (args : List Value)
  deriving DecidableEq

namespace Token

/-- The text of a token. -/
def text : Token → String
  | word w => w.text
  | sign s => s.text
  | name quote s => quote.toString ++ s ++ quote.toString
  | bound _ => "?"
  | fragment sql _ => sql

/-- The values that a token binds. -/
def args : Token → List Value
  | bound v => [v]
  | fragment _ args => args
  | _ => []

end Token

/-- A statement ready to be sent: its text and its arguments in the order of the placeholders. -/
structure Query where
  sql : String
  args : List Value
  deriving DecidableEq

namespace Query

/-- The statement of a list of tokens. -/
def ofTokens (tokens : List Token) : Query :=
  ⟨String.join (tokens.map Token.text), tokens.flatMap Token.args⟩

end Query

end RowMapper
