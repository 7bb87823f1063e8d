import RowMapper.Text.Outline

/-!
# Errors

Every way in which building or running a statement can fail, as its cause. The wording is in
`Error.message` alone. An error has a stable number, `Error.code`: those of the `1000xx` range come
from statements, models and transactions, those of the `2000xx` range from the database and from
the conversion of values.
-/

namespace RowMapper

/-- A failure, as its cause. -/
inductive Error where
  | unknown (text : String)
  | notARecord (typeName : String)
  | unknownField (name : String)
  | unsupportedExpression (node : String)
  | invalidTag (pair : String)
  | tooManyColumns (columns : List String)
  | noRowsToInsert
  | unsupportedAssignment (node : String)
  | nothingToUpdate
  | callbackFailed (source : Error)
  | rollbackFailed (source cause : Error)
  | commitFailed (source : Error)
  | transactionFinished
  | noRows
  | database (text : String)
  | typeMismatch (expected actual : String)
  | unexpectedNull
  | cancelled
  | malformedJson
  deriving DecidableEq, Inhabited

namespace Error

/-- The stable number of an error. -/
def code : Error → Nat
  | unknown _ => 100001
  | notARecord _ => 100002
  | unknownField _ => 100003
  | unsupportedExpression _ => 100004
  | invalidTag _ => 100005
  | tooManyColumns _ => 100006
  | noRowsToInsert => 100007
  | unsupportedAssignment _ => 100008
  | nothingToUpdate => 100009
  | callbackFailed _ => 100010
  | rollbackFailed _ _ => 100011
  | commitFailed _ => 100012
  | transactionFinished => 100013
  | noRows => 100014
  | database _ => 200001
  | typeMismatch _ _ => 200002
  | unexpectedNull => 200003
  | cancelled => 200004
  | malformedJson => 200005

/-- The text of a failure that the database itself reports. -/
def databaseText (text : String) : String := "SQL execution failure: `" ++ text ++ "`"

/-- The text of an error. -/
def message : Error → String
  | unknown text => "morm: unknown error: " ++ text
  | notARecord typeName => "morm: only pointers to named structs are supported, got " ++ typeName
  | unknownField name => "morm: unknown field " ++ name
  | unsupportedExpression node => "morm: unsupported expression type " ++ node
  | invalidTag pair => "morm: invalid tag content " ++ pair
  | tooManyColumns columns =>
    "morm: too many returned columns " ++ Outline.list (columns.map Text.quoted)
  | noRowsToInsert => "morm: insert statement needs at least one row"
  | unsupportedAssignment node => "morm: unsupported assignable type " ++ node
  | nothingToUpdate => "morm: update statement has no assigned columns"
  | callbackFailed source => "morm: transaction callback failed: " ++ source.message
  | rollbackFailed source cause =>
    "morm: rollback failed: " ++ source.message ++ ", after: " ++ cause.message
  | commitFailed source => "morm: commit failed: " ++ source.message
  | transactionFinished => "morm: transaction already committed or rolled back"
  | noRows => "morm: no rows in result set"
  | database text => "Database error: " ++ databaseText text
  | typeMismatch expected actual =>
    "Type conversion error: expected " ++ expected ++ ", got " ++ actual
  | unexpectedNull => "Unexpected null value for non-nullable field"
  | cancelled => "morm: query cancelled"
  | malformedJson => "JSON error"

/-- The texts of the errors behind an error, nearest first. -/
def sources : Error → List String
  | callbackFailed source => source.message :: source.sources
  | rollbackFailed source _ => source.message :: source.sources
  | commitFailed source => source.message :: source.sources
  | database text => [databaseText text]
  | _ => []

end Error

end RowMapper
