import RowMapper.Connection
import RowMapper.Proofs.Compile.Placeholders
import RowMapper.Proofs.Model.Indexes
import RowMapper.Proofs.Model.Renaming
import RowMapper.Proofs.Compile.Lexing
import RowMapper.Proofs.Compile.Conditions
import RowMapper.Proofs.Compile.Checks
import RowMapper.Proofs.Session.Interleaving
import RowMapper.Proofs.Session.Clients
import RowMapper.Proofs.Binding.RoundTrip
import RowMapper.Proofs.Session.Strategies
import RowMapper.Proofs.Compile.Exposure
import RowMapper.Proofs.Model.Growth
import RowMapper.Proofs.Session.Builds
import RowMapper.Proofs.Model.Sharing
import RowMapper.Proofs.Model.Racing
import RowMapper.Proofs.Session.Asides
import RowMapper.Proofs.Session.Nesting
import RowMapper.Proofs.Compile.Clauses
import RowMapper.Proofs.Session.Cancellation
import RowMapper.Proofs.Session.Logging
import RowMapper.Proofs.Binding.Selected
import RowMapper.Proofs.Session.Processes
import RowMapper.Proofs.Compile.Balance
import RowMapper.Proofs.Compile.Quotes
import RowMapper.Proofs.Compile.Dialects
import RowMapper.Proofs.Compile.Arithmetic
import RowMapper.Proofs.Compile.Aliases
import RowMapper.Proofs.Compile.Rows
import RowMapper.Proofs.Number.Widening
import RowMapper.Proofs.Sql.Assignments
import RowMapper.Proofs.Compile.Updates
import RowMapper.Proofs.Model.Precedence
import RowMapper.Proofs.Binding.Reordering
import RowMapper.Proofs.Session.Rows
import RowMapper.Proofs.Number.Narrowing
import RowMapper.Proofs.Field.Stability
import RowMapper.Proofs.Calendar.Text
import RowMapper.Proofs.Compile.Sources
import RowMapper.Proofs.Compile.Joins
import RowMapper.Proofs.Compile.Using
import RowMapper.Proofs.Compile.Unaliased
import RowMapper.Proofs.Model.Lookups
import RowMapper.Proofs.Model.TagText
import RowMapper.Proofs.Model.DefaultNames
import RowMapper.Proofs.Field.StorageClass
